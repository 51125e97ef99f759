import TsnGen.HexText
import TsnGen.JsonPrint
import TsnGen.Session

namespace TsnGen

/-!
# Packets as JSON lines

`Session::toJson` prints a packet, a chain or a stacked packet by concatenating
texts.  Names are copied between quotes as they are, without escaping anything
in them.  The lines are JSON texts with the data of the packet as long as every
name is one that a string may hold as it is.
-/

namespace Session

/-- `if (i) s += ','`. -/
def separated
    (i : Nat)
    (s : String) : String :=
  if i ≠ 0 then s ++ "," else s

/-- One round of the loop over the fields of a packet. -/
def addField
    (s : String)
    (field : (String × UInt64) × Nat) : String :=
  separated field.2 s ++ "\"" ++ field.1.1 ++ "\":" ++
    toString field.1.2.toNat

/-- `toJson` of a packet; `7b` and `7d` are the codes of the braces. -/
def toJsonPacket
    (pkt : BuiltPacket) : String :=
  pkt.fields.zipIdx.foldl addField "\x7b\"fields\":\x7b" ++
    "\x7d,\"hex\":\"" ++ toHex pkt.bytes ++ "\"\x7d"

/-- A round of the loop over layers; the packet's first brace is cut off. -/
def addLayer
    (s : String)
    (layer : Layer × Nat) : String :=
  separated layer.2 s ++ "\x7b\"iface\":\"" ++ layer.1.1 ++ "\"," ++
    String.ofList ((toJsonPacket layer.1.2).toList.drop 1)

/-- `toJson` of a chain. -/
def toJsonChain
    (chain : List Layer) : String :=
  chain.zipIdx.foldl addLayer "[" ++ "]"

/-- `toJson` of a stacked packet. -/
def toJsonStacked
    (pkt : StackedPacket) : String :=
  "\x7b\"hex\":\"" ++ toHex pkt.bytes ++ "\",\"layers\":" ++
    toJsonChain pkt.layers ++ "\x7d"

section Values

open Json

/-- A field as a member: its name and its value in decimal digits. -/
def fieldMember
    (field : String × UInt64) : List Char × Json :=
  (field.1.toList, number (Nat.toDigits 10 field.2.toNat))

/-- The members of a packet: its fields in order and its bytes. -/
def packetMembers
    (pkt : BuiltPacket) : List (List Char × Json) :=
  [("fields".toList, object (pkt.fields.map fieldMember)),
    ("hex".toList, string (toHex pkt.bytes).toList)]

/-- The value that holds the data of a packet. -/
def packetValue
    (pkt : BuiltPacket) : Json :=
  object (packetMembers pkt)

/-- The value that holds the data of a layer: its name comes first. -/
def layerValue
    (layer : Layer) : Json :=
  object (("iface".toList, string layer.1.toList) :: packetMembers layer.2)

/-- The value that holds the data of a chain. -/
def chainValue
    (chain : List Layer) : Json :=
  array (chain.map layerValue)

/-- The value that holds the data of a stacked packet. -/
def stackedValue
    (pkt : StackedPacket) : Json :=
  object
    [("hex".toList, string (toHex pkt.bytes).toList),
      ("layers".toList, chainValue pkt.layers)]

/-- The texts that a loop concatenates are joined by commas. -/
private theorem toList_foldl_separated
    {α : Type}
    {step : String → α × Nat → String}
    {piece : α → List Char}
    (adds :
      ∀ s item i,
        (step s (item, i)).toList = (separated i s).toList ++ piece item)
    (s : String)
    (items : List α) :
    (items.zipIdx.foldl step s).toList =
      s.toList ++ TextReplace.joined [','] (items.map piece) := by
  have behind :
      ∀ (items : List α) (i : Nat) (s : String), i ≠ 0 →
        ((items.zipIdx i).foldl step s).toList =
          s.toList ++ items.flatMap fun item => ',' :: piece item := by
    intro items
    induction items with
    | nil =>
        simp
    | cons item more inductionHypothesis =>
        intro i s later
        simp [inductionHypothesis (i + 1) _ (Nat.succ_ne_zero i), adds,
          separated, later]
  have joined :
      ∀ (first : List Char) (more : List α),
        TextReplace.joined [','] (first :: more.map piece) =
          first ++ more.flatMap fun item => ',' :: piece item := by
    intro first more
    induction more generalizing first with
    | nil =>
        simp [TextReplace.joined]
    | cons item more inductionHypothesis =>
        simp [TextReplace.joined, inductionHypothesis]
  cases items with
  | nil =>
      simp [TextReplace.joined]
  | cons item more =>
      simp [behind more 1 _ (by decide), joined, adds, separated]

/-- A packet is printed as its value. -/
theorem toJsonPacket_toList
    (pkt : BuiltPacket) :
    (toJsonPacket pkt).toList = print (packetValue pkt) := by
  have loop :=
    @toList_foldl_separated _ addField
      (fun field => quoted (fieldMember field).1 ++
        ':' :: print (fieldMember field).2)
      (by
        intro s field i
        simp [addField, fieldMember, quoted, print])
      "\x7b\"fields\":\x7b" pkt.fields
  rw [packetValue, packetMembers, print, printMembers, print,
    printMembers_eq_joined, List.map_map]
  simp only [toJsonPacket, String.toList_append, loop]
  simp [quoted, print, printMembers, Function.comp_def]

/-- A layer is printed as its value, with a brace that is cut off and added. -/
private theorem addLayer_toList
    (s : String)
    (layer : Layer)
    (i : Nat) :
    (addLayer s (layer, i)).toList =
      (separated i s).toList ++ print (layerValue layer) := by
  have cut :
      (toJsonPacket layer.2).toList.drop 1 =
        printMembers (packetMembers layer.2) ++ ['}'] := by
    rw [toJsonPacket_toList, packetValue, print]
    rfl
  have members :
      printMembers
          (("iface".toList, string layer.1.toList) :: packetMembers layer.2) =
        quoted "iface".toList ++ ':' ::
          (quoted layer.1.toList ++ ',' ::
            printMembers (packetMembers layer.2)) := by
    rw [packetMembers, printMembers, print]
  rw [layerValue, print, members]
  simp [addLayer, cut, quoted]

theorem toJsonChain_toList
    (chain : List Layer) :
    (toJsonChain chain).toList = print (chainValue chain) := by
  rw [chainValue, print, printItems_eq_joined, List.map_map]
  simp only [toJsonChain, String.toList_append,
    toList_foldl_separated addLayer_toList]
  simp [Function.comp_def]

theorem toJsonStacked_toList
    (pkt : StackedPacket) :
    (toJsonStacked pkt).toList = print (stackedValue pkt) := by
  simp [toJsonStacked, stackedValue, toJsonChain_toList, print, printMembers,
    quoted]

/-- The digits of bytes tell the bytes. -/
private theorem toHex_injective :
    Function.Injective toHex := by
  intro first second same
  have sameLoop := congrArg (fun text => fromHexLoop text []) <|
    String.ofList_inj.mp same
  simpa [fromHexLoop_printed] using sameLoop

private theorem fieldMember_injective :
    Function.Injective fieldMember := by
  rintro ⟨firstName, firstValue⟩ ⟨secondName, secondValue⟩ same
  simp only [fieldMember, Prod.mk.injEq, number.injEq] at same
  obtain ⟨sameName, sameDigits⟩ := same
  rw [String.toList_inj.mp sameName,
    UInt64.toNat_inj.mp (toDigits_injective sameDigits)]

private theorem packetMembers_injective :
    Function.Injective packetMembers := by
  intro first second same
  simp only [packetMembers, List.cons.injEq, Prod.mk.injEq, object.injEq,
    string.injEq, true_and, and_true] at same
  obtain ⟨sameFields, sameBytes⟩ := same
  ext1
  · exact toHex_injective (String.toList_inj.mp sameBytes)
  · exact List.map_injective_iff.mpr fieldMember_injective sameFields

/-- The value of a packet tells its fields and its bytes. -/
theorem packetValue_injective :
    Function.Injective packetValue := by
  intro first second same
  exact packetMembers_injective (object.inj same)

private theorem layerValue_injective :
    Function.Injective layerValue := by
  rintro ⟨firstName, firstPacket⟩ ⟨secondName, secondPacket⟩ same
  simp only [layerValue, object.injEq, List.cons.injEq, Prod.mk.injEq,
    string.injEq, true_and] at same
  obtain ⟨sameName, samePacket⟩ := same
  rw [String.toList_inj.mp sameName, packetMembers_injective samePacket]

/-- The value of a chain tells its layers. -/
theorem chainValue_injective :
    Function.Injective chainValue := by
  intro first second same
  exact List.map_injective_iff.mpr layerValue_injective (array.inj same)

/-- The value of a stacked packet tells its bytes and its layers. -/
theorem stackedValue_injective :
    Function.Injective stackedValue := by
  rintro ⟨firstBytes, firstLayers⟩ ⟨secondBytes, secondLayers⟩ same
  simp only [stackedValue, object.injEq, List.cons.injEq, Prod.mk.injEq,
    string.injEq, true_and, and_true] at same
  obtain ⟨sameBytes, sameLayers⟩ := same
  rw [toHex_injective (String.toList_inj.mp sameBytes),
    chainValue_injective sameLayers]

/-- The numbers of a packet are decimal. -/
private theorem packetMembers_hasDecimals
    (pkt : BuiltPacket) :
    AllMembers (fun _ => True) IsDecimal (packetMembers pkt) := by
  have fields :
      AllMembers (fun _ => True) IsDecimal (pkt.fields.map fieldMember) := by
    rw [allMembers_iff]
    intro member isMember
    obtain ⟨field, -, rfl⟩ := List.mem_map.mp isMember
    refine ⟨trivial, ?_⟩
    rw [fieldMember, All]
    exact isDecimal_toDigits _
  simp [packetMembers, AllMembers, All, fields]

theorem packetValue_hasDecimals
    (pkt : BuiltPacket) :
    (packetValue pkt).HasDecimals := by
  rw [packetValue, HasDecimals, All]
  exact packetMembers_hasDecimals pkt

theorem chainValue_hasDecimals
    (chain : List Layer) :
    (chainValue chain).HasDecimals := by
  rw [chainValue, HasDecimals, All, allItems_iff]
  intro item isItem
  obtain ⟨layer, -, rfl⟩ := List.mem_map.mp isItem
  simp [layerValue, All, AllMembers, packetMembers_hasDecimals]

theorem stackedValue_hasDecimals
    (pkt : StackedPacket) :
    (stackedValue pkt).HasDecimals := by
  have layers := chainValue_hasDecimals pkt.layers
  rw [HasDecimals] at layers
  simp [stackedValue, HasDecimals, All, AllMembers, layers]

end Values

section Names

open Json

/-- The names that a packet is printed with. -/
def packetNames
    (pkt : BuiltPacket) : List String :=
  pkt.fields.map Prod.fst

/-- The names that a chain is printed with. -/
def chainNames
    (chain : List Layer) : List String :=
  chain.flatMap fun layer => layer.1 :: packetNames layer.2

/-- The names that a stacked packet is printed with. -/
def stackedNames
    (pkt : StackedPacket) : List String :=
  chainNames pkt.layers

/-- A property of the texts that the printer adds to the names. -/
structure HoldsOfKeys
    (property : List Char → Prop) : Prop where
  fields : property "fields".toList
  hex : property "hex".toList
  iface : property "iface".toList
  layers : property "layers".toList
  digits : ∀ bytes, property (toHex bytes).toList

variable {property : List Char → Prop}

private theorem packetMembers_texts_iff
    (keys : HoldsOfKeys property)
    (pkt : BuiltPacket) :
    AllMembers property (fun _ => True) (packetMembers pkt) ↔
      ∀ name ∈ packetNames pkt, property name.toList := by
  have fields :
      AllMembers property (fun _ => True) (pkt.fields.map fieldMember) ↔
        ∀ name ∈ packetNames pkt, property name.toList := by
    rw [allMembers_iff, packetNames, List.forall_mem_map,
      List.forall_mem_map]
    refine forall₂_congr fun field _ => ?_
    rw [fieldMember, All]
    exact and_iff_left trivial
  rw [← fields]
  simp only [packetMembers, AllMembers, All, keys.fields, keys.hex,
    keys.digits, true_and, and_true]

private theorem packetValue_texts_iff
    (keys : HoldsOfKeys property)
    (pkt : BuiltPacket) :
    (packetValue pkt).HasTexts property ↔
      ∀ name ∈ packetNames pkt, property name.toList := by
  rw [packetValue, HasTexts, All]
  exact packetMembers_texts_iff keys pkt

private theorem chainValue_texts_iff
    (keys : HoldsOfKeys property)
    (chain : List Layer) :
    (chainValue chain).HasTexts property ↔
      ∀ name ∈ chainNames chain, property name.toList := by
  rw [chainValue, HasTexts, All, allItems_iff, chainNames,
    List.forall_mem_map, List.forall_mem_flatMap]
  refine forall₂_congr fun layer _ => ?_
  have members := packetMembers_texts_iff keys layer.2
  simp only [layerValue, All, AllMembers, keys.iface, members, true_and,
    List.forall_mem_cons]

private theorem stackedValue_texts_iff
    (keys : HoldsOfKeys property)
    (pkt : StackedPacket) :
    (stackedValue pkt).HasTexts property ↔
      ∀ name ∈ stackedNames pkt, property name.toList := by
  have layers := chainValue_texts_iff keys pkt.layers
  rw [HasTexts] at layers
  simp only [stackedValue, stackedNames, HasTexts, All, AllMembers, keys.hex,
    keys.digits, keys.layers, layers, true_and, and_true]

/-- Every digit is visible and plain. -/
private theorem mem_hexChars_of_mem_toHex
    {bytes : List UInt8}
    {letter : Char}
    (member : letter ∈ (toHex bytes).toList) :
    letter ∈ hexChars := by
  rw [toHex, String.toList_ofList, List.mem_flatMap] at member
  obtain ⟨byte, -, inPair⟩ := member
  obtain ⟨first, second, pair, ⟨firstDigit, -⟩, secondDigit, -⟩ :=
    exists_digits_of_hexPair byte
  rw [pair] at inPair
  simp only [List.mem_cons, List.not_mem_nil, or_false] at inPair
  rcases inPair with rfl | rfl
  · exact mem_hexChars firstDigit
  · exact mem_hexChars secondDigit

private theorem plainText_keys : HoldsOfKeys PlainText where
  fields := by decide
  hex := by decide
  iface := by decide
  layers := by decide
  digits := by
    have plain : PlainText hexChars := by
      decide
    intro bytes letter member
    exact plain letter (mem_hexChars_of_mem_toHex member)

private theorem isUtf8_keys : HoldsOfKeys Utf8.IsUtf8 where
  fields := Utf8.isUtf8_of_asciiText (by decide)
  hex := Utf8.isUtf8_of_asciiText (by decide)
  iface := Utf8.isUtf8_of_asciiText (by decide)
  layers := Utf8.isUtf8_of_asciiText (by decide)
  digits := by
    have ascii : Utf8.AsciiText hexChars := by
      decide
    intro bytes
    apply Utf8.isUtf8_of_asciiText
    intro letter member
    exact ascii letter (mem_hexChars_of_mem_toHex member)

/-- A name that may stand in a JSON string as it is. -/
structure IsJsonName
    (name : String) : Prop where
  plain : PlainText name.toList
  utf8 : Utf8.IsUtf8 name.toList

/-- A line is one JSON text, and a reader recovers the value from it. -/
structure HoldsValue
    (line : String)
    (value : Json) : Prop where
  oneLine : '\n' ∉ line.toList
  utf8 : Utf8.IsUtf8 line.toList
  readBack : Json.read line.toList = some value

/-- A printed value is recovered exactly if its names may stand as they are. -/
private theorem holdsValue_iff
    {line : String}
    {value : Json}
    {names : List String}
    (printed : line.toList = print value)
    (decimals : value.HasDecimals)
    (texts :
      ∀ {property : List Char → Prop}, HoldsOfKeys property →
        (value.HasTexts property ↔
          ∀ name ∈ names, property name.toList)) :
    HoldsValue line value ↔ ∀ name ∈ names, IsJsonName name := by
  constructor
  · intro holds
    have plain := holds.readBack
    have utf8 := holds.utf8
    rw [printed, read_print_iff value decimals, texts plainText_keys] at plain
    rw [printed, isUtf8_print_iff value decimals, texts isUtf8_keys] at utf8
    exact fun name member => ⟨plain name member, utf8 name member⟩
  · intro named
    have plain :=
      (texts plainText_keys).mpr fun name member => (named name member).plain
    have utf8 :=
      (texts isUtf8_keys).mpr fun name member => (named name member).utf8
    have visible := isVisible_print value decimals plain
    refine ⟨?_, ?_, ?_⟩
    · rw [printed]
      intro newline
      cases visible '\n' newline
    · rw [printed]
      exact (isUtf8_print_iff value decimals).mpr utf8
    · rw [printed]
      exact (read_print_iff value decimals).mpr plain

end Names

section Faithful

variable {α : Type}

/-- Two things are printed as JSON lines that hold their data and tell them. -/
structure JsonFaithful
    (toJson : α → String)
    (valueOf : α → Json)
    (first second : α) : Prop where
  firstHolds : HoldsValue (toJson first) (valueOf first)
  secondHolds : HoldsValue (toJson second) (valueOf second)
  distinct : toJson first = toJson second → first = second

/-- Lines that hold their values tell them. -/
private theorem jsonFaithful_iff
    {toJson : α → String}
    {valueOf : α → Json}
    {names : α → List String}
    (injective : Function.Injective valueOf)
    (holds :
      ∀ thing,
        HoldsValue (toJson thing) (valueOf thing) ↔
          ∀ name ∈ names thing, IsJsonName name)
    (first second : α) :
    JsonFaithful toJson valueOf first second ↔
      ∀ name ∈ names first ++ names second, IsJsonName name := by
  rw [List.forall_mem_append, ← holds first, ← holds second]
  constructor
  · intro faithful
    exact ⟨faithful.firstHolds, faithful.secondHolds⟩
  · rintro ⟨firstHolds, secondHolds⟩
    refine ⟨firstHolds, secondHolds, ?_⟩
    intro sameLine
    have sameValue := secondHolds.readBack
    rw [← sameLine, firstHolds.readBack] at sameValue
    exact injective (Option.some.inj sameValue)

/--
Packets, chains and stacked packets are printed as JSON lines that a reader
recovers them from exactly if every name is UTF-8 without quotes, backslashes
and control characters.
-/
theorem json_faithful_iff
    (packet otherPacket : BuiltPacket)
    (chain otherChain : List Layer)
    (stacked otherStacked : StackedPacket) :
    (JsonFaithful toJsonPacket packetValue packet otherPacket ↔
      ∀ name ∈ packetNames packet ++ packetNames otherPacket,
        IsJsonName name) ∧
    (JsonFaithful toJsonChain chainValue chain otherChain ↔
      ∀ name ∈ chainNames chain ++ chainNames otherChain,
        IsJsonName name) ∧
    (JsonFaithful toJsonStacked stackedValue stacked otherStacked ↔
      ∀ name ∈ stackedNames stacked ++ stackedNames otherStacked,
        IsJsonName name) := by
  refine ⟨?_, ?_, ?_⟩
  · apply jsonFaithful_iff packetValue_injective
    intro pkt
    exact holdsValue_iff (toJsonPacket_toList pkt)
      (packetValue_hasDecimals pkt) fun keys => packetValue_texts_iff keys pkt
  · apply jsonFaithful_iff chainValue_injective
    intro layers
    exact holdsValue_iff (toJsonChain_toList layers)
      (chainValue_hasDecimals layers) fun keys =>
        chainValue_texts_iff keys layers
  · apply jsonFaithful_iff stackedValue_injective
    intro pkt
    exact holdsValue_iff (toJsonStacked_toList pkt)
      (stackedValue_hasDecimals pkt) fun keys =>
        stackedValue_texts_iff keys pkt

/-- A name with quotes prints a packet as another one with two fields. -/
theorem quoted_name_misread :
    ¬ ∀ first second : BuiltPacket,
      JsonFaithful toJsonPacket packetValue first second := by
  intro always
  have faithful := always
    { bytes := [2], fields := [("a", 0), ("b", 2)] }
    { bytes := [2], fields := [("a\":0,\"b", 2)] }
  exact absurd (faithful.distinct (by decide)) (by decide)

end Faithful

end Session

end TsnGen
