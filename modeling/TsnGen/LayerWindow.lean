import TsnGen.FrameBits

namespace TsnGen

open BitBuffer PacketBuilder

/-!
# The window of a layer

A layer occupies the declared bits of its interface, padded to whole bytes.
The builders reach this length exactly where the signed loop counter counts
every field.  Re-encoding a decoded window clears what no field value carries,
and nothing else.
-/

/-- Widths above `2^31` are not visited at all. -/
theorem loopCount_eq_zero
    {numBits : UInt32}
    (wide : 2 ^ 31 < numBits.toNat) :
    loopCount numBits = 0 := by
  have bounded := numBits.toNat_lt
  rw [loopCount, loopStart_eq, if_neg (not_le.mpr wide)]
  omega

/-- Bits that the loops visit for a list of named widths. -/
def visitedBits
    (shape : List (String × UInt32)) : Nat :=
  (shape.map fun entry => loopCount entry.2).sum

/-- Narrow widths are visited bit by bit. -/
theorem visitedBits_of_narrow
    {shape : List (String × UInt32)}
    (narrow : ∀ entry ∈ shape, entry.2.toNat ≤ 2 ^ 31) :
    visitedBits shape = PacketDecoder.shapeBits shape := by
  have same :
      shape.map (fun entry => loopCount entry.2) =
        shape.map fun entry => entry.2.toNat := by
    refine List.map_congr_left fun entry member => ?_
    exact loopCount_eq_toNat_of_le (narrow entry member)
  rw [visitedBits, same, PacketDecoder.shapeBits]

theorem loopCount_le
    (numBits : UInt32) :
    loopCount numBits ≤ numBits.toNat := by
  by_cases narrow : numBits.toNat ≤ 2 ^ 31
  · rw [loopCount_eq_toNat_of_le narrow]
  · rw [loopCount_eq_zero (not_le.mp narrow)]
    exact Nat.zero_le _

/-- The loops never visit more than is declared. -/
theorem visitedBits_le
    (shape : List (String × UInt32)) :
    visitedBits shape ≤ PacketDecoder.shapeBits shape := by
  induction shape with
  | nil =>
      rfl
  | cons first rest inductionHypothesis =>
      have visited := loopCount_le first.2
      simp only [visitedBits, PacketDecoder.shapeBits] at inductionHypothesis
      simp only [visitedBits, PacketDecoder.shapeBits, List.map_cons,
        List.sum_cons]
      omega

/-- A width that is not narrow leaves all of its bits out. -/
theorem visitedBits_of_wide
    {shape : List (String × UInt32)}
    {entry : String × UInt32}
    (member : entry ∈ shape)
    (wide : 2 ^ 31 < entry.2.toNat) :
    visitedBits shape + 2 ^ 31 ≤ PacketDecoder.shapeBits shape := by
  induction shape with
  | nil =>
      simp at member
  | cons first rest inductionHypothesis =>
      have restVisited := visitedBits_le rest
      have firstVisited := loopCount_le first.2
      simp only [visitedBits, PacketDecoder.shapeBits]
        at inductionHypothesis restVisited
      simp only [visitedBits, PacketDecoder.shapeBits, List.map_cons,
        List.sum_cons]
      rcases List.mem_cons.mp member with rfl | inRest
      · rw [loopCount_eq_zero wide]
        omega
      · have later := inductionHypothesis inRest
        omega

/--
Padded to bytes, the visited bits are the declared ones if all are narrow.
-/
theorem visitedBytes_eq_iff
    (shape : List (String × UInt32)) :
    (visitedBits shape + 7) / 8 =
        (PacketDecoder.shapeBits shape + 7) / 8 ↔
      ∀ entry ∈ shape, entry.2.toNat ≤ 2 ^ 31 := by
  constructor
  · intro same entry member
    by_contra wide
    have fewer := visitedBits_of_wide member (not_le.mp wide)
    omega
  · intro narrow
    rw [visitedBits_of_narrow narrow]

/-- Every reference of a layer resolves to a width up to `2^31`, if at all. -/
def NarrowLayer
    (iface : ProtocolInterface)
    (varDb : Database Var) : Prop :=
  ∀ ref ∈ iface.varRefs, ∀ var,
    varDb.getElement ref = some var → var.size.toNat ≤ 2 ^ 31

/-- A layer is narrow if its wire fields are. -/
theorem narrowLayer_iff
    {iface : ProtocolInterface}
    {varDb : Database Var} :
    NarrowLayer iface varDb ↔
      ∀ entry ∈ PacketDecoder.declaredShape varDb iface.varRefs,
        entry.2.toNat ≤ 2 ^ 31 := by
  constructor
  · intro narrow entry member
    obtain ⟨⟨name, var⟩, wireField, rfl⟩ := List.mem_map.mp member
    obtain ⟨ref, refMember, -, resolved, -⟩ := mem_layout_iff.mp wireField
    exact narrow ref refMember var resolved
  · intro narrow ref refMember var resolved
    by_cases empty : var.size = 0
    · rw [empty]
      decide
    · have wireField : (shortName ref, var) ∈ layout varDb iface.varRefs :=
        mem_layout_iff.mpr ⟨ref, refMember, rfl, resolved, empty⟩
      exact narrow (shortName ref, var.size)
        (List.mem_map.mpr ⟨_, wireField, rfl⟩)

/-- Whatever is chosen, the built bytes are the visited bits, padded. -/
theorem length_buildLoop
    (choose : String → Var → G → UInt64 × G)
    (varDb : Database Var)
    (refs : List String)
    (engine : G) :
    (buildLoop choose varDb refs engine).1.bytes.length =
      (visitedBits (PacketDecoder.declaredShape varDb refs) + 7) / 8 := by
  rw [buildLoop_eq, length_packFields_eq, shapeOf_drawFields]
  rfl

/--
Either builder reaches the declared length of a layer exactly where no width of
the layer is above `2^31`.
-/
theorem built_length_eq_declared_iff
    (rng : Rng G)
    (iface : ProtocolInterface)
    (varDb : Database Var)
    (overrides : Overrides)
    (engine : G) :
    ((buildWithFields rng iface varDb engine).1.bytes.length =
          PacketDecoder.layerBytes iface varDb ↔
        NarrowLayer iface varDb) ∧
      ((buildWithOverrides rng iface varDb overrides engine).1.bytes.length =
          PacketDecoder.layerBytes iface varDb ↔
        NarrowLayer iface varDb) := by
  rw [buildWithFields, buildWithOverrides, length_buildLoop,
    length_buildLoop, PacketDecoder.layerBytes_eq, visitedBytes_eq_iff,
    narrowLayer_iff]
  exact ⟨Iff.rfl, Iff.rfl⟩

/-- An interface with one variable. -/
def soleInterface : ProtocolInterface where
  name := "svc::mac::tx"
  direction := .OUT
  varRefs := ["svc::x"]

/-- A variable database with one entry of a given width. -/
def soleVarDb
    (size : UInt32) : Database Var :=
  (Database.empty.addUniqueElement "svc::x"
    { name := "svc::x"
      size := size
      expectedValues := []
      range := none
      mask := 0 }).2

/-- A field of three billion bits is declared but not built. -/
theorem wide_field_not_built :
    ¬ ∀ (iface : ProtocolInterface) (varDb : Database Var)
        (overrides : Overrides) (rng : Rng Unit),
      (buildWithFields rng iface varDb ()).1.bytes.length =
          PacketDecoder.layerBytes iface varDb ∧
        (buildWithOverrides rng iface varDb overrides ()).1.bytes.length =
          PacketDecoder.layerBytes iface varDb := by
  intro always
  have built := (always soleInterface (soleVarDb 3000000000) (fun _ => none)
    (Rng.constant 0)).1
  have empty :
      (buildWithFields (Rng.constant 0) soleInterface
        (soleVarDb 3000000000) ()).1.bytes.length = 0 :=
    rfl
  have declared :
      PacketDecoder.layerBytes soleInterface (soleVarDb 3000000000) =
        375000000 := by
    rfl
  rw [empty, declared] at built
  cases built

/-- Put decoded values back at the widths they were declared with. -/
def withWidths
    (shape : List (String × UInt32))
    (values : List (String × UInt64)) : List Field :=
  List.zipWith
    (fun entry value =>
      { name := value.1, value := value.2, bits := entry.2 })
    shape values

/--
Which bits of a layer a decoded value carries: of each field the low 64, of
the padding none.
-/
def keptBits
    (shape : List (String × UInt32)) : List Bool :=
  shape.flatMap fun entry =>
    List.replicate (entry.2.toNat - 64) false ++
      List.replicate (min entry.2.toNat 64) true

/-- Every declared bit is either kept or cleared. -/
theorem length_keptBits
    (shape : List (String × UInt32)) :
    (keptBits shape).length = PacketDecoder.shapeBits shape := by
  induction shape with
  | nil =>
      rfl
  | cons entry rest inductionHypothesis =>
      simp only [keptBits, PacketDecoder.shapeBits] at inductionHypothesis
      simp only [keptBits, PacketDecoder.shapeBits, List.flatMap_cons,
        List.length_append, List.length_replicate, inductionHypothesis,
        List.map_cons, List.sum_cons]
      omega

/-- Values read from a buffer go back to the shape they were read with. -/
theorem shapeOf_withWidths_readFields
    (bytes : List UInt8)
    (shape : List (String × UInt32))
    (bitOffset : Nat) :
    shapeOf (withWidths shape
        (PacketDecoder.readFields bytes shape bitOffset)) = shape := by
  induction shape generalizing bitOffset with
  | nil =>
      rfl
  | cons entry rest inductionHypothesis =>
      have later :=
        inductionHypothesis
          (PacketDecoder.extractBits bytes bitOffset entry.2).2
      simp only [withWidths, shapeOf] at later
      simp only [PacketDecoder.readFields, withWidths, shapeOf,
        List.zipWith_cons_cons, List.map_cons, later]

/-- One field on the wire is what was read, less what 64 bits do not hold. -/
theorem getElem?_msbBits_extractBits
    (bytes : List UInt8)
    (bitOffset : Nat)
    {bits : UInt32}
    (narrow : bits.toNat < 2 ^ 31)
    {position : Nat}
    (inside : position < bits.toNat) :
    (msbBits (PacketDecoder.extractBits bytes bitOffset bits).1.toNat
        bits.toNat)[position]?.getD false =
      (getBit bytes (bitOffset + position) &&
        (List.replicate (bits.toNat - 64) false ++
          List.replicate (min bits.toNat 64) true)[position]?.getD
            false) := by
  have sameBit :
      bits.toNat - 1 - (bits.toNat - 1 - position) = position := by
    omega
  rw [getElem?_msbBits, PacketDecoder.testBit_extractBits,
    loopCount_eq_toNat narrow, sameBit]
  by_cases high : position < bits.toNat - 64
  · have notCarried : ¬ bits.toNat - 1 - position < 64 := by
      omega
    rw [List.getElem?_append_left (by simpa using high)]
    simp [high, notCarried]
  · have carriedBit : bits.toNat - 1 - position < 64 := by
      omega
    have visited : bits.toNat - 1 - position < bits.toNat := by
      omega
    have low : position - (bits.toNat - 64) < min bits.toNat 64 := by
      omega
    rw [List.getElem?_append_right (by simpa using high)]
    simp only [List.length_replicate, List.getElem?_replicate, low,
      carriedBit, visited, inside, and_self, decide_true, Bool.true_and,
      if_true, Option.getD_some, Bool.and_true]

/-- The wire bits of a re-packed read are the kept bits of the buffer. -/
theorem getElem?_wireBits_readFields
    (bytes : List UInt8)
    {shape : List (String × UInt32)}
    (narrow : ∀ entry ∈ shape, entry.2.toNat < 2 ^ 31)
    (bitOffset position : Nat) :
    (wireBits (withWidths shape
        (PacketDecoder.readFields bytes shape bitOffset)))[position]?.getD
          false =
      (getBit bytes (bitOffset + position) &&
        (keptBits shape)[position]?.getD false) := by
  induction shape generalizing bitOffset position with
  | nil =>
      simp [withWidths, PacketDecoder.readFields, wireBits, keptBits]
  | cons entry rest inductionHypothesis =>
      have entryNarrow := narrow entry List.mem_cons_self
      have counted := loopCount_eq_toNat entryNarrow
      have later :=
        inductionHypothesis
          (fun other member => narrow other (List.mem_cons_of_mem _ member))
          (bitOffset + entry.2.toNat) (position - entry.2.toNat)
      have headKept :
          (List.replicate (entry.2.toNat - 64) false ++
            List.replicate (min entry.2.toNat 64) true).length =
              entry.2.toNat := by
        simp only [List.length_append, List.length_replicate]
        omega
      simp only [PacketDecoder.readFields, withWidths,
        List.zipWith_cons_cons, wireBits, keptBits, List.flatMap_cons,
        PacketDecoder.extractBits_offset, counted]
      simp only [withWidths, wireBits, keptBits] at later
      by_cases inHead : position < entry.2.toNat
      · rw [List.getElem?_append_left (by simpa using inHead),
          List.getElem?_append_left (by omega)]
        exact getElem?_msbBits_extractBits bytes bitOffset entryNarrow inHead
      · have sameBit :
            bitOffset + entry.2.toNat + (position - entry.2.toNat) =
              bitOffset + position := by
          omega
        rw [List.getElem?_append_right (by simpa using inHead),
          List.getElem?_append_right (by omega), headKept, length_msbBits,
          later, sameBit]

/--
Packing what was decoded, each value at its own width, gives the window of the
layer back: as many bytes, and every bit as received, but for the padding and
for the bits above the low 64 of a field, which are cleared.
-/
theorem repack_decoded
    (iface : ProtocolInterface)
    {varDb : Database Var}
    (narrow : NarrowWidths varDb)
    (bytes : List UInt8)
    (byteOffset : Nat)
    (whole :
      byteOffset + PacketDecoder.layerBytes iface varDb ≤ bytes.length) :
    let shape := PacketDecoder.declaredShape varDb iface.varRefs
    let window :=
      (bytes.drop byteOffset).take (PacketDecoder.layerBytes iface varDb)
    let repacked :=
      packFields (withWidths shape
        (PacketDecoder.decode iface varDb bytes byteOffset).fields)
    repacked.length = window.length ∧
      window.length = PacketDecoder.layerBytes iface varDb ∧
        ∀ position,
          getBit repacked position =
            (getBit window position &&
              (keptBits shape)[position]?.getD false) := by
  intro shape window repacked
  have narrowShape : ∀ entry ∈ shape, entry.2.toNat < 2 ^ 31 :=
    fun entry member => narrow.declaredShape member
  have windowLength :
      window.length = PacketDecoder.layerBytes iface varDb := by
    simp only [window, List.length_take, List.length_drop]
    omega
  have sameShape :
      shapeOf (withWidths shape
        (PacketDecoder.decode iface varDb bytes byteOffset).fields) =
          shape := by
    rw [PacketDecoder.decode_fields]
    exact shapeOf_withWidths_readFields bytes shape (byteOffset * 8)
  refine ⟨?_, windowLength, ?_⟩
  · rw [windowLength]
    exact length_packFields narrow sameShape
  · intro position
    have kept : (keptBits shape).length ≤
        8 * PacketDecoder.layerBytes iface varDb := by
      simp only [shape, length_keptBits, PacketDecoder.layerBytes_eq]
      omega
    rw [(packFields_represents _).getBit_eq, PacketDecoder.decode_fields,
      getElem?_wireBits_readFields bytes narrowShape, getBit_slice,
      Nat.mul_comm byteOffset 8]
    by_cases inside :
        position < 8 * PacketDecoder.layerBytes iface varDb
    · simp [inside]
    · have outside : (keptBits shape).length ≤ position := by
        omega
      simp [List.getElem?_eq_none outside]

theorem repack_decoded_unaligned :
    NarrowWidths unalignedVarDb ∧
      (packFields (withWidths
        (PacketDecoder.declaredShape unalignedVarDb
          unalignedInterface.varRefs)
        (PacketDecoder.decode unalignedInterface unalignedVarDb
          (List.replicate 12 255) 1).fields)).length = 10 := by
  have whole :
      1 + PacketDecoder.layerBytes unalignedInterface unalignedVarDb ≤
        (List.replicate 12 (255 : UInt8)).length := by
    decide
  obtain ⟨sameLength, windowLength, -⟩ :=
    repack_decoded unalignedInterface (by decide : NarrowWidths _)
      (List.replicate 12 255) 1 whole
  exact ⟨by decide, sameLength.trans windowLength⟩

end TsnGen
