import Mathlib.Data.List.Infix
import TsnGen.DeclaredElements
import TsnGen.ProtocolSchema

namespace TsnGen

/-!
# Accepted documents in the loader

What an accepted document says, read off the tree without the loader, and what
the loader stores for it.  The two agree unless the service name looks like a
number, a `var_ref` is no scalar, or a constraint literal is negative: a minus
sign behind blanks passes the validator, and the loader then stores the value
modulo `2^64`.
-/

namespace Written

/-- The integer that a scalar says. -/
def number?
    (node : Yaml) : Option Int :=
  node.text?.bind Numeral.paddedLiteral?

/-- The constraints of a `vars` entry; an absent map constrains nothing. -/
def constraints
    (entry : Yaml) : Yaml :=
  (entry.child? "expected").getD (.map [])

/-- A variable as a document writes it. -/
structure Declaration where
  name : String
  size : Option Int
  values : List (Option Int)
  range : List (Option Int)
  mask : Option Int
  deriving Repr, DecidableEq

/-- The variable that a `vars` entry writes. -/
def varOf
    (serviceName : String)
    (entry : Yaml) : Declaration where
  name := serviceName ++ "::" ++ entry.textOf "var"
  size := (entry.child? "size").bind number?
  values :=
    ((constraints entry).listed "values" ++
      ((constraints entry).child? "value").toList).map number?
  range := ((constraints entry).listed "range").map number?
  mask :=
    match (constraints entry).listed "mask" with
    | [] => some 0
    | first :: _ => number? first

/-- A stored variable, in the words of a document. -/
def ofVar
    (var : Var) : Declaration where
  name := var.name
  size := some var.size.toNat
  values := var.expectedValues.map fun value => some (value.toNat : Int)
  range :=
    match var.range with
    | none => []
    | some range => [some (range.min.toNat : Int), some (range.max.toNat : Int)]
  mask := some var.mask.toNat

/-- A reference is qualified with the service unless it contains `::`. -/
def qualified
    (serviceName ref : String) : String :=
  if "::".toList <:+: ref.toList then
    ref
  else
    serviceName ++ "::" ++ ref

/-- The interface that an entry of `interfaces` writes. -/
def interfaceOf
    (serviceName entityName : String)
    (entry : Yaml) : ProtocolInterface where
  name := serviceName ++ "::" ++ entityName ++ "::" ++ entry.textOf "interface"
  direction := if entry.textOf "dir" = "out" then .OUT else .IN
  varRefs :=
    (entry.listed "vars").map fun ref =>
      qualified serviceName (ref.textOf "var_ref")

/-- The variables that a document writes. -/
def vars
    (root : Yaml) : List Declaration :=
  (root.listed "vars").map (varOf (root.textOf "service"))

/-- The interfaces that an entry of `entities` writes. -/
def entityInterfaces
    (serviceName : String)
    (entity : Yaml) : List ProtocolInterface :=
  (entity.listed "interfaces").map
    (interfaceOf serviceName (entity.textOf "entity"))

/-- The interfaces that a document writes. -/
def interfaces
    (root : Yaml) : List ProtocolInterface :=
  (root.listed "entities").flatMap (entityInterfaces (root.textOf "service"))

/-- The service that a document writes. -/
def service
    (root : Yaml) : ProtocolService where
  name := root.textOf "service"
  logicName := root.textOf "logic"

/-- No two variables and no two interfaces of a document share a name. -/
structure DistinctKeys
    (root : Yaml) : Prop where
  vars : ((vars root).map Declaration.name).Nodup
  interfaces : ((interfaces root).map ProtocolInterface.name).Nodup

/-- A session holds all that a document writes. -/
structure HeldBy
    (root : Yaml)
    (session : Session) : Prop where
  service :
    session.serviceDb.getElement (service root).name = some (service root)
  vars :
    ∀ written ∈ vars root,
      (session.varDb.getElement written.name).map ofVar = some written
  interfaces :
    ∀ written ∈ interfaces root,
      session.interfaceDb.getElement written.name = some written

/-- No constraint literal of a `vars` entry is negative. -/
def NonNegative
    (entry : Yaml) : Prop :=
  ∀ literal ∈ ProtocolSchema.literals (constraints entry),
    ∀ value, number? literal = some value → 0 ≤ value

/-- A `var_ref` entry that refers to a scalar. -/
def ScalarRef
    (ref : Yaml) : Prop :=
  ∃ text, (ref.child? "var_ref").bind Yaml.text? = some text

/-- What the validator leaves to the author of a document. -/
structure Loadable
    (isNumber : String → Bool)
    (root : Yaml) : Prop where
  service : isNumber (root.textOf "service") = false
  vars : ∀ entry ∈ root.listed "vars", NonNegative entry
  refs :
    ∀ entity ∈ root.listed "entities",
      ∀ iface ∈ entity.listed "interfaces",
        ∀ ref ∈ iface.listed "vars", ScalarRef ref

/-- A `vars` entry that the loader can read. -/
structure ReadableVar
    (entry : Yaml) : Prop where
  named : (entry.child? "var").bind Yaml.text? = some (entry.textOf "var")
  sized :
    ∃ node bits,
      entry.child? "size" = some node ∧ number? node = some bits ∧
        1 ≤ bits ∧ bits ≤ 4096
  literals :
    ∀ literal ∈ ProtocolSchema.literals (constraints entry),
      (number? literal).isSome
  range :
    (constraints entry).listed "range" = [] ∨
      ∃ low high, (constraints entry).listed "range" = [low, high]
  mask :
    (constraints entry).listed "mask" = [] ∨
      ∃ bits, (constraints entry).listed "mask" = [bits]

/-- An `interfaces` entry that the loader can read, up to its references. -/
structure ReadableInterface
    (entry : Yaml) : Prop where
  named :
    (entry.child? "interface").bind Yaml.text? =
      some (entry.textOf "interface")
  directed : (entry.child? "dir").bind Yaml.text? = some (entry.textOf "dir")
  refs :
    ∀ node, entry.child? "vars" = some node →
      node = .seq (entry.listed "vars") ∧
        ∀ ref ∈ entry.listed "vars", ref.hasChild "var_ref" = true

end Written

namespace ProtocolValidator

open Schema Written

/-- A required scalar is the text read under its key. -/
theorem textOf_of_conforms
    {reading : String → Option Int}
    {minLength : Nat}
    {enum : Option (List String)}
    {node : Yaml}
    {key : String}
    (present : node.hasChild key = true)
    (conforming :
      ∀ child, node.child? key = some child →
        conforms reading (.string minLength enum) child = true) :
    (node.child? key).bind Yaml.text? = some (node.textOf key) := by
  obtain ⟨child, isChild⟩ := Option.isSome_iff_exists.mp present
  obtain ⟨text, scalar, -⟩ :=
    conforms_string_iff.mp (conforming child isChild)
  simp [Yaml.textOf, isChild, scalar]

/-- Integers of the validator are written numbers. -/
theorem number?_isSome_of_conforms
    {minimum maximum : Option Int}
    {node : Yaml}
    (conforming :
      conforms Numeral.paddedLiteral? (.integer minimum maximum) node =
        true) :
    (number? node).isSome := by
  obtain ⟨text, value, scalar, read, -⟩ :=
    conforms_integer_iff.mp conforming
  simp [number?, scalar, read]

/-- Items of an accepted list of integers are written numbers. -/
theorem number?_isSome_of_listed
    {node : Yaml}
    {key : String}
    {minItems : Nat}
    {maxItems : Option Nat}
    (conforming :
      ∀ child, node.child? key = some child →
        conforms Numeral.paddedLiteral?
          (.array minItems maxItems (.integer none none)) child = true) :
    ∀ item ∈ node.listed key, (number? item).isSome := by
  intro item member
  exact number?_isSome_of_conforms (conforms_of_mem_listed conforming member)

/-- A list of bounded size is absent or has an allowed number of items. -/
theorem listed_of_conforms
    {reading : String → Option Int}
    {node : Yaml}
    {key : String}
    {size : Nat}
    {item : Schema}
    (conforming :
      ∀ child, node.child? key = some child →
        conforms reading (.array size (some size) item) child = true) :
    node.listed key = [] ∨ (node.listed key).length = size := by
  unfold Yaml.listed
  split
  next items isSeq =>
    obtain ⟨nodes, same, atLeast, atMost, -⟩ :=
      conforms_array_iff.mp (conforming _ isSeq)
    cases same
    exact Or.inr (Nat.le_antisymm (atMost size rfl) atLeast)
  next =>
    exact Or.inl rfl

/-- Constraints that the schema allows are literals, bounds and a mask. -/
theorem readable_of_conforms_expected
    {expected : Yaml}
    (conforming :
      conforms Numeral.paddedLiteral?
        (ProtocolSchema.expected 0 (.integer none none)) expected = true) :
    (∀ literal ∈ ProtocolSchema.literals expected,
        (number? literal).isSome) ∧
      (expected.listed "range" = [] ∨
          ∃ low high, expected.listed "range" = [low, high]) ∧
        (expected.listed "mask" = [] ∨
          ∃ bits, expected.listed "mask" = [bits]) := by
  rw [ProtocolSchema.expected, conforms_object_iff] at conforming
  obtain ⟨-, -, -, -, -, properties⟩ := conforming
  simp only [List.forall_mem_cons] at properties
  obtain ⟨value, values, range, mask, -⟩ := properties
  refine ⟨?_, ?_, ?_⟩
  · intro literal member
    simp only [ProtocolSchema.literals, List.mem_append,
      Option.mem_toList] at member
    rcases member with ((isValue | inValues) | inRange) | inMask
    · exact number?_isSome_of_conforms (value literal isValue)
    · exact number?_isSome_of_listed values literal inValues
    · exact number?_isSome_of_listed range literal inRange
    · exact number?_isSome_of_listed mask literal inMask
  · exact (listed_of_conforms range).imp_right List.length_eq_two.mp
  · exact (listed_of_conforms mask).imp_right List.length_eq_one_iff.mp

/-- The loader can read every variable that the validator accepts. -/
theorem readableVar_of_conforms
    {entry : Yaml}
    (conforming :
      conforms Numeral.paddedLiteral?
        (ProtocolSchema.var
          (ProtocolSchema.expected 0 (.integer none none))) entry = true) :
    ReadableVar entry := by
  rw [ProtocolSchema.var, conforms_object_iff] at conforming
  obtain ⟨-, -, required, -, -, properties⟩ := conforming
  simp only [List.forall_mem_cons] at properties
  obtain ⟨name, size, expected, -⟩ := properties
  have constrained :
      (∀ literal ∈ ProtocolSchema.literals (constraints entry),
          (number? literal).isSome) ∧
        ((constraints entry).listed "range" = [] ∨
            ∃ low high, (constraints entry).listed "range" = [low, high]) ∧
          ((constraints entry).listed "mask" = [] ∨
            ∃ bits, (constraints entry).listed "mask" = [bits]) := by
    unfold constraints
    cases present : entry.child? "expected" with
    | none =>
        simp [ProtocolSchema.literals, Yaml.listed, Yaml.child?]
    | some node =>
        exact readable_of_conforms_expected (expected node present)
  refine ⟨textOf_of_conforms (required "var" (by simp)) name, ?_,
    constrained.1, constrained.2.1, constrained.2.2⟩
  obtain ⟨node, isNode⟩ :=
    Option.isSome_iff_exists.mp (required "size" (by simp))
  obtain ⟨text, bits, scalar, read, lower, upper⟩ :=
    conforms_integer_iff.mp (size node isNode)
  refine ⟨node, bits, isNode, ?_, lower 1 rfl, upper 4096 rfl⟩
  simp [number?, scalar, read]

/-- The loader can read every interface that the validator accepts. -/
theorem readableInterface_of_conforms
    {entry : Yaml}
    (conforming :
      conforms Numeral.paddedLiteral?
        (ProtocolSchema.interface
          (ProtocolSchema.varRef .anything)) entry = true) :
    ReadableInterface entry := by
  rw [ProtocolSchema.interface, conforms_object_iff] at conforming
  obtain ⟨-, -, required, -, -, properties⟩ := conforming
  simp only [List.forall_mem_cons] at properties
  obtain ⟨name, dir, vars, -⟩ := properties
  refine ⟨textOf_of_conforms (required "interface" (by simp)) name,
    textOf_of_conforms (required "dir" (by simp)) dir, ?_⟩
  intro node isNode
  obtain ⟨refs, rfl, -, -, conformingRefs⟩ :=
    conforms_array_iff.mp (vars node isNode)
  have isListed : entry.listed "vars" = refs := by
    simp [Yaml.listed, isNode]
  rw [isListed]
  refine ⟨rfl, ?_⟩
  intro ref member
  have conformingRef := conformingRefs ref member
  rw [ProtocolSchema.varRef, conforms_object_iff] at conformingRef
  exact conformingRef.2.2.1 "var_ref" (by simp)

end ProtocolValidator

namespace Protocol

open Written

/-- The number that the loader takes from a scalar. -/
def loadedNumber
    (node : Yaml) : UInt64 :=
  parseU64 (node.text?.getD "") 0

/-- A loaded number is the written one unless that is negative. -/
theorem loadedNumber_eq_iff
    {node : Yaml}
    {value : Int}
    (written : number? node = some value) :
    ((loadedNumber node).toNat : Int) = value ↔ 0 ≤ value := by
  obtain ⟨text, scalar, read⟩ := Option.bind_eq_some_iff.mp written
  obtain ⟨number, converted, modulo⟩ :=
    Numeral.stoull_of_paddedLiteral? read
  have bounded := Numeral.lt_of_paddedLiteral? read
  simp only [loadedNumber, scalar, Option.getD_some, parseU64, converted]
  omega

/-- A loaded number is written so exactly when it is not negative. -/
theorem some_loadedNumber_eq_iff
    {node : Yaml}
    (written : (number? node).isSome) :
    some ((loadedNumber node).toNat : Int) = number? node ↔
      ∀ value, number? node = some value → 0 ≤ value := by
  obtain ⟨value, isValue⟩ := Option.isSome_iff_exists.mp written
  simp [isValue, loadedNumber_eq_iff isValue]

/-- A written number is a scalar. -/
theorem val_of_number?
    {node : Yaml}
    (written : (number? node).isSome) :
    node.val = .ok (node.text?.getD "") := by
  unfold number? at written
  unfold Yaml.val
  cases scalar : node.text? with
  | none =>
      simp [scalar] at written
  | some text =>
      rfl

theorem parseAll_eq
    {nodes : List Yaml}
    (written : ∀ node ∈ nodes, (number? node).isSome) :
    parseAll nodes = .ok (nodes.map loadedNumber) := by
  refine mapM_eq_ok_map ?_
  intro node member
  rw [val_of_number? (written node member)]
  rfl

theorem parseValues_eq
    {expected : Yaml}
    (written : ∀ node ∈ expected.listed "values", (number? node).isSome) :
    parseValues expected =
      .ok ((expected.listed "values").map loadedNumber) := by
  unfold parseValues
  rcases expected.listed_cases "values" with
    ⟨items, isSeq, isListed⟩ | ⟨other, isListed⟩
  · rw [isListed] at written ⊢
    rw [isSeq]
    exact parseAll_eq written
  · rw [isListed]
    split
    next items isSeq =>
      exact absurd isSeq (other items)
    next =>
      rfl

theorem parseValue_eq
    {expected : Yaml}
    (written :
      ∀ node ∈ (expected.child? "value").toList, (number? node).isSome) :
    parseValue expected =
      .ok ((expected.child? "value").toList.map loadedNumber) := by
  unfold parseValue
  cases present : expected.child? "value" with
  | none =>
      rfl
  | some node =>
      rw [present] at written
      exact parseAll_eq written

/-- The bounds that the loader takes from a `range` list. -/
def loadedRange : List Yaml → Option Range
  | [low, high] =>
      some { min := loadedNumber low, max := loadedNumber high }
  | _ => none

theorem parseRange_eq
    {expected : Yaml}
    (written : ∀ node ∈ expected.listed "range", (number? node).isSome) :
    parseRange expected = .ok (loadedRange (expected.listed "range")) := by
  unfold parseRange
  rcases expected.listed_cases "range" with
    ⟨items, isSeq, isListed⟩ | ⟨other, isListed⟩
  · rw [isListed] at written ⊢
    rw [isSeq]
    match items with
    | [] =>
        rfl
    | [low] =>
        rfl
    | [low, high] =>
        dsimp only
        rw [val_of_number? (written low (by simp)),
          val_of_number? (written high (by simp))]
        rfl
    | low :: high :: more :: rest =>
        rfl
  · rw [isListed]
    split
    next low high isSeq =>
      exact absurd isSeq (other [low, high])
    next =>
      rfl

/-- The mask that the loader takes from a `mask` list. -/
def loadedMask : List Yaml → UInt64
  | [] => 0
  | first :: _ => loadedNumber first

theorem parseMask_eq
    {expected : Yaml}
    (written : ∀ node ∈ expected.listed "mask", (number? node).isSome) :
    parseMask expected = .ok (loadedMask (expected.listed "mask")) := by
  unfold parseMask
  rcases expected.listed_cases "mask" with
    ⟨items, isSeq, isListed⟩ | ⟨other, isListed⟩
  · rw [isListed] at written ⊢
    rw [isSeq]
    cases items with
    | nil =>
        rfl
    | cons first rest =>
        dsimp only
        rw [val_of_number? (written first (by simp))]
        rfl
  · rw [isListed]
    split
    next first rest isSeq =>
      exact absurd isSeq (other (first :: rest))
    next =>
      rfl

/-- The constraints that the loader takes from a readable `expected` node. -/
def loadedExpected
    (expected : Yaml) : Expected where
  values :=
    (expected.listed "values" ++
      (expected.child? "value").toList).map loadedNumber
  range := loadedRange (expected.listed "range")
  mask := loadedMask (expected.listed "mask")

theorem parseExpected_eq
    {expected : Yaml}
    (written :
      ∀ node ∈ ProtocolSchema.literals expected, (number? node).isSome) :
    parseExpected expected = .ok (loadedExpected expected) := by
  simp only [ProtocolSchema.literals, List.forall_mem_append] at written
  obtain ⟨⟨⟨value, values⟩, range⟩, mask⟩ := written
  unfold parseExpected
  rw [parseValues_eq values, parseValue_eq value, parseRange_eq range,
    parseMask_eq mask]
  simp [loadedExpected, bind, Except.bind, pure, Except.pure]

/-- The variable that the loader takes from a readable `vars` entry. -/
def loadedVar
    (serviceName : String)
    (entry : Yaml) : Var where
  name := serviceName ++ "::" ++ entry.textOf "var"
  size :=
    (((entry.child? "size").map loadedNumber).getD 0).toUInt32
  expectedValues := (loadedExpected (constraints entry)).values
  range := (loadedExpected (constraints entry)).range
  mask := (loadedExpected (constraints entry)).mask

/-- A readable `vars` entry is loaded. -/
theorem parseVar_eq
    {entry : Yaml}
    (readable : ReadableVar entry)
    (serviceName : String) :
    parseVar serviceName entry = .ok (some (loadedVar serviceName entry)) := by
  obtain ⟨nameNode, isName, nameText⟩ :=
    Option.bind_eq_some_iff.mp readable.named
  obtain ⟨sizeNode, bits, isSize, isBits, -⟩ := readable.sized
  have sized :
      parseSize entry =
        .ok (((entry.child? "size").map loadedNumber).getD 0).toUInt32 := by
    unfold parseSize
    rw [isSize]
    dsimp only
    rw [val_of_number? (by simp [isBits])]
    rfl
  have written := readable.literals
  unfold parseVar loadedVar
  unfold constraints at written ⊢
  rw [isName]
  dsimp only
  rw [Yaml.val, nameText, sized]
  cases present : entry.child? "expected" with
  | none =>
      rfl
  | some node =>
      rw [present, Option.getD_some] at written
      dsimp only
      rw [parseExpected_eq written]
      rfl

/-- Loaded numbers are the written ones when none of them is negative. -/
theorem map_loadedNumber_eq_iff
    {nodes : List Yaml}
    (written : ∀ node ∈ nodes, (number? node).isSome) :
    (nodes.map loadedNumber).map (fun value => some (value.toNat : Int)) =
        nodes.map number? ↔
      ∀ node ∈ nodes, ∀ value, number? node = some value → 0 ≤ value := by
  rw [List.map_map, List.map_inj_left]
  refine forall₂_congr ?_
  intro node member
  exact some_loadedNumber_eq_iff (written node member)

/-- The loaded width is the written one. -/
theorem loadedVar_size
    {entry : Yaml}
    (readable : ReadableVar entry)
    (serviceName : String) :
    some (((loadedVar serviceName entry).size.toNat : Int)) =
      (entry.child? "size").bind number? := by
  obtain ⟨node, bits, isNode, isBits, lower, upper⟩ := readable.sized
  have exact :=
    (loadedNumber_eq_iff isBits).mpr (by omega)
  simp only [loadedVar, isNode, Option.map_some, Option.getD_some,
    Option.bind_some, isBits, Option.some.injEq]
  rw [UInt64.toNat_toUInt32]
  omega

/-- A loaded variable is the written one when no constraint is negative. -/
theorem ofVar_loadedVar_iff
    {entry : Yaml}
    (readable : ReadableVar entry)
    (serviceName : String) :
    ofVar (loadedVar serviceName entry) = varOf serviceName entry ↔
      NonNegative entry := by
  have written := readable.literals
  have sized := loadedVar_size readable serviceName
  simp only [ProtocolSchema.literals, List.forall_mem_append] at written
  obtain ⟨⟨⟨value, values⟩, range⟩, mask⟩ := written
  have sameValues :=
    map_loadedNumber_eq_iff (List.forall_mem_append.mpr ⟨values, value⟩)
  have sameRange :
      (match loadedRange ((constraints entry).listed "range") with
        | none => []
        | some range =>
            [some (range.min.toNat : Int), some (range.max.toNat : Int)]) =
          ((constraints entry).listed "range").map number? ↔
        ∀ node ∈ (constraints entry).listed "range",
          ∀ value, number? node = some value → 0 ≤ value := by
    rw [← map_loadedNumber_eq_iff range]
    rcases readable.range with absent | ⟨low, high, present⟩
    · rw [absent]
      rfl
    · rw [present]
      rfl
  have sameMask :
      some ((loadedMask ((constraints entry).listed "mask")).toNat : Int) =
          (match (constraints entry).listed "mask" with
            | [] => some 0
            | first :: _ => number? first) ↔
        ∀ node ∈ (constraints entry).listed "mask",
          ∀ value, number? node = some value → 0 ≤ value := by
    rcases readable.mask with absent | ⟨bits, present⟩
    · simp [absent, loadedMask]
    · rw [present] at mask
      simpa [present, loadedMask] using
        some_loadedNumber_eq_iff (mask bits (by simp))
  rw [ofVar, varOf, Declaration.mk.injEq]
  simp only [loadedVar, loadedExpected] at sized ⊢
  rw [sameValues, sameRange, sameMask]
  simp only [sized, NonNegative, ProtocolSchema.literals,
    List.forall_mem_append, true_and]
  tauto

theorem flatten_map_singleton
    (change : α → β)
    (items : List α) :
    (items.map fun item => [change item]).flatten = items.map change := by
  rw [← List.flatMap_def, ← List.map_eq_flatMap]

theorem qualifyRef_eq
    (serviceName ref : String) :
    qualifyRef serviceName ref = qualified serviceName ref := by
  unfold qualifyRef qualified
  simp only [rfind?_isSome_iff]

/-- Reading a scalar child yields its text. -/
theorem val_of_textOf
    {node child : Yaml}
    {key : String}
    (scalar : (node.child? key).bind Yaml.text? = some (node.textOf key))
    (isChild : node.child? key = some child) :
    child.val = .ok (node.textOf key) := by
  rw [isChild, Option.bind_some] at scalar
  rw [Yaml.val, scalar]

theorem textOf_of_scalarRef
    {ref : Yaml}
    (scalar : ScalarRef ref) :
    (ref.child? "var_ref").bind Yaml.text? = some (ref.textOf "var_ref") := by
  obtain ⟨text, isText⟩ := scalar
  rw [Yaml.textOf, isText, Option.getD_some]

/-- The references of one entry of a `vars` list, as the loader walks it. -/
def parseVarRef
    (serviceName : String)
    (refItem : Yaml) : Except Abort (List String) :=
  match refItem.child? "var_ref" with
  | none => return []
  | some node => do
      let refVal ← node.val
      return [qualifyRef serviceName refVal]

/-- The loader walks the references of a readable interface one by one. -/
theorem parseVarRefs_eq
    {entry : Yaml}
    (readable : ReadableInterface entry)
    (serviceName : String) :
    parseVarRefs serviceName entry = do
      let refs ← (entry.listed "vars").mapM (parseVarRef serviceName)
      return refs.flatten := by
  unfold parseVarRefs
  cases present : entry.child? "vars" with
  | none =>
      simp [Yaml.listed, present]
  | some node =>
      obtain ⟨isSeq, -⟩ := readable.refs node present
      rw [isSeq]
      rfl

/-- A scalar reference is loaded as written. -/
theorem parseVarRef_eq
    {ref : Yaml}
    (scalar : ScalarRef ref)
    (serviceName : String) :
    parseVarRef serviceName ref =
      .ok [qualified serviceName (ref.textOf "var_ref")] := by
  have text := textOf_of_scalarRef scalar
  obtain ⟨node, isNode, -⟩ := Option.bind_eq_some_iff.mp text
  unfold parseVarRef
  rw [isNode]
  dsimp only
  rw [val_of_textOf text isNode, ← qualifyRef_eq]
  rfl

/-- A reference that is present and can be walked is a scalar. -/
theorem scalarRef_of_parseVarRef
    {ref : Yaml}
    {serviceName : String}
    {result : List String}
    (present : ref.hasChild "var_ref" = true)
    (walked : parseVarRef serviceName ref = .ok result) :
    ScalarRef ref := by
  obtain ⟨node, isNode⟩ := Option.isSome_iff_exists.mp present
  unfold parseVarRef at walked
  rw [isNode] at walked
  obtain ⟨text, isText, -⟩ := bind_eq_ok_iff.mp walked
  refine ⟨text, ?_⟩
  rw [isNode, Option.bind_some]
  unfold Yaml.val at isText
  cases scalar : node.text? with
  | none =>
      simp [scalar] at isText
  | some other =>
      simpa [scalar] using isText

/-- A readable interface with scalar references is loaded as written. -/
theorem parseInterface_eq
    {entry : Yaml}
    (readable : ReadableInterface entry)
    (scalars : ∀ ref ∈ entry.listed "vars", ScalarRef ref)
    (serviceName entityName : String) :
    parseInterface serviceName entityName entry =
      .ok (some (interfaceOf serviceName entityName entry)) := by
  obtain ⟨nameNode, isName, -⟩ :=
    Option.bind_eq_some_iff.mp readable.named
  obtain ⟨dirNode, isDir, -⟩ :=
    Option.bind_eq_some_iff.mp readable.directed
  have refs :
      parseVarRefs serviceName entry =
        .ok (interfaceOf serviceName entityName entry).varRefs := by
    rw [parseVarRefs_eq readable,
      mapM_eq_ok_map fun ref member =>
        parseVarRef_eq (scalars ref member) serviceName]
    exact congrArg Except.ok (flatten_map_singleton _ _)
  have directed :
      parseDirection entry =
        .ok (interfaceOf serviceName entityName entry).direction := by
    unfold parseDirection
    rw [isDir]
    dsimp only
    rw [val_of_textOf readable.directed isDir]
    rfl
  unfold parseInterface
  rw [isName]
  dsimp only
  rw [val_of_textOf readable.named isName, directed, refs]
  rfl

/-- An interface that the loader gets through has scalar references. -/
theorem scalarRefs_of_parseInterface
    {entry : Yaml}
    (readable : ReadableInterface entry)
    {serviceName entityName : String}
    {result : Option ProtocolInterface}
    (walked : parseInterface serviceName entityName entry = .ok result) :
    ∀ ref ∈ entry.listed "vars", ScalarRef ref := by
  obtain ⟨nameNode, isName, -⟩ :=
    Option.bind_eq_some_iff.mp readable.named
  unfold parseInterface at walked
  rw [isName] at walked
  obtain ⟨name, -, walked⟩ := bind_eq_ok_iff.mp walked
  obtain ⟨direction, -, walked⟩ := bind_eq_ok_iff.mp walked
  obtain ⟨refs, walkedRefs, -⟩ := bind_eq_ok_iff.mp walked
  rw [parseVarRefs_eq readable] at walkedRefs
  obtain ⟨lists, walkedRefs, -⟩ := bind_eq_ok_iff.mp walkedRefs
  intro ref member
  obtain ⟨result, walkedRef⟩ := exists_ok_of_mapM_eq_ok walkedRefs member
  refine scalarRef_of_parseVarRef ?_ walkedRef
  unfold Yaml.listed at member
  split at member
  next items isSeq =>
    refine (readable.refs _ isSeq).2 ref ?_
    simpa [Yaml.listed, isSeq] using member
  next =>
    simp at member

/-- What the validator guarantees about an accepted document. -/
structure ReadableDocument
    (root : Yaml) : Prop where
  service :
    (root.child? "service").bind Yaml.text? = some (root.textOf "service")
  named : root.textOf "service" ≠ ""
  vars : ∀ entry ∈ root.listed "vars", ReadableVar entry
  entities :
    ∀ entity ∈ root.listed "entities",
      (entity.child? "entity").bind Yaml.text? =
          some (entity.textOf "entity") ∧
        ∀ iface ∈ entity.listed "interfaces", ReadableInterface iface

/-- The loader can read every document that the validator accepts. -/
theorem readableDocument_of_accepts
    {root : Yaml}
    (accepted : ProtocolValidator.Accepts root) :
    ReadableDocument root := by
  have conforming :=
    (ProtocolValidator.accepts_iff_conformsToEnforced root).mp accepted
  rw [ProtocolSchema.ConformsToEnforced, ProtocolSchema.enforced,
    ProtocolSchema.protocol, Schema.conforms_object_iff] at conforming
  obtain ⟨-, -, required, -, -, properties⟩ := conforming
  simp only [List.forall_mem_cons] at properties
  obtain ⟨service, -, vars, entities, -⟩ := properties
  have scalar :=
    ProtocolValidator.textOf_of_conforms (required "service" (by simp)) service
  refine ⟨scalar, ?_, ?_, ?_⟩
  · obtain ⟨node, isNode, isText⟩ := Option.bind_eq_some_iff.mp scalar
    obtain ⟨text, sameText, long, -⟩ :=
      Schema.conforms_string_iff.mp (service node isNode)
    rw [isText, Option.some.injEq] at sameText
    rw [sameText]
    rintro rfl
    simp at long
  · intro entry member
    exact ProtocolValidator.readableVar_of_conforms
      (Schema.conforms_of_mem_listed vars member)
  · intro entity member
    have conforming := Schema.conforms_of_mem_listed entities member
    rw [ProtocolSchema.entity, Schema.conforms_object_iff] at conforming
    obtain ⟨-, -, required, -, -, properties⟩ := conforming
    simp only [List.forall_mem_cons] at properties
    obtain ⟨name, ifaces, -⟩ := properties
    refine ⟨ProtocolValidator.textOf_of_conforms
      (required "entity" (by simp)) name, ?_⟩
    intro iface inEntity
    exact ProtocolValidator.readableInterface_of_conforms
      (Schema.conforms_of_mem_listed ifaces inEntity)

/-- Loading the variables of a readable document. -/
theorem declaredVars_eq
    {root : Yaml}
    (readable : ReadableDocument root)
    (serviceName : String) :
    declaredVars serviceName root =
      .ok ((root.listed "vars").map (loadedVar serviceName)) := by
  have walked :
      (root.listed "vars").mapM (declaredByVar serviceName) =
        .ok ((root.listed "vars").map
          fun entry => [loadedVar serviceName entry]) := by
    refine mapM_eq_ok_map ?_
    intro entry member
    rw [declaredByVar, parseVar_eq (readable.vars entry member)]
    rfl
  rw [declaredVars, walked]
  exact congrArg Except.ok (flatten_map_singleton _ _)

/-- Loading the interfaces of a readable entity with scalar references. -/
theorem declaredByEntity_eq
    {entity : Yaml}
    (named :
      (entity.child? "entity").bind Yaml.text? =
        some (entity.textOf "entity"))
    (readable :
      ∀ iface ∈ entity.listed "interfaces", ReadableInterface iface)
    (scalars :
      ∀ iface ∈ entity.listed "interfaces",
        ∀ ref ∈ iface.listed "vars", ScalarRef ref)
    (serviceName : String) :
    declaredByEntity serviceName entity =
      .ok (entityInterfaces serviceName entity) := by
  obtain ⟨nameNode, isName, -⟩ := Option.bind_eq_some_iff.mp named
  have walked :
      (entity.listed "interfaces").mapM
          (declaredByInterface serviceName (entity.textOf "entity")) =
        .ok ((entity.listed "interfaces").map fun iface =>
          [interfaceOf serviceName (entity.textOf "entity") iface]) := by
    refine mapM_eq_ok_map ?_
    intro iface member
    rw [declaredByInterface,
      parseInterface_eq (readable iface member) (scalars iface member)]
    rfl
  unfold declaredByEntity
  rw [isName]
  dsimp only
  rw [val_of_textOf named isName]
  simp only [bind, Except.bind]
  rw [walked]
  exact congrArg Except.ok (flatten_map_singleton _ _)

/-- An entity that the loader gets through has scalar references. -/
theorem scalarRefs_of_declaredByEntity
    {entity : Yaml}
    (named :
      (entity.child? "entity").bind Yaml.text? =
        some (entity.textOf "entity"))
    (readable :
      ∀ iface ∈ entity.listed "interfaces", ReadableInterface iface)
    {serviceName : String}
    {result : List ProtocolInterface}
    (walked : declaredByEntity serviceName entity = .ok result) :
    ∀ iface ∈ entity.listed "interfaces",
      ∀ ref ∈ iface.listed "vars", ScalarRef ref := by
  obtain ⟨nameNode, isName, -⟩ := Option.bind_eq_some_iff.mp named
  unfold declaredByEntity at walked
  rw [isName] at walked
  obtain ⟨name, -, walked⟩ := bind_eq_ok_iff.mp walked
  obtain ⟨lists, walked, -⟩ := bind_eq_ok_iff.mp walked
  intro iface member
  obtain ⟨list, walkedList⟩ := exists_ok_of_mapM_eq_ok walked member
  obtain ⟨parsed, isParsed, -⟩ := bind_eq_ok_iff.mp walkedList
  exact scalarRefs_of_parseInterface (readable iface member) isParsed

/-- Loading the interfaces of a readable document with scalar references. -/
theorem declaredInterfaces_eq
    {root : Yaml}
    (readable : ReadableDocument root)
    (scalars :
      ∀ entity ∈ root.listed "entities",
        ∀ iface ∈ entity.listed "interfaces",
          ∀ ref ∈ iface.listed "vars", ScalarRef ref) :
    declaredInterfaces (root.textOf "service") root =
      .ok (interfaces root) := by
  rw [declaredInterfaces,
    mapM_eq_ok_map fun entity member =>
      declaredByEntity_eq (readable.entities entity member).1
        (readable.entities entity member).2 (scalars entity member)
        (root.textOf "service")]
  rfl

/-- The service name of a readable document is used unless it is a number. -/
theorem getProtocolName_eq
    {root : Yaml}
    (readable : ReadableDocument root)
    (isNumber : String → Bool) :
    getProtocolName isNumber root =
      if isNumber (root.textOf "service") then
        .error .unexpected
      else
        .ok (root.textOf "service") := by
  obtain ⟨node, isNode, isText⟩ :=
    Option.bind_eq_some_iff.mp readable.service
  simp [getProtocolName, isNode, isText]

/-- Names behind a service are never empty. -/
theorem qualified_ne_empty
    (serviceName rest : String) :
    serviceName ++ "::" ++ rest ≠ "" := by
  intro empty
  have length := congrArg String.length empty
  simp at length

/-- The declarations of a readable document with scalar references. -/
def loadedDeclarations
    (root : Yaml) : Declarations where
  vars := (root.listed "vars").map (loadedVar (root.textOf "service"))
  interfaces := interfaces root
  services := [service root]

theorem declarations_eq
    {root : Yaml}
    (readable : ReadableDocument root)
    (scalars :
      ∀ entity ∈ root.listed "entities",
        ∀ iface ∈ entity.listed "interfaces",
          ∀ ref ∈ iface.listed "vars", ScalarRef ref) :
    declarations (root.textOf "service") root =
      .ok (loadedDeclarations root) := by
  rw [declarations, declaredVars_eq readable,
    declaredInterfaces_eq readable scalars]
  rfl

/-- Every variable of distinct names is found under its name. -/
theorem getElement_loadedVar
    {root : Yaml}
    (distinct : DistinctKeys root)
    {entry : Yaml}
    (member : entry ∈ root.listed "vars") :
    ((loadedDeclarations root).addTo Session.empty).varDb.getElement
        (varOf (root.textOf "service") entry).name =
      some (loadedVar (root.textOf "service") entry) := by
  have names :
      ((loadedDeclarations root).vars.map Var.name).Nodup := by
    have distinctVars := distinct.vars
    rw [Written.vars, List.map_map] at distinctVars
    rw [loadedDeclarations, List.map_map]
    exact distinctVars
  have found :=
    Database.firstNamed_of_nodup names
      (List.mem_map_of_mem member :
        loadedVar (root.textOf "service") entry ∈
          (loadedDeclarations root).vars)
      (qualified_ne_empty _ _)
  rw [Declarations.addTo, Database.getElement_addAll]
  exact found

/-- A loaded document is held as written when no constraint is negative. -/
theorem heldBy_loaded_iff
    {root : Yaml}
    (readable : ReadableDocument root)
    (distinct : DistinctKeys root) :
    HeldBy root ((loadedDeclarations root).addTo Session.empty) ↔
      ∀ entry ∈ root.listed "vars", NonNegative entry := by
  constructor
  · intro held entry member
    have stored := held.vars _ (List.mem_map_of_mem member)
    rw [getElement_loadedVar distinct member, Option.map_some,
      Option.some.injEq] at stored
    exact (ofVar_loadedVar_iff (readable.vars entry member) _).mp stored
  · intro nonNegative
    refine ⟨?_, ?_, ?_⟩
    · rw [Declarations.addTo, Database.getElement_addAll]
      simp [loadedDeclarations, Database.firstNamed, service,
        readable.named, Session.empty]
    · intro written member
      obtain ⟨entry, inVars, rfl⟩ := List.mem_map.mp member
      rw [getElement_loadedVar distinct inVars, Option.map_some,
        Option.some.injEq]
      exact (ofVar_loadedVar_iff (readable.vars entry inVars) _).mpr
        (nonNegative entry inVars)
    · intro written member
      have named : written.name ≠ "" := by
        obtain ⟨entity, -, inEntity⟩ := List.mem_flatMap.mp member
        obtain ⟨iface, -, rfl⟩ := List.mem_map.mp inEntity
        exact qualified_ne_empty _ _
      rw [Declarations.addTo, Database.getElement_addAll]
      exact Database.firstNamed_of_nodup distinct.interfaces member named

end Protocol

/-- The loader takes a document into empty databases as it is written. -/
def LoadsAsWritten
    (isNumber : String → Bool)
    (root : Yaml) : Prop :=
  ∃ session,
    Protocol.parseProtocolFile isNumber root Session.empty =
        .ok (.success, session) ∧
      Written.HeldBy root session

/--
An accepted document without colliding names is loaded as written exactly when
its service is no number, its references are scalars and no constraint literal
is negative.
-/
theorem loadsAsWritten_iff
    (isNumber : String → Bool)
    (root : Yaml)
    (accepted : ProtocolValidator.Accepts root)
    (distinct : Written.DistinctKeys root) :
    LoadsAsWritten isNumber root ↔ Written.Loadable isNumber root := by
  have readable := Protocol.readableDocument_of_accepts accepted
  have name := Protocol.getProtocolName_eq readable isNumber
  have held := Protocol.heldBy_loaded_iff readable distinct
  constructor
  · rintro ⟨session, loaded, holds⟩
    by_cases number : isNumber (root.textOf "service") = true
    · rw [if_pos number] at name
      rw [Protocol.parseProtocolFile, name] at loaded
      split at loaded <;> simp [pure, Except.pure] at loaded
    · rw [if_neg number] at name
      rw [Protocol.parseProtocolFile_eq name] at loaded
      obtain ⟨declared, isDeclared, added⟩ := bind_eq_ok_iff.mp loaded
      have scalars :
          ∀ entity ∈ root.listed "entities",
            ∀ iface ∈ entity.listed "interfaces",
              ∀ ref ∈ iface.listed "vars", Written.ScalarRef ref := by
        obtain ⟨vars, -, walked⟩ := bind_eq_ok_iff.mp isDeclared
        obtain ⟨ifaces, walkedIfaces, -⟩ := bind_eq_ok_iff.mp walked
        obtain ⟨lists, walkedLists, -⟩ := bind_eq_ok_iff.mp walkedIfaces
        intro entity member
        obtain ⟨list, walkedList⟩ :=
          exists_ok_of_mapM_eq_ok walkedLists member
        exact Protocol.scalarRefs_of_declaredByEntity
          (readable.entities entity member).1
          (readable.entities entity member).2 walkedList
      rw [Protocol.declarations_eq readable scalars] at isDeclared
      cases isDeclared
      cases added
      exact ⟨by simpa using number, held.mp holds, scalars⟩
  · rintro ⟨notNumber, nonNegative, scalars⟩
    rw [notNumber] at name
    refine ⟨_, ?_, held.mpr nonNegative⟩
    rw [Protocol.parseProtocolFile_eq name,
      Protocol.declarations_eq readable scalars]
    rfl

/-- A variable with two values and a range. -/
def smallVar : Yaml :=
  .map [
    ("var", .scalar "x"),
    ("size", .scalar "16"),
    ("expected", .map [
      ("values", .seq [.scalar "0x22F0", .scalar "7"]),
      ("range", .seq [.scalar "1", .scalar "0xFFFF"])])]

/-- A document with one variable and one interface. -/
def smallDocument : Yaml :=
  .map [
    ("service", .scalar "svc"),
    ("logic", .scalar "mac"),
    ("vars", .seq [smallVar]),
    ("entities", .seq [
      .map [
        ("entity", .scalar "mac"),
        ("interfaces", .seq [
          .map [
            ("interface", .scalar "tx"),
            ("dir", .scalar "out"),
            ("vars", .seq [.map [("var_ref", .scalar "x")]])]])]])]

theorem smallDocument_loadable :
    Written.Loadable (fun text => text.toList.all Char.isDigit)
      smallDocument := by
  refine ⟨by decide, ?_, ?_⟩
  · intro entry member
    obtain rfl : entry = smallVar := List.mem_singleton.mp member
    have written :
        ∀ literal ∈ ProtocolSchema.literals (Written.constraints smallVar),
          0 ≤ (Written.number? literal).getD 0 := by
      decide
    intro literal inLiterals value isValue
    simpa [isValue] using written literal inLiterals
  · intro entity inRoot
    obtain rfl : entity = _ := List.mem_singleton.mp inRoot
    intro iface inEntity
    obtain rfl : iface = _ := List.mem_singleton.mp inEntity
    intro ref inInterface
    obtain rfl : ref = _ := List.mem_singleton.mp inInterface
    exact ⟨"x", rfl⟩

theorem smallDocument_loadsAsWritten :
    LoadsAsWritten (fun text => text.toList.all Char.isDigit)
      smallDocument :=
  (loadsAsWritten_iff _ _ (by decide) ⟨by decide, by decide⟩).mpr
    smallDocument_loadable

/-- A document with an interface that refers to a sequence. -/
def sequenceRefDocument : Yaml :=
  .map [
    ("service", .scalar "svc"),
    ("entities", .seq [
      .map [
        ("entity", .scalar "mac"),
        ("interfaces", .seq [
          .map [
            ("interface", .scalar "tx"),
            ("dir", .scalar "out"),
            ("vars", .seq [
              .map [("var_ref", .seq [.scalar "x"])]])]])]])]

/-- A reference to a sequence is accepted and then aborts the loader. -/
theorem sequence_ref_accepted :
    ¬ ∀ (isNumber : String → Bool) (root : Yaml),
      ProtocolValidator.Accepts root →
        Written.DistinctKeys root →
          LoadsAsWritten isNumber root := by
  intro allLoaded
  obtain ⟨session, loaded, -⟩ :=
    allLoaded (fun text => text.toList.all Char.isDigit)
      sequenceRefDocument (by decide) ⟨by decide, by decide⟩
  have aborted :
      Protocol.parseProtocolFile (fun text => text.toList.all Char.isDigit)
          sequenceRefDocument Session.empty = .error .noScalar :=
    rfl
  rw [aborted] at loaded
  cases loaded

end TsnGen
