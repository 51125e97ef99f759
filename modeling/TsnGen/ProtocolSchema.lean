import TsnGen.Literal
import TsnGen.Schema
import TsnGen.Validator

namespace TsnGen

/-!
# The validator and the published schema

`protocol.schema.json` as a `Schema`, and next to it the schema the validator
really enforces: the same tree, except that an `expected` map may be empty,
that anything may stand under a `var_ref`, and that literals may be padded with
blanks.  The two agree on every document outside these three gaps.
-/

namespace ProtocolSchema

open Schema

/-- A non-empty string. -/
def name : Schema :=
  .string 1 none

/-- `$defs/expected`, over what counts as a literal. -/
def expected
    (minProperties : Nat)
    (literal : Schema) : Schema :=
  .object [] [] minProperties [
    ("value", literal),
    ("values", .array 1 none literal),
    ("range", .array 2 (some 2) literal),
    ("mask", .array 1 (some 1) literal)]

/-- `$defs/var`. -/
def var
    (expected : Schema) : Schema :=
  .object ["var", "size"] [] 0 [
    ("var", name),
    ("size", .integer (some 1) (some 4096)),
    ("expected", expected)]

/-- `$defs/var_ref`, over what is referred to. -/
def varRef
    (target : Schema) : Schema :=
  .object ["var_ref"] [] 0 [("var_ref", target)]

/-- `$defs/interface`. -/
def interface
    (varRef : Schema) : Schema :=
  .object ["interface", "dir"] [] 0 [
    ("interface", name),
    ("dir", .string 0 (some ["in", "out"])),
    ("vars", .array 0 none varRef)]

/-- `$defs/entity`. -/
def entity
    (interface : Schema) : Schema :=
  .object ["entity", "interfaces"] [] 0 [
    ("entity", name),
    ("interfaces", .array 1 none interface)]

/-- The top level of a protocol document. -/
def protocol
    (var entity : Schema) : Schema :=
  .object ["service"] [["vars"], ["entities"]] 0 [
    ("service", name),
    ("logic", name),
    ("vars", .array 0 none var),
    ("entities", .array 0 none entity)]

/-- `protocol.schema.json`. -/
def published : Schema :=
  protocol (var (expected 1 (.integer (some 0) none)))
    (entity (interface (varRef name)))

/-- What the validator enforces of it. -/
def enforced : Schema :=
  protocol (var (expected 0 (.integer none none)))
    (entity (interface (varRef .anything)))

/-- A document conforms to the published schema. -/
def Conforms
    (root : Yaml) : Prop :=
  conforms Numeral.unsignedLiteral? published root = true

/-- A document conforms to the enforced schema. -/
def ConformsToEnforced
    (root : Yaml) : Prop :=
  conforms Numeral.paddedLiteral? enforced root = true

end ProtocolSchema

namespace ProtocolValidator

open Schema

@[simp] theorem expect_eq_nil_iff
    {check : Bool}
    {message : String} :
    expect check message = [] ↔ check = true := by
  unfold expect report
  split <;> simp_all

@[simp] theorem report_ne_nil
    (message : String) :
    report message ≠ [] := by
  simp [report]

@[simp] theorem checkAllowedKeys_eq_nil_iff
    {map : Yaml}
    {allowed : List String}
    {place : String} :
    checkAllowedKeys map allowed place = [] ↔
      ∀ key ∈ map.keys, key ∈ allowed := by
  simp [checkAllowedKeys]

@[simp] theorem whenChild_eq_nil_iff
    {node : Yaml}
    {key : String}
    {validate : Yaml → List ValidationFinding} :
    whenChild node key validate = [] ↔
      ∀ child, node.child? key = some child → validate child = [] := by
  unfold whenChild
  cases node.child? key with
  | none =>
      simp
  | some child =>
      simp

/-- A non-empty scalar is a name. -/
theorem isNonEmptyScalar_iff
    {reading : String → Option Int}
    {node : Yaml} :
    isNonEmptyScalar (some node) = true ↔
      conforms reading ProtocolSchema.name node = true := by
  rw [ProtocolSchema.name, conforms_string_iff, isNonEmptyScalar,
    Option.bind_some]
  cases node.text? with
  | none =>
      simp
  | some text =>
      simp [Nat.one_le_iff_ne_zero]

/-- What the validator takes for an unsigned integer is a padded literal. -/
theorem isUintScalar_iff
    {node : Yaml} :
    isUintScalar (some node) = true ↔
      ∃ text value, node.text? = some text ∧
        Numeral.paddedLiteral? text = some value := by
  rw [isUintScalar, Option.bind_some]
  cases scalar : node.text? with
  | none =>
      simp
  | some text =>
      simp only [Option.some.injEq, exists_and_left, exists_eq_left']
      cases shape : text.toList with
      | nil =>
          simp [Numeral.paddedLiteral?, shape]
      | cons first rest =>
          rw [Numeral.exists_paddedLiteral?_iff shape]
          by_cases sign : first = '-' ∨ first = '+'
          · simp [sign]
          · simp only [sign, ↓reduceIte, not_false_eq_true, true_and]
            rw [← shape]
            cases Numeral.stoull text with
            | none =>
                simp
            | some converted =>
                simp [Prod.ext_iff]

/-- An unsigned integer of the validator is an integer of any size. -/
theorem isUintScalar_iff_conforms
    {node : Yaml} :
    isUintScalar (some node) = true ↔
      conforms Numeral.paddedLiteral? (.integer none none) node = true := by
  rw [isUintScalar_iff, conforms_integer_iff]
  simp

theorem validateValues_eq_nil_iff
    {values : Yaml}
    {varName : String} :
    validateValues values varName = [] ↔
      conforms Numeral.paddedLiteral?
        (.array 1 none (.integer none none)) values = true := by
  rw [conforms_array_iff]
  unfold validateValues
  split
  next first rest =>
    simp only [expect_eq_nil_iff, List.all_eq_true,
      isUintScalar_iff_conforms]
    simp
  next other =>
    simp only [report_ne_nil, false_iff]
    rintro ⟨nodes, rfl, present, -⟩
    cases nodes with
    | nil =>
        simp at present
    | cons first rest =>
        exact other first rest rfl

theorem isRange_iff
    {range : Yaml} :
    isRange range = true ↔
      conforms Numeral.paddedLiteral?
        (.array 2 (some 2) (.integer none none)) range = true := by
  rw [conforms_array_iff]
  unfold isRange
  split
  next low high =>
    simp [isUintScalar_iff_conforms]
  next other =>
    simp only [Bool.false_eq_true, false_iff]
    rintro ⟨nodes, rfl, atLeast, atMost, -⟩
    have two : nodes.length = 2 := by
      have upper := atMost 2 rfl
      omega
    obtain ⟨low, high, rfl⟩ := List.length_eq_two.mp two
    exact other low high rfl

theorem isMask_iff
    {mask : Yaml} :
    isMask mask = true ↔
      conforms Numeral.paddedLiteral?
        (.array 1 (some 1) (.integer none none)) mask = true := by
  rw [conforms_array_iff]
  unfold isMask
  split
  next bits =>
    simp [isUintScalar_iff_conforms]
  next other =>
    simp only [Bool.false_eq_true, false_iff]
    rintro ⟨nodes, rfl, atLeast, atMost, -⟩
    have one : nodes.length = 1 := by
      have upper := atMost 1 rfl
      omega
    obtain ⟨bits, rfl⟩ := List.length_eq_one_iff.mp one
    exact other bits rfl

theorem validateExpected_eq_nil_iff
    {expected : Yaml}
    {varName : String} :
    validateExpected expected varName = [] ↔
      conforms Numeral.paddedLiteral?
        (ProtocolSchema.expected 0 (.integer none none)) expected =
          true := by
  rw [ProtocolSchema.expected, conforms_object_iff]
  unfold validateExpected
  by_cases isMap : expected.isMap = true
  · simp [isMap, isUintScalar_iff_conforms, validateValues_eq_nil_iff,
      isRange_iff, isMask_iff]
  · simp [isMap]

/-- A checked width is an integer between the bounds. -/
theorem validateSize_eq_ok_nil_iff
    {var : Yaml}
    {name : String} :
    validateSize var name = .ok [] ↔
      var.hasChild "size" = true ∧
        ∀ size, var.child? "size" = some size →
          conforms Numeral.paddedLiteral?
            (.integer (some 1) (some 4096)) size = true := by
  unfold validateSize Yaml.hasChild
  cases present : var.child? "size" with
  | none =>
      simp [pure, Except.pure]
  | some size =>
      simp only [Option.isSome_some, Option.some.injEq, forall_eq', true_and]
      by_cases unsigned : isUintScalar (some size) = true
      · obtain ⟨text, value, scalar, read⟩ := isUintScalar_iff.mp unsigned
        have bounds :
            conforms Numeral.paddedLiteral?
                (.integer (some 1) (some 4096)) size = true ↔
              1 ≤ value ∧ value ≤ 4096 := by
          rw [conforms_integer_iff]
          simp [scalar, read]
        rw [bounds, if_pos unsigned, asInt, Yaml.val, scalar]
        simp only [Numeral.stoll_of_paddedLiteral? read, bind_eq_ok_iff,
          Except.ok.injEq, exists_eq_left']
        by_cases inRange : -2 ^ 63 ≤ value ∧ value < 2 ^ 63
        · rw [if_pos inRange]
          simp [pure, Except.pure]
        · simp only [inRange, ↓reduceIte, reduceCtorEq, false_and,
            exists_false, false_iff]
          omega
      · have unread :
            conforms Numeral.paddedLiteral?
              (.integer (some 1) (some 4096)) size ≠ true := by
          rw [isUintScalar_iff] at unsigned
          rw [ne_eq, conforms_integer_iff]
          rintro ⟨text, value, scalar, read, -⟩
          exact unsigned ⟨text, value, scalar, read⟩
        simp [unsigned, unread, pure, Except.pure]

/-- A required name is present and a non-empty scalar. -/
theorem isNonEmptyScalar_child_iff
    (reading : String → Option Int)
    {node : Yaml}
    {key : String} :
    isNonEmptyScalar (node.child? key) = true ↔
      node.hasChild key = true ∧
        ∀ child, node.child? key = some child →
          conforms reading ProtocolSchema.name child = true := by
  unfold Yaml.hasChild
  cases node.child? key with
  | none =>
      simp [isNonEmptyScalar]
  | some child =>
      simpa using isNonEmptyScalar_iff

/-- Findings around those of a walk are empty when all of them are. -/
theorem bind_append_eq_ok_nil_iff
    {walk : Findings}
    {before after : List ValidationFinding} :
    (do
        let findings ← walk
        return before ++ findings ++ after) = .ok [] ↔
      before = [] ∧ walk = .ok [] ∧ after = [] := by
  rw [bind_eq_ok_iff]
  constructor
  · rintro ⟨findings, walked, combined⟩
    rw [pure_eq_ok_iff, List.append_eq_nil_iff,
      List.append_eq_nil_iff] at combined
    obtain ⟨⟨noneBefore, rfl⟩, noneAfter⟩ := combined
    exact ⟨noneBefore, walked, noneAfter⟩
  · rintro ⟨rfl, walked, rfl⟩
    exact ⟨[], walked, rfl⟩

theorem validateVar_eq_ok_nil_iff
    {var : Yaml} :
    validateVar var = .ok [] ↔
      conforms Numeral.paddedLiteral?
        (ProtocolSchema.var
          (ProtocolSchema.expected 0 (.integer none none))) var = true := by
  rw [ProtocolSchema.var, conforms_object_iff]
  unfold validateVar
  by_cases isMap : var.isMap = true
  · rw [if_pos isMap, bind_append_eq_ok_nil_iff]
    simp [isMap, validateSize_eq_ok_nil_iff, validateExpected_eq_nil_iff,
      isNonEmptyScalar_child_iff Numeral.paddedLiteral?,
      and_assoc, and_left_comm]
  · simp [isMap]

/-- A list is accepted when each of its items is. -/
theorem validateEach_eq_ok_nil_iff
    {validate : Yaml → Findings}
    {nodes : List Yaml} :
    validateEach validate nodes = .ok [] ↔
      ∀ node ∈ nodes, validate node = .ok [] := by
  induction nodes with
  | nil =>
      simp [validateEach]
  | cons node rest inductionHypothesis =>
      rw [List.forall_mem_cons, ← inductionHypothesis]
      simp only [validateEach, List.mapM_cons, bind_eq_ok_iff,
        pure_eq_ok_iff]
      constructor
      · rintro ⟨all, ⟨first, isFirst, later, isLater, rfl⟩, combined⟩
        obtain ⟨rfl, laterEmpty⟩ := List.append_eq_nil_iff.mp combined
        exact ⟨isFirst, later, isLater, laterEmpty⟩
      · rintro ⟨isFirst, later, isLater, combined⟩
        refine ⟨[] :: later, ⟨[], isFirst, later, isLater, rfl⟩, ?_⟩
        exact combined

theorem validateVarRefs_eq_nil_iff
    {name : String}
    {refs : List Yaml} :
    validateVarRefs name refs = [] ↔
      ∀ ref ∈ refs,
        conforms Numeral.paddedLiteral?
          (ProtocolSchema.varRef .anything) ref = true := by
  induction refs with
  | nil =>
      simp [validateVarRefs]
  | cons ref rest inductionHypothesis =>
      rw [List.forall_mem_cons, ← inductionHypothesis, validateVarRefs,
        ProtocolSchema.varRef, conforms_object_iff]
      by_cases present : ref.hasChild "var_ref" = true
      · have isMap : ref.isMap = true := by
          cases ref with
          | map entries =>
              rfl
          | scalar text =>
              simp [Yaml.hasChild, Yaml.child?] at present
          | seq items =>
              simp [Yaml.hasChild, Yaml.child?] at present
        simp [present, isMap]
      · simp [present]

/-- A checked direction is one of the two words. -/
theorem validateDir_eq_ok_nil_iff
    {iface : Yaml}
    {name : String} :
    validateDir iface name = .ok [] ↔
      iface.hasChild "dir" = true ∧
        ∀ dir, iface.child? "dir" = some dir →
          conforms Numeral.paddedLiteral?
            (.string 0 (some ["in", "out"])) dir = true := by
  unfold validateDir Yaml.hasChild
  cases iface.child? "dir" with
  | none =>
      simp
  | some dir =>
      cases scalar : dir.text? with
      | none =>
          simp [Yaml.val, scalar, conforms_string_iff]
      | some text =>
          simp [Yaml.val, scalar, conforms_string_iff]

theorem validateInterface_eq_ok_nil_iff
    {iface : Yaml} :
    validateInterface iface = .ok [] ↔
      conforms Numeral.paddedLiteral?
        (ProtocolSchema.interface
          (ProtocolSchema.varRef .anything)) iface = true := by
  rw [ProtocolSchema.interface, conforms_object_iff]
  unfold validateInterface
  by_cases isMap : iface.isMap = true
  · have refs :
        ∀ (vars : Yaml) (message : String),
          (if vars.isSeq = true then
              validateVarRefs (nameOf iface "interface") vars.children
            else
              report message) = [] ↔
            conforms Numeral.paddedLiteral?
              (.array 0 none (ProtocolSchema.varRef .anything)) vars =
                true := by
      intro vars message
      rw [conforms_array_iff]
      cases vars with
      | scalar text =>
          simp [Yaml.isSeq]
      | map entries =>
          simp [Yaml.isSeq]
      | seq items =>
          simp [Yaml.isSeq, Yaml.children, validateVarRefs_eq_nil_iff]
    rw [if_pos isMap, bind_append_eq_ok_nil_iff]
    simp [isMap, validateDir_eq_ok_nil_iff, refs,
      isNonEmptyScalar_child_iff Numeral.paddedLiteral?, and_assoc,
      and_left_comm]
  · simp [isMap]

theorem validateEntity_eq_ok_nil_iff
    {entity : Yaml} :
    validateEntity entity = .ok [] ↔
      conforms Numeral.paddedLiteral?
        (ProtocolSchema.entity
          (ProtocolSchema.interface
            (ProtocolSchema.varRef .anything))) entity = true := by
  rw [ProtocolSchema.entity, conforms_object_iff]
  unfold validateEntity
  by_cases isMap : entity.isMap = true
  · rw [if_pos isMap]
    cases present : entity.child? "interfaces" with
    | none =>
        simp [Yaml.hasChild, present]
    | some ifaces =>
        cases ifaces with
        | scalar text =>
            simp [conforms_array_iff, present]
        | map entries =>
            simp [conforms_array_iff, present]
        | seq items =>
            cases items with
            | nil =>
                simp [conforms_array_iff, present]
            | cons first rest =>
                have below :
                    (∀ iface ∈ first :: rest,
                        validateInterface iface = .ok []) ↔
                      conforms Numeral.paddedLiteral?
                        (.array 1 none
                          (ProtocolSchema.interface
                            (ProtocolSchema.varRef .anything)))
                        (.seq (first :: rest)) = true := by
                  rw [conforms_array_iff]
                  simp [validateInterface_eq_ok_nil_iff]
                have combined (named : List ValidationFinding) :
                    (do
                        let findings ←
                          validateEach validateInterface (first :: rest)
                        return named ++ findings) = .ok [] ↔
                      named = [] ∧
                        ∀ iface ∈ first :: rest,
                          validateInterface iface = .ok [] := by
                  have whole :=
                    @bind_append_eq_ok_nil_iff
                      (validateEach validateInterface (first :: rest))
                      named []
                  simpa [validateEach_eq_ok_nil_iff] using whole
                dsimp only
                rw [combined, below]
                simp [isMap, present, Yaml.hasChild,
                  isNonEmptyScalar_child_iff Numeral.paddedLiteral?,
                  and_assoc, and_left_comm]
  · simp [isMap]

/--
A top-level list is accepted when it is absent or a list of accepted items.
-/
theorem validateList_eq_ok_nil_iff
    {root : Yaml}
    {key : String}
    {validate : Yaml → Findings}
    {item : Schema}
    (itemAccepted :
      ∀ node, validate node = .ok [] ↔
        conforms Numeral.paddedLiteral? item node = true) :
    validateList root key validate = .ok [] ↔
      ∀ child, root.child? key = some child →
        conforms Numeral.paddedLiteral? (.array 0 none item) child =
          true := by
  unfold validateList
  cases root.child? key with
  | none =>
      simp
  | some node =>
      cases node with
      | scalar text =>
          simp [conforms_array_iff]
      | map entries =>
          simp [conforms_array_iff]
      | seq items =>
          simp [conforms_array_iff, validateEach_eq_ok_nil_iff,
            itemAccepted]

/-- The validator accepts exactly what conforms to the enforced schema. -/
theorem accepts_iff_conformsToEnforced
    (root : Yaml) :
    Accepts root ↔ ProtocolSchema.ConformsToEnforced root := by
  rw [ProtocolSchema.ConformsToEnforced, ProtocolSchema.enforced,
    ProtocolSchema.protocol, conforms_object_iff, Accepts]
  unfold validateProtocolFile
  by_cases isMap : root.isMap = true
  · rw [if_pos isMap, bind_eq_ok_iff]
    have vars :=
      @validateList_eq_ok_nil_iff root "vars" validateVar _
        fun _ => validateVar_eq_ok_nil_iff
    have entities :=
      @validateList_eq_ok_nil_iff root "entities" validateEntity _
        fun _ => validateEntity_eq_ok_nil_iff
    have behind (findings : List ValidationFinding) :=
      @bind_append_eq_ok_nil_iff
        (validateList root "entities" validateEntity) findings []
    simp only [List.append_nil, and_true] at behind
    have walked (before : List ValidationFinding) :
        (∃ value, validateList root "vars" validateVar = .ok value ∧
            (do
                let entities ← validateList root "entities" validateEntity
                return before ++ value ++ entities) = .ok []) ↔
          before = [] ∧ validateList root "vars" validateVar = .ok [] ∧
            validateList root "entities" validateEntity = .ok [] := by
      simp only [behind, List.append_eq_nil_iff]
      constructor
      · rintro ⟨value, isValue, ⟨empty, rfl⟩, isEntities⟩
        exact ⟨empty, isValue, isEntities⟩
      · rintro ⟨empty, isValue, isEntities⟩
        exact ⟨[], isValue, ⟨empty, rfl⟩, isEntities⟩
    rw [walked, vars, entities]
    simp [isMap, isNonEmptyScalar_child_iff Numeral.paddedLiteral?,
      @isNonEmptyScalar_iff Numeral.paddedLiteral?, and_assoc,
      and_left_comm]
  · simp [isMap]

end ProtocolValidator

namespace ProtocolSchema

open Schema

/-- The constraint literals below an `expected` node. -/
def literals
    (expected : Yaml) : List Yaml :=
  (expected.child? "value").toList ++ expected.listed "values" ++
    expected.listed "range" ++ expected.listed "mask"

/-- A scalar, if the node is one, does not start with a blank. -/
def Unpadded
    (node : Yaml) : Prop :=
  ∀ text, node.text? = some text → Numeral.startsBlank text = false

/-- A `vars` entry with no padded literal and no empty `expected` map. -/
structure GaplessVar
    (var : Yaml) : Prop where
  size :
    ∀ size, var.child? "size" = some size → Unpadded size
  constrained :
    ∀ expected, var.child? "expected" = some expected →
      expected.keys ≠ [] ∧ ∀ literal ∈ literals expected, Unpadded literal

/-- A `var_ref` entry that refers to a non-empty scalar. -/
def GaplessRef
    (ref : Yaml) : Prop :=
  ProtocolValidator.isNonEmptyScalar (ref.child? "var_ref") = true

/-- None of the three gaps between the two schemas is used. -/
structure Gapless
    (root : Yaml) : Prop where
  vars :
    ∀ var ∈ root.listed "vars", GaplessVar var
  refs :
    ∀ entity ∈ root.listed "entities",
      ∀ iface ∈ entity.listed "interfaces",
        ∀ ref ∈ iface.listed "vars", GaplessRef ref

/-- Strings are read alike under every reading of integers. -/
theorem conforms_string_congr
    (reading other : String → Option Int)
    (minLength : Nat)
    (enum : Option (List String))
    (node : Yaml) :
    conforms reading (.string minLength enum) node =
      conforms other (.string minLength enum) node :=
  rfl

/-- Names are read alike under every reading of integers. -/
theorem conforms_name_congr
    (reading other : String → Option Int)
    (node : Yaml) :
    conforms reading name node = conforms other name node :=
  rfl

/-- Lists of one size differ by what their items differ by. -/
theorem forall_child_array_iff
    {reading other : String → Option Int}
    {items otherItems : Schema}
    {gapless : Yaml → Prop}
    (item :
      ∀ node, conforms reading items node = true ↔
        conforms other otherItems node = true ∧ gapless node)
    (node : Yaml)
    (key : String)
    (minItems : Nat)
    (maxItems : Option Nat) :
    (∀ child, node.child? key = some child →
        conforms reading (.array minItems maxItems items) child = true) ↔
      (∀ child, node.child? key = some child →
          conforms other (.array minItems maxItems otherItems) child =
            true) ∧
        ∀ entry ∈ node.listed key, gapless entry := by
  unfold Yaml.listed
  cases node.child? key with
  | none =>
      simp
  | some child =>
      cases child with
      | scalar text =>
          simp [conforms_array_iff]
      | map entries =>
          simp [conforms_array_iff]
      | seq nodes =>
          simp [conforms_array_iff, item, forall_and, and_assoc]

/-- Integers of the schema are integers of the validator without blanks. -/
theorem conforms_integer_iff_unpadded
    {minimum maximum : Option Int}
    {node : Yaml} :
    conforms Numeral.unsignedLiteral? (.integer minimum maximum) node =
        true ↔
      conforms Numeral.paddedLiteral? (.integer minimum maximum) node =
          true ∧
        Unpadded node := by
  rw [conforms_integer_iff, conforms_integer_iff]
  simp only [Numeral.unsignedLiteral?_eq_some_iff]
  constructor
  · rintro ⟨text, value, scalar, ⟨read, unblank⟩, bounds⟩
    refine ⟨⟨text, value, scalar, read, bounds⟩, ?_⟩
    intro other same
    rw [scalar, Option.some.injEq] at same
    rw [← same]
    exact unblank
  · rintro ⟨⟨text, value, scalar, read, bounds⟩, unpadded⟩
    exact ⟨text, value, scalar, ⟨read, unpadded text scalar⟩, bounds⟩

/-- An unsigned literal is never negative. -/
theorem conforms_nonnegative_iff
    {node : Yaml} :
    conforms Numeral.unsignedLiteral? (.integer (some 0) none) node =
        true ↔
      conforms Numeral.paddedLiteral? (.integer none none) node = true ∧
        Unpadded node := by
  rw [← conforms_integer_iff_unpadded, conforms_integer_iff,
    conforms_integer_iff]
  constructor
  · rintro ⟨text, value, scalar, read, -⟩
    exact ⟨text, value, scalar, read, by simp, by simp⟩
  · rintro ⟨text, value, scalar, read, -⟩
    refine ⟨text, value, scalar, read, ?_, by simp⟩
    obtain ⟨number, -, rfl⟩ := Option.map_eq_some_iff.mp read
    simp [Numeral.withSign]

theorem conforms_expected_iff
    {node : Yaml} :
    conforms Numeral.unsignedLiteral?
        (expected 1 (.integer (some 0) none)) node = true ↔
      conforms Numeral.paddedLiteral?
          (expected 0 (.integer none none)) node = true ∧
        node.keys ≠ [] ∧ ∀ literal ∈ literals node, Unpadded literal := by
  rw [expected, expected, conforms_object_iff, conforms_object_iff]
  have arrays :=
    forall_child_array_iff (fun _ => conforms_nonnegative_iff) node
  have value :
      (∀ child, node.child? "value" = some child →
          conforms Numeral.unsignedLiteral? (.integer (some 0) none)
            child = true) ↔
        (∀ child, node.child? "value" = some child →
            conforms Numeral.paddedLiteral? (.integer none none) child =
              true) ∧
          ∀ literal ∈ (node.child? "value").toList, Unpadded literal := by
    cases node.child? "value" with
    | none =>
        simp
    | some child =>
        simp [conforms_nonnegative_iff]
  have nonEmpty : 1 ≤ node.keys.length ↔ node.keys ≠ [] := by
    rw [Nat.one_le_iff_ne_zero, ne_eq, List.length_eq_zero_iff]
  simp only [List.forall_mem_cons, List.forall_mem_append, value, arrays,
    nonEmpty, literals, Nat.zero_le]
  grind

theorem conforms_var_iff
    {node : Yaml} :
    conforms Numeral.unsignedLiteral?
        (var (expected 1 (.integer (some 0) none))) node = true ↔
      conforms Numeral.paddedLiteral?
          (var (expected 0 (.integer none none))) node = true ∧
        GaplessVar node := by
  have gapless :
      GaplessVar node ↔
        (∀ size, node.child? "size" = some size → Unpadded size) ∧
          ∀ expected, node.child? "expected" = some expected →
            expected.keys ≠ [] ∧
              ∀ literal ∈ literals expected, Unpadded literal :=
    ⟨fun both => ⟨both.size, both.constrained⟩,
      fun both => ⟨both.1, both.2⟩⟩
  rw [var, var, conforms_object_iff, conforms_object_iff, gapless]
  simp only [List.forall_mem_cons, conforms_integer_iff_unpadded,
    conforms_expected_iff,
    conforms_name_congr Numeral.unsignedLiteral? Numeral.paddedLiteral?,
    imp_and, forall_and]
  grind

theorem conforms_varRef_iff
    {node : Yaml} :
    conforms Numeral.unsignedLiteral? (varRef name) node = true ↔
      conforms Numeral.paddedLiteral? (varRef .anything) node = true ∧
        GaplessRef node := by
  rw [varRef, varRef, conforms_object_iff, conforms_object_iff,
    GaplessRef, ProtocolValidator.isNonEmptyScalar_child_iff
      Numeral.unsignedLiteral?]
  simp [and_assoc]

theorem conforms_interface_iff
    {node : Yaml} :
    conforms Numeral.unsignedLiteral? (interface (varRef name)) node =
        true ↔
      conforms Numeral.paddedLiteral? (interface (varRef .anything)) node =
          true ∧
        ∀ ref ∈ node.listed "vars", GaplessRef ref := by
  rw [interface, interface, conforms_object_iff, conforms_object_iff]
  simp [forall_child_array_iff (fun _ => conforms_varRef_iff) node,
    conforms_name_congr Numeral.unsignedLiteral? Numeral.paddedLiteral?,
    conforms_string_congr Numeral.unsignedLiteral? Numeral.paddedLiteral?,
    and_assoc]

theorem conforms_entity_iff
    {node : Yaml} :
    conforms Numeral.unsignedLiteral?
        (entity (interface (varRef name))) node = true ↔
      conforms Numeral.paddedLiteral?
          (entity (interface (varRef .anything))) node = true ∧
        ∀ iface ∈ node.listed "interfaces",
          ∀ ref ∈ iface.listed "vars", GaplessRef ref := by
  rw [entity, entity, conforms_object_iff, conforms_object_iff]
  simp [forall_child_array_iff (fun _ => conforms_interface_iff) node,
    conforms_name_congr Numeral.unsignedLiteral? Numeral.paddedLiteral?,
    and_assoc]

/-- The published schema is the enforced one outside its gaps. -/
theorem conforms_iff_enforced
    (root : Yaml) :
    Conforms root ↔ ConformsToEnforced root ∧ Gapless root := by
  have gapless :
      Gapless root ↔
        (∀ var ∈ root.listed "vars", GaplessVar var) ∧
          ∀ entity ∈ root.listed "entities",
            ∀ iface ∈ entity.listed "interfaces",
              ∀ ref ∈ iface.listed "vars", GaplessRef ref :=
    ⟨fun both => ⟨both.vars, both.refs⟩, fun both => ⟨both.1, both.2⟩⟩
  rw [Conforms, ConformsToEnforced, published, enforced, protocol, protocol,
    conforms_object_iff, conforms_object_iff, gapless]
  simp only [List.forall_mem_cons,
    forall_child_array_iff (fun _ => conforms_var_iff) root,
    forall_child_array_iff (fun _ => conforms_entity_iff) root,
    conforms_name_congr Numeral.unsignedLiteral? Numeral.paddedLiteral?]
  grind

end ProtocolSchema

/-- The validator decides the published schema on a document. -/
def DecidesSchema
    (root : Yaml) : Prop :=
  ProtocolValidator.Accepts root ↔ ProtocolSchema.Conforms root

/--
The validator decides the published schema exactly on documents that, where
they meet all other rules, use none of the gaps: an empty `expected` map, a
`var_ref` that is no non-empty scalar, a literal behind blanks.
-/
theorem decidesSchema_iff
    (root : Yaml) :
    DecidesSchema root ↔
      (ProtocolSchema.ConformsToEnforced root →
        ProtocolSchema.Gapless root) := by
  rw [DecidesSchema, ProtocolValidator.accepts_iff_conformsToEnforced,
    ProtocolSchema.conforms_iff_enforced]
  constructor
  · intro decides enforced
    exact (decides.mp enforced).2
  · intro gapless
    constructor
    · intro enforced
      exact ⟨enforced, gapless enforced⟩
    · rintro ⟨enforced, -⟩
      exact enforced

/-- A document whose only variable has an empty `expected` map. -/
def emptyExpectedDocument : Yaml :=
  .map [
    ("service", .scalar "svc"),
    ("vars", .seq [
      .map [
        ("var", .scalar "x"),
        ("size", .scalar "8"),
        ("expected", .map [])]])]

/-- An empty constraint map is accepted though the schema asks for an entry. -/
theorem empty_expected_accepted :
    ¬ ∀ root : Yaml, DecidesSchema root := by
  intro allDecided
  have conforms :=
    (allDecided emptyExpectedDocument).mp (by decide)
  exact absurd conforms (by unfold ProtocolSchema.Conforms; decide)

end TsnGen
