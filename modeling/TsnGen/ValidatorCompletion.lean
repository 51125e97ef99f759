import TsnGen.Validator

namespace TsnGen.ProtocolValidator

/-!
# When validation completes

The protocol walk has two unguarded accesses.  A width is checked with
`std::stoull` and then converted with `std::stoll`, which throws beyond the
signed range; and the direction of an interface is read without asking whether
it is a scalar.  All other accesses are guarded, so a walk completes exactly
when neither of the two is reached on a bad node.
-/

/-- The walk ends with a result. -/
def Completes
    (walk : Except Abort α) : Prop :=
  ∃ result, walk = .ok result

@[simp] theorem completes_pure
    (result : α) :
    Completes (pure result) :=
  ⟨result, rfl⟩

@[simp] theorem completes_ok
    (result : α) :
    Completes (.ok result) :=
  ⟨result, rfl⟩

@[simp] theorem not_completes_error
    (reason : Abort) :
    ¬ Completes (.error reason : Except Abort α) := by
  rintro ⟨result, failed⟩
  cases failed

/-- A walk completes when its first step does and leads on to completion. -/
@[simp] theorem completes_bind_iff
    {walk : Except Abort α}
    {next : α → Except Abort β} :
    Completes (walk >>= next) ↔
      ∃ value, walk = .ok value ∧ Completes (next value) := by
  simp only [Completes, bind_eq_ok_iff]
  constructor
  · rintro ⟨result, value, isValue, isResult⟩
    exact ⟨value, isValue, result, isResult⟩
  · rintro ⟨value, isValue, result, isResult⟩
    exact ⟨result, value, isValue, isResult⟩

/-- The walk over a list completes when it does on every item. -/
theorem completes_mapM_iff
    {walk : α → Except Abort β}
    {items : List α} :
    Completes (items.mapM walk) ↔ ∀ item ∈ items, Completes (walk item) := by
  induction items with
  | nil =>
      simp
  | cons item rest inductionHypothesis =>
      rw [List.mapM_cons, completes_bind_iff, List.forall_mem_cons,
        ← inductionHypothesis]
      constructor
      · rintro ⟨first, isFirst, completed⟩
        obtain ⟨later, isLater, -⟩ := completes_bind_iff.mp completed
        exact ⟨⟨first, isFirst⟩, later, isLater⟩
      · rintro ⟨⟨first, isFirst⟩, later, isLater⟩
        exact ⟨first, isFirst,
          completes_bind_iff.mpr ⟨later, isLater, completes_pure _⟩⟩

/-- Appending to the findings of a walk does not end it. -/
theorem completes_bind_pure_iff
    {walk : Except Abort α}
    {combine : α → β} :
    Completes (walk >>= fun value => pure (combine value)) ↔
      Completes walk := by
  rw [completes_bind_iff]
  constructor
  · rintro ⟨value, isValue, -⟩
    exact ⟨value, isValue⟩
  · rintro ⟨value, isValue⟩
    exact ⟨value, isValue, completes_pure _⟩

/-- A width that reads as an unsigned literal has a signed value. -/
def SizeConverts
    (var : Yaml) : Prop :=
  ∀ size, var.child? "size" = some size →
    isUintScalar (some size) = true →
      ∃ text bits, size.text? = some text ∧ Numeral.stoll text = some bits

/-- A direction, where there is one, is a scalar. -/
def DirIsScalar
    (iface : Yaml) : Prop :=
  ∀ dir, iface.child? "dir" = some dir → ∃ text, dir.text? = some text

/-- Conversion succeeds on scalars inside the signed range. -/
theorem completes_asInt_iff
    (node : Yaml) :
    Completes (asInt node) ↔
      ∃ text bits, node.text? = some text ∧
        Numeral.stoll text = some bits := by
  cases scalar : node.text? with
  | none =>
      simp [asInt, Yaml.val, scalar]
  | some text =>
      cases converted : Numeral.stoll text with
      | none =>
          simp [asInt, Yaml.val, scalar, converted]
      | some bits =>
          simp [asInt, Yaml.val, scalar, converted]

/-- The check of a width completes when its conversion does. -/
theorem completes_validateSize_iff
    (var : Yaml)
    (name : String) :
    Completes (validateSize var name) ↔ SizeConverts var := by
  unfold validateSize SizeConverts
  cases present : var.child? "size" with
  | none =>
      simp
  | some size =>
      by_cases unsigned : isUintScalar (some size) = true
      · simp only [unsigned, ↓reduceIte, completes_bind_pure_iff,
          completes_asInt_iff, Option.some.injEq, forall_eq', forall_const]
      · simp [unsigned]

/-- The check of a direction completes on scalars. -/
theorem completes_validateDir_iff
    (iface : Yaml)
    (name : String) :
    Completes (validateDir iface name) ↔ DirIsScalar iface := by
  unfold validateDir DirIsScalar
  cases present : iface.child? "dir" with
  | none =>
      simp
  | some dir =>
      cases scalar : dir.text? with
      | none =>
          simp [Yaml.val, scalar]
      | some text =>
          simp [Yaml.val, scalar]

/-- Only a mapping has children. -/
theorem child?_eq_none_of_not_isMap
    {node : Yaml}
    (other : node.isMap ≠ true)
    (key : String) :
    node.child? key = none := by
  cases node with
  | map entries =>
      simp [Yaml.isMap] at other
  | scalar text =>
      rfl
  | seq items =>
      rfl

/-- The check of a `vars` entry completes when that of its width does. -/
theorem completes_validateVar_iff
    (var : Yaml) :
    Completes (validateVar var) ↔ SizeConverts var := by
  unfold validateVar
  by_cases isMap : var.isMap = true
  · simp only [isMap, ↓reduceIte, completes_bind_pure_iff,
      completes_validateSize_iff]
  · simp [isMap, SizeConverts, child?_eq_none_of_not_isMap isMap]

/-- The check of an interface completes when that of its direction does. -/
theorem completes_validateInterface_iff
    (iface : Yaml) :
    Completes (validateInterface iface) ↔ DirIsScalar iface := by
  unfold validateInterface
  by_cases isMap : iface.isMap = true
  · simp only [isMap, ↓reduceIte, completes_bind_pure_iff,
      completes_validateDir_iff]
  · simp [isMap, DirIsScalar, child?_eq_none_of_not_isMap isMap]

/-- The check of a list completes when it does on every item. -/
theorem completes_validateEach_iff
    (validate : Yaml → Findings)
    (nodes : List Yaml) :
    Completes (validateEach validate nodes) ↔
      ∀ node ∈ nodes, Completes (validate node) := by
  rw [validateEach, completes_bind_pure_iff, completes_mapM_iff]

/-- The check of an entity completes when it does on every interface. -/
theorem completes_validateEntity_iff
    (entity : Yaml) :
    Completes (validateEntity entity) ↔
      ∀ iface ∈ entity.listed "interfaces", DirIsScalar iface := by
  unfold validateEntity Yaml.listed
  by_cases isMap : entity.isMap = true
  · simp only [isMap, ↓reduceIte]
    cases present : entity.child? "interfaces" with
    | none =>
        simp
    | some ifaces =>
        cases ifaces with
        | scalar text =>
            simp
        | map entries =>
            simp
        | seq items =>
            cases items with
            | nil =>
                simp
            | cons first rest =>
                simp only [completes_bind_pure_iff,
                  completes_validateEach_iff,
                  completes_validateInterface_iff]
  · simp [isMap, child?_eq_none_of_not_isMap isMap]

/-- The check of a top-level list completes when it does on every item. -/
theorem completes_validateList_iff
    (root : Yaml)
    (key : String)
    (validate : Yaml → Findings) :
    Completes (validateList root key validate) ↔
      ∀ item ∈ root.listed key, Completes (validate item) := by
  unfold validateList Yaml.listed
  cases root.child? key with
  | none =>
      simp
  | some node =>
      cases node with
      | scalar text =>
          simp
      | map entries =>
          simp
      | seq items =>
          exact completes_validateEach_iff validate items

/-- Both validations of a document run to completion. -/
def RunsToCompletion
    (root : Yaml) : Prop :=
  Completes (validateProtocolFile root) ∧
    Completes (validateStackFile root)

/-- The stack walk has no unguarded access. -/
theorem completes_validateStackFile
    (root : Yaml) :
    Completes (validateStackFile root) := by
  unfold validateStackFile
  by_cases isMap : root.isMap = true
  · simp only [isMap, ↓reduceIte]
    cases root.child? "layers" with
    | none =>
        exact completes_pure _
    | some layers =>
        cases layers with
        | scalar text =>
            exact completes_pure _
        | map entries =>
            exact completes_pure _
        | seq items =>
            cases items with
            | nil =>
                exact completes_pure _
            | cons first rest =>
                exact completes_pure _
  · simp [isMap]

/--
Validation runs to completion exactly on documents in which every unsigned
width of a variable has a signed value and every direction is a scalar.
-/
theorem runsToCompletion_iff
    (root : Yaml) :
    RunsToCompletion root ↔
      (∀ var ∈ root.listed "vars", SizeConverts var) ∧
        ∀ entity ∈ root.listed "entities",
          ∀ iface ∈ entity.listed "interfaces", DirIsScalar iface := by
  rw [RunsToCompletion, and_iff_left (completes_validateStackFile root)]
  unfold validateProtocolFile
  by_cases isMap : root.isMap = true
  · simp only [isMap, ↓reduceIte]
    rw [completes_bind_iff]
    simp only [completes_bind_pure_iff, ← completes_validateVar_iff,
      ← completes_validateEntity_iff, ← completes_validateList_iff]
    constructor
    · rintro ⟨vars, isVars, entities⟩
      exact ⟨⟨vars, isVars⟩, entities⟩
    · rintro ⟨⟨vars, isVars⟩, entities⟩
      exact ⟨vars, isVars, entities⟩
  · simp [isMap, Yaml.listed, child?_eq_none_of_not_isMap isMap]

/-- A document with a width of `2^63`. -/
def hugeSizeDocument : Yaml :=
  .map [
    ("service", .scalar "svc"),
    ("vars", .seq [
      .map [
        ("var", .scalar "x"),
        ("size", .scalar "0x8000000000000000")]])]

/-- A width that only fits unsigned passes its check and ends the walk. -/
theorem huge_size_throws :
    ¬ ∀ root : Yaml, RunsToCompletion root := by
  intro allComplete
  obtain ⟨⟨findings, completed⟩, -⟩ := allComplete hugeSizeDocument
  have thrown :
      validateProtocolFile hugeSizeDocument = .error .outOfRange := by
    rfl
  rw [thrown] at completed
  cases completed

end TsnGen.ProtocolValidator
