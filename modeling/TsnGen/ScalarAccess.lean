import TsnGen.DeclaredElements
import TsnGen.ValidatorCompletion

namespace TsnGen.Protocol

open ProtocolValidator

/-!
# Where the loader takes a text

The loader asks for the keys of a mapping and for the kind of a container, and
it takes the text of a node without asking whether there is one.  Numbers fall
back to a default, so nothing else ends its walk: a document is loaded to its
end exactly if every node whose text is taken is a scalar.
-/

/-- The node has a text. -/
def IsScalar
    (node : Yaml) : Prop :=
  node.text?.isSome = true

instance (node : Yaml) : Decidable (IsScalar node) :=
  inferInstanceAs (Decidable (node.text?.isSome = true))

/-- Nodes below `expected` whose text is taken. -/
def takenFromExpected
    (expected : Yaml) : List Yaml :=
  expected.listed "values" ++
    (expected.child? "value").toList ++
    (match expected.listed "range" with
      | [low, high] => [low, high]
      | _ => []) ++
    (expected.listed "mask").take 1

/-- Nodes of an entry of `vars` whose text is taken. -/
def takenFromVar
    (varItem : Yaml) : List Yaml :=
  match varItem.child? "var" with
  | none => []
  | some nameNode =>
      nameNode :: (varItem.child? "size").toList ++
        (varItem.child? "expected").toList.flatMap takenFromExpected

/-- References of an interface whose text is taken. -/
def takenFromRefs
    (ifItem : Yaml) : List Yaml :=
  match ifItem.child? "vars" with
  | some (.map entries) => entries.map Prod.snd
  | some (.seq items) =>
      items.flatMap fun refItem => (refItem.child? "var_ref").toList
  | _ => []

/-- Nodes of an entry of `interfaces` whose text is taken. -/
def takenFromInterface
    (ifItem : Yaml) : List Yaml :=
  match ifItem.child? "interface" with
  | none => []
  | some nameNode =>
      nameNode :: (ifItem.child? "dir").toList ++ takenFromRefs ifItem

/-- Nodes of an entry of `entities` whose text is taken. -/
def takenFromEntity
    (entityItem : Yaml) : List Yaml :=
  match entityItem.child? "entity" with
  | none => []
  | some nameNode =>
      nameNode ::
        (entityItem.listed "interfaces").flatMap takenFromInterface

/-- Nodes of a document whose text is taken, behind its service name. -/
def takenTexts
    (root : Yaml) : List Yaml :=
  (root.listed "vars").flatMap takenFromVar ++
    (root.listed "entities").flatMap takenFromEntity

/-- A text can be taken from scalars. -/
@[simp] theorem completes_val_iff
    (node : Yaml) :
    Completes node.val ↔ IsScalar node := by
  unfold Yaml.val IsScalar
  cases node.text? with
  | none =>
      simp
  | some text =>
      simp

/-- Where all that follows completes alike, it does not matter what was read. -/
theorem completes_bind_and_iff
    {walk : Except Abort α}
    {next : α → Except Abort β}
    {rest : Prop}
    (alike : ∀ value, Completes (next value) ↔ rest) :
    Completes (walk >>= next) ↔ Completes walk ∧ rest := by
  simp only [completes_bind_iff, alike]
  exact exists_and_right

/-- The walk over a list completes when the texts taken of its items exist. -/
theorem completes_mapM_flatMap_iff
    {walk : Yaml → Except Abort β}
    {taken : Yaml → List Yaml}
    {items : List Yaml}
    (each :
      ∀ item, Completes (walk item) ↔ ∀ node ∈ taken item, IsScalar node) :
    Completes (items.mapM walk) ↔
      ∀ node ∈ items.flatMap taken, IsScalar node := by
  simp only [completes_mapM_iff, each, List.mem_flatMap]
  constructor
  · rintro scalars node ⟨item, member, isTaken⟩
    exact scalars item member node isTaken
  · intro scalars item member node isTaken
    exact scalars node ⟨item, member, isTaken⟩

theorem completes_parseAll_iff
    (nodes : List Yaml) :
    Completes (parseAll nodes) ↔ ∀ node ∈ nodes, IsScalar node := by
  simp only [parseAll, completes_mapM_iff, completes_bind_pure_iff,
    completes_val_iff]

theorem completes_parseValues_iff
    (expected : Yaml) :
    Completes (parseValues expected) ↔
      ∀ node ∈ expected.listed "values", IsScalar node := by
  unfold parseValues
  rcases expected.listed_cases "values" with
    ⟨items, isSeq, isListed⟩ | ⟨other, isListed⟩
  · rw [isSeq, isListed]
    exact completes_parseAll_iff items
  · rw [isListed]
    split
    next items isSeq =>
      exact absurd isSeq (other items)
    next =>
      simp

theorem completes_parseValue_iff
    (expected : Yaml) :
    Completes (parseValue expected) ↔
      ∀ node ∈ (expected.child? "value").toList, IsScalar node := by
  unfold parseValue
  cases expected.child? "value" with
  | none =>
      simp
  | some node =>
      exact completes_parseAll_iff [node]

theorem completes_parseRange_iff
    (expected : Yaml) :
    Completes (parseRange expected) ↔
      ∀ node ∈
        (match expected.listed "range" with
          | [low, high] => [low, high]
          | _ => []),
        IsScalar node := by
  unfold parseRange
  rcases expected.listed_cases "range" with
    ⟨items, isSeq, isListed⟩ | ⟨other, isListed⟩
  · rw [isSeq, isListed]
    match items with
    | [] =>
        simp
    | [_] =>
        simp
    | [low, high] =>
        dsimp only
        rw [completes_bind_and_iff fun _ => completes_bind_pure_iff]
        simp
    | _ :: _ :: _ :: _ =>
        simp
  · rw [isListed]
    split
    next low high isSeq =>
      exact absurd isSeq (other [low, high])
    next =>
      simp

theorem completes_parseMask_iff
    (expected : Yaml) :
    Completes (parseMask expected) ↔
      ∀ node ∈ (expected.listed "mask").take 1, IsScalar node := by
  unfold parseMask
  rcases expected.listed_cases "mask" with
    ⟨items, isSeq, isListed⟩ | ⟨other, isListed⟩
  · rw [isSeq, isListed]
    cases items with
    | nil =>
        simp
    | cons first rest =>
        dsimp only
        rw [completes_bind_pure_iff]
        simp
  · rw [isListed]
    split
    next first rest isSeq =>
      exact absurd isSeq (other (first :: rest))
    next =>
      simp

theorem completes_parseExpected_iff
    (expected : Yaml) :
    Completes (parseExpected expected) ↔
      ∀ node ∈ takenFromExpected expected, IsScalar node := by
  unfold parseExpected
  rw [completes_bind_and_iff fun _ =>
    completes_bind_and_iff fun _ =>
      completes_bind_and_iff fun _ => completes_bind_pure_iff]
  rw [completes_parseValues_iff, completes_parseValue_iff,
    completes_parseRange_iff, completes_parseMask_iff, takenFromExpected,
    List.forall_mem_append, List.forall_mem_append, List.forall_mem_append,
    and_assoc, and_assoc]

theorem completes_parseSize_iff
    (varItem : Yaml) :
    Completes (parseSize varItem) ↔
      ∀ node ∈ (varItem.child? "size").toList, IsScalar node := by
  unfold parseSize
  cases varItem.child? "size" with
  | none =>
      simp
  | some node =>
      dsimp only
      rw [completes_bind_pure_iff]
      simp

theorem completes_parseVar_iff
    (serviceName : String)
    (varItem : Yaml) :
    Completes (parseVar serviceName varItem) ↔
      ∀ node ∈ takenFromVar varItem, IsScalar node := by
  unfold parseVar takenFromVar
  cases varItem.child? "var" with
  | none =>
      simp
  | some nameNode =>
      dsimp only
      rw [List.cons_append, List.forall_mem_cons, List.forall_mem_append,
        ← completes_val_iff, ← completes_parseSize_iff]
      refine completes_bind_and_iff fun _ =>
        completes_bind_and_iff fun _ => ?_
      cases varItem.child? "expected" with
      | none =>
          simp
      | some expected =>
          dsimp only
          rw [completes_bind_pure_iff, completes_parseExpected_iff]
          simp

theorem completes_parseDirection_iff
    (ifItem : Yaml) :
    Completes (parseDirection ifItem) ↔
      ∀ node ∈ (ifItem.child? "dir").toList, IsScalar node := by
  unfold parseDirection
  cases ifItem.child? "dir" with
  | none =>
      simp
  | some node =>
      dsimp only
      rw [completes_bind_pure_iff]
      simp

theorem completes_parseVarRefs_iff
    (serviceName : String)
    (ifItem : Yaml) :
    Completes (parseVarRefs serviceName ifItem) ↔
      ∀ node ∈ takenFromRefs ifItem, IsScalar node := by
  unfold parseVarRefs takenFromRefs
  cases ifItem.child? "vars" with
  | none =>
      simp
  | some node =>
      cases node with
      | scalar text =>
          simp
      | map entries =>
          dsimp only
          rw [completes_mapM_iff]
          simp only [completes_bind_pure_iff, completes_val_iff,
            List.forall_mem_map]
      | seq items =>
          dsimp only
          rw [completes_bind_pure_iff]
          refine completes_mapM_flatMap_iff fun refItem => ?_
          cases refItem.child? "var_ref" with
          | none =>
              simp
          | some ref =>
              dsimp only
              rw [completes_bind_pure_iff]
              simp

theorem completes_parseInterface_iff
    (serviceName entityName : String)
    (ifItem : Yaml) :
    Completes (parseInterface serviceName entityName ifItem) ↔
      ∀ node ∈ takenFromInterface ifItem, IsScalar node := by
  unfold parseInterface takenFromInterface
  cases ifItem.child? "interface" with
  | none =>
      simp
  | some nameNode =>
      dsimp only
      rw [completes_bind_and_iff fun _ =>
        completes_bind_and_iff fun _ => completes_bind_pure_iff]
      rw [completes_val_iff, completes_parseDirection_iff,
        completes_parseVarRefs_iff, List.cons_append,
        List.forall_mem_cons, List.forall_mem_append]

theorem completes_declaredByEntity_iff
    (serviceName : String)
    (entityItem : Yaml) :
    Completes (declaredByEntity serviceName entityItem) ↔
      ∀ node ∈ takenFromEntity entityItem, IsScalar node := by
  unfold declaredByEntity takenFromEntity
  cases entityItem.child? "entity" with
  | none =>
      simp
  | some nameNode =>
      dsimp only
      rw [List.forall_mem_cons, ← completes_val_iff]
      refine completes_bind_and_iff fun entityName => ?_
      rw [completes_bind_pure_iff]
      refine completes_mapM_flatMap_iff fun ifItem => ?_
      rw [declaredByInterface, completes_bind_pure_iff]
      exact completes_parseInterface_iff serviceName entityName ifItem

/-- A document declares something exactly if all its taken texts exist. -/
theorem completes_declarations_iff
    (serviceName : String)
    (root : Yaml) :
    Completes (declarations serviceName root) ↔
      ∀ node ∈ takenTexts root, IsScalar node := by
  unfold declarations takenTexts
  rw [completes_bind_and_iff fun _ => completes_bind_pure_iff,
    List.forall_mem_append]
  refine and_congr ?_ ?_
  · rw [declaredVars, completes_bind_pure_iff]
    refine completes_mapM_flatMap_iff fun varItem => ?_
    rw [declaredByVar, completes_bind_pure_iff]
    exact completes_parseVar_iff serviceName varItem
  · rw [declaredInterfaces, completes_bind_pure_iff]
    exact completes_mapM_flatMap_iff
      (completes_declaredByEntity_iff serviceName)

end TsnGen.Protocol
