import TsnGen.DirectoryWalk
import TsnGen.LoadedAsWritten

namespace TsnGen

/-!
# Accepted directories in the loader

Several documents share the databases of one session.  The session holds each
of them as it is written unless two of them write one name differently or a
constraint literal is negative: the databases keep the first element of a name,
and a negative literal is stored modulo `2^64`.
-/

namespace Written

/-- The `vars` entries of documents, each with the name of its service. -/
def entries
    (documents : List Yaml) : List (String × Yaml) :=
  documents.flatMap fun root =>
    (root.listed "vars").map fun entry => (root.textOf "service", entry)

/-- No document has a negative constraint literal. -/
def NoneNegative
    (documents : List Yaml) : Prop :=
  ∀ root ∈ documents, ∀ entry ∈ root.listed "vars", NonNegative entry

/-- A name that documents write more than once is written alike each time. -/
structure Unambiguous
    (documents : List Yaml) : Prop where
  services :
    Set.InjOn ProtocolService.name {written | written ∈ documents.map service}
  vars : Set.InjOn Declaration.name {written | written ∈ documents.flatMap vars}
  interfaces :
    Set.InjOn ProtocolInterface.name
      {written | written ∈ documents.flatMap interfaces}

/--
A session holds, under every name, what the first of the documents to write the
name writes, and nothing under the other names.
-/
structure FirstHeldBy
    (documents : List Yaml)
    (session : Session) : Prop where
  services :
    ∀ name,
      session.serviceDb.getElement name =
        (documents.map service).find? fun written => written.name = name
  vars :
    ∀ name,
      (session.varDb.getElement name).map ofVar =
        (documents.flatMap vars).find? fun written => written.name = name
  interfaces :
    ∀ name,
      session.interfaceDb.getElement name =
        (documents.flatMap interfaces).find? fun written =>
          written.name = name

theorem vars_eq_entries
    (documents : List Yaml) :
    documents.flatMap vars =
      (entries documents).map fun entry => varOf entry.1 entry.2 := by
  rw [entries, List.map_flatMap]
  simp only [List.map_map]
  rfl

/-- What holds of all entries holds of the entries of every document. -/
theorem forall_entries_iff
    {documents : List Yaml}
    {holds : Yaml → Prop} :
    (∀ entry ∈ entries documents, holds entry.2) ↔
      ∀ root ∈ documents, ∀ entry ∈ root.listed "vars", holds entry := by
  simp only [entries, List.forall_mem_flatMap, List.forall_mem_map]

end Written

/-- Elements that a lookup finds under their names have one name each. -/
theorem injOn_of_found
    {nameOf : α → String}
    {elements : List α}
    (lookup : String → Option α)
    (found : ∀ element ∈ elements, lookup (nameOf element) = some element) :
    Set.InjOn nameOf {element | element ∈ elements} := by
  intro first inFirst second inSecond sameName
  have isFirst := found first inFirst
  rw [sameName, found second inSecond, Option.some.injEq] at isFirst
  exact isFirst.symm

/-- An element whose name no other one has is the first of its name. -/
theorem find?_name_of_injOn
    {nameOf : α → String}
    {elements : List α}
    (distinct : Set.InjOn nameOf {element | element ∈ elements})
    {element : α}
    (member : element ∈ elements) :
    (elements.find? fun other => nameOf other = nameOf element) =
      some element := by
  cases found : elements.find? fun other => nameOf other = nameOf element with
  | none =>
      simpa using List.find?_eq_none.mp found element member
  | some other =>
      have sameName : nameOf other = nameOf element := by
        simpa using List.find?_some found
      exact congrArg some
        (distinct (List.mem_of_find?_eq_some found) member sameName)

/-- Behind named elements a lookup answers with the first one of the name. -/
theorem Database.getElement_addAll_of_named
    {keyOf : α → String}
    {elements : List α}
    (named : ∀ element ∈ elements, keyOf element ≠ "")
    (name : String) :
    (empty.addAll keyOf elements).getElement name =
      elements.find? fun element => keyOf element = name := by
  rw [getElement_addAll, getElement_empty, Option.none_or, firstNamed]
  split
  next unnamed =>
    rw [eq_comm, List.find?_eq_none]
    intro element member
    simpa [unnamed] using named element member
  next =>
    rfl

namespace Protocol

open Written

/-- A variable can only be what an entry writes without negative literals. -/
theorem nonNegative_of_ofVar
    {serviceName : String}
    {entry : Yaml}
    {var : Var}
    (readable : ReadableVar entry)
    (written : ofVar var = varOf serviceName entry) :
    NonNegative entry := by
  rw [ofVar, varOf, Declaration.mk.injEq] at written
  obtain ⟨-, -, values, range, mask⟩ := written
  have inValues :
      ∀ node ∈ (constraints entry).listed "values" ++
          ((constraints entry).child? "value").toList,
        ∀ value, number? node = some value → 0 ≤ value := by
    intro node member value isValue
    have inList := List.mem_map_of_mem (f := number?) member
    rw [← values, isValue, List.mem_map] at inList
    obtain ⟨stored, -, same⟩ := inList
    rw [← Option.some.inj same]
    exact Int.natCast_nonneg _
  have inRange :
      ∀ node ∈ (constraints entry).listed "range",
        ∀ value, number? node = some value → 0 ≤ value := by
    intro node member value isValue
    have inList := List.mem_map_of_mem (f := number?) member
    rw [← range, isValue] at inList
    cases bounds : var.range with
    | none =>
        simp [bounds] at inList
    | some bounds' =>
        simp only [bounds, List.mem_cons, Option.some.injEq,
          List.not_mem_nil, or_false] at inList
        omega
  have inMask :
      ∀ node ∈ (constraints entry).listed "mask",
        ∀ value, number? node = some value → 0 ≤ value := by
    rcases readable.mask with absent | ⟨bits, present⟩
    · simp [absent]
    · intro node member value isValue
      rw [present, List.mem_singleton] at member
      simp only [present, ← member, isValue, Option.some.injEq] at mask
      omega
  intro literal member
  simp only [ProtocolSchema.literals, List.mem_append] at member
  rcases member with ((isValue | isValue) | isRange) | isMask
  · exact inValues literal (List.mem_append_right _ isValue)
  · exact inValues literal (List.mem_append_left _ isValue)
  · exact inRange literal isRange
  · exact inMask literal isMask

/-- The session that the loader makes of readable documents. -/
def loadedSession
    (documents : List Yaml) : Session :=
  (Declarations.merge (documents.map loadedDeclarations)).addTo .empty

variable {documents : List Yaml}

theorem varDb_loadedSession :
    (loadedSession documents).varDb =
      Database.empty.addAll Var.name
        ((entries documents).map fun entry => loadedVar entry.1 entry.2) := by
  rw [entries, List.map_flatMap]
  simp only [loadedSession, Declarations.addTo, Declarations.merge,
    List.flatMap_map, List.map_map]
  rfl

theorem interfaceDb_loadedSession :
    (loadedSession documents).interfaceDb =
      Database.empty.addAll ProtocolInterface.name
        (documents.flatMap interfaces) := by
  simp only [loadedSession, Declarations.addTo, Declarations.merge,
    List.flatMap_map]
  rfl

theorem serviceDb_loadedSession :
    (loadedSession documents).serviceDb =
      Database.empty.addAll ProtocolService.name
        (documents.map service) := by
  simp only [loadedSession, Declarations.addTo, Declarations.merge,
    List.flatMap_map]
  rw [List.map_eq_flatMap]
  rfl

/-- Behind a service every interface has a name. -/
theorem interfaces_named :
    ∀ written ∈ documents.flatMap interfaces, written.name ≠ "" := by
  intro written member
  obtain ⟨root, -, inRoot⟩ := List.mem_flatMap.mp member
  obtain ⟨entity, -, inEntity⟩ := List.mem_flatMap.mp inRoot
  obtain ⟨iface, -, rfl⟩ := List.mem_map.mp inEntity
  exact qualified_ne_empty _ _

/-- Behind a service every variable has a name. -/
theorem loadedVars_named :
    ∀ var ∈ (entries documents).map fun entry => loadedVar entry.1 entry.2,
      var.name ≠ "" :=
  List.forall_mem_map.mpr fun _ _ => qualified_ne_empty _ _

/-- Without negative literals the first of each name is held as written. -/
theorem firstHeldBy_loadedSession
    (readable : ∀ root ∈ documents, ReadableDocument root)
    (nonNegative : NoneNegative documents) :
    FirstHeldBy documents (loadedSession documents) := by
  refine ⟨?_, ?_, ?_⟩
  · rw [serviceDb_loadedSession]
    exact Database.getElement_addAll_of_named
      (List.forall_mem_map.mpr fun root member => (readable root member).named)
  · intro name
    rw [varDb_loadedSession, vars_eq_entries,
      Database.getElement_addAll_of_named loadedVars_named, List.find?_map,
      List.find?_map, Option.map_map]
    simp only [Function.comp_def]
    have sameName (entry : String × Yaml) :
        (loadedVar entry.1 entry.2).name = (varOf entry.1 entry.2).name :=
      rfl
    simp only [sameName]
    refine Option.map_congr ?_
    intro entry found
    have inEntries := List.mem_of_find?_eq_some found
    exact (ofVar_loadedVar_iff
      (forall_entries_iff.mpr (fun root member => (readable root member).vars)
        entry inEntries) entry.1).mpr
      (forall_entries_iff.mpr nonNegative entry inEntries)
  · rw [interfaceDb_loadedSession]
    exact Database.getElement_addAll_of_named interfaces_named

/--
Every document is held as it is written exactly if no name is written in two
ways and no constraint literal is negative.
-/
theorem forall_heldBy_loadedSession_iff
    (readable : ∀ root ∈ documents, ReadableDocument root) :
    (∀ root ∈ documents, HeldBy root (loadedSession documents)) ↔
      Unambiguous documents ∧ NoneNegative documents := by
  constructor
  · intro held
    refine ⟨⟨?_, ?_, ?_⟩, ?_⟩
    · exact injOn_of_found _
        (List.forall_mem_map.mpr fun root member =>
          (held root member).service)
    · exact injOn_of_found
        (fun name =>
          ((loadedSession documents).varDb.getElement name).map ofVar)
        (List.forall_mem_flatMap.mpr fun root member =>
          (held root member).vars)
    · exact injOn_of_found _
        (List.forall_mem_flatMap.mpr fun root member =>
          (held root member).interfaces)
    · intro root member entry inRoot
      obtain ⟨var, -, written⟩ :=
        Option.map_eq_some_iff.mp
          ((held root member).vars _ (List.mem_map_of_mem inRoot))
      exact nonNegative_of_ofVar ((readable root member).vars entry inRoot)
        written
  · rintro ⟨unambiguous, nonNegative⟩ root member
    have first := firstHeldBy_loadedSession readable nonNegative
    refine ⟨?_, ?_, ?_⟩
    · rw [first.services]
      exact find?_name_of_injOn unambiguous.services
        (List.mem_map_of_mem member)
    · intro written inRoot
      rw [first.vars]
      exact find?_name_of_injOn unambiguous.vars
        (List.mem_flatMap_of_mem member inRoot)
    · intro written inRoot
      rw [first.interfaces]
      exact find?_name_of_injOn unambiguous.interfaces
        (List.mem_flatMap_of_mem member inRoot)

end Protocol

end TsnGen
