import TsnGen.Protocol

namespace TsnGen

/-!
# What a document declares

The loader walks a document and adds elements to a database as it meets them.
Here the two are separated: a document first declares a list of elements, or
its walk aborts, and the list is then added as a whole.  A lookup after that
answers with the database it started from, or else with the first declared
element of the name.
-/

namespace Database

/-- Add elements in order, each under its own name. -/
def addAll
    (keyOf : α → String)
    (database : Database α)
    (elements : List α) : Database α :=
  elements.foldl
    (fun database element =>
      (database.addUniqueElement (keyOf element) element).2)
    database

/-- The first element of a non-empty name. -/
def firstNamed
    (keyOf : α → String)
    (elements : List α)
    (name : String) : Option α :=
  if name = "" then
    none
  else
    elements.find? fun element => keyOf element = name

/-- Databases that answer every lookup alike are equal. -/
theorem ext_getElement
    {first second : Database α}
    (same : ∀ name, first.getElement name = second.getElement name) :
    first = second := by
  obtain ⟨firstMap⟩ := first
  obtain ⟨secondMap⟩ := second
  rw [Database.mk.injEq]
  exact OrderedMap.ext_find? same

@[simp] theorem getElement_empty
    (name : String) :
    (empty : Database α).getElement name = none :=
  rfl

/-- Adding one element changes the answer for its name, if it had none. -/
theorem getElement_addUniqueElement
    (database : Database α)
    (added : String)
    (element : α)
    (name : String) :
    (database.addUniqueElement added element).2.getElement name =
      (database.getElement name).or
        (if name = added ∧ name ≠ "" then some element else none) := by
  unfold addUniqueElement
  split
  next unnamed =>
    have skipped : ¬ (name = added ∧ name ≠ "") := by
      rintro ⟨rfl, named⟩
      exact named unnamed
    rw [if_neg skipped, Option.or_none]
  next named =>
    split
    next present =>
      by_cases isAdded : name = added
      · obtain ⟨stored, found⟩ := Option.isSome_iff_exists.mp present
        rw [isAdded, getElement, found, Option.some_or]
      · simp [isAdded]
    next absent =>
      rw [getElement, OrderedMap.find?_emplace]
      by_cases isAdded : name = added
      · simp [isAdded, named, getElement]
      · simp [isAdded, getElement]

theorem addAll_append
    (keyOf : α → String)
    (database : Database α)
    (first second : List α) :
    database.addAll keyOf (first ++ second) =
      (database.addAll keyOf first).addAll keyOf second :=
  List.foldl_append

/-- The first element added under a fresh name is the one that stays. -/
theorem getElement_addAll
    (keyOf : α → String)
    (database : Database α)
    (elements : List α)
    (name : String) :
    (database.addAll keyOf elements).getElement name =
      (database.getElement name).or (firstNamed keyOf elements name) := by
  unfold addAll
  induction elements generalizing database with
  | nil =>
      simp [firstNamed]
  | cons element rest inductionHypothesis =>
      rw [List.foldl_cons, inductionHypothesis,
        getElement_addUniqueElement, Option.or_assoc]
      congr 1
      unfold firstNamed
      by_cases unnamed : name = ""
      · simp [unnamed]
      · by_cases isFirst : keyOf element = name
        · simp [unnamed, isFirst]
        · simp [unnamed, isFirst, Ne.symm isFirst]

/-- Of elements with distinct names every one is found. -/
theorem firstNamed_of_nodup
    {keyOf : α → String}
    {elements : List α}
    (distinct : (elements.map keyOf).Nodup)
    {element : α}
    (member : element ∈ elements)
    (named : keyOf element ≠ "") :
    firstNamed keyOf elements (keyOf element) = some element := by
  rw [firstNamed, if_neg named]
  induction elements with
  | nil =>
      simp at member
  | cons head rest inductionHypothesis =>
      rw [List.map_cons, List.nodup_cons] at distinct
      rcases List.mem_cons.mp member with rfl | inRest
      · simp
      · have other : keyOf head ≠ keyOf element := by
          intro same
          exact distinct.1 (List.mem_map.mpr ⟨element, inRest, same.symm⟩)
        simpa [other] using inductionHypothesis distinct.2 inRest

/-- Elements leave something behind exactly if one of them has a name. -/
theorem entries_addAll_ne_nil_iff
    {keyOf : α → String}
    {elements : List α} :
    ((empty : Database α).addAll keyOf elements).entries ≠ [] ↔
      ∃ element ∈ elements, keyOf element ≠ "" := by
  constructor
  · intro anyEntry
    obtain ⟨⟨name, stored⟩, member⟩ := List.exists_mem_of_ne_nil _ anyEntry
    have found := OrderedMap.find?_eq_some_iff.mpr member
    have first := getElement_addAll keyOf empty elements name
    rw [getElement, found, getElement_empty, Option.none_or] at first
    unfold firstNamed at first
    split at first
    next =>
      cases first
    next named =>
      have hasName : keyOf stored = name := by
        simpa using List.find?_some first.symm
      exact ⟨stored, List.mem_of_find?_eq_some first.symm, hasName ▸ named⟩
  · rintro ⟨element, member, named⟩
    have found :
        (firstNamed keyOf elements (keyOf element)).isSome = true := by
      rw [firstNamed, if_neg named, List.find?_isSome]
      exact ⟨element, member, by simp⟩
    obtain ⟨first, isFirst⟩ := Option.isSome_iff_exists.mp found
    have stored := getElement_addAll keyOf empty elements (keyOf element)
    rw [isFirst, getElement_empty, Option.none_or] at stored
    exact List.ne_nil_of_mem (mem_of_getElement_eq_some stored)

end Database

/--
A walk that adds what each item declares adds the declarations of all items.
-/
theorem foldlM_addAll
    {keyOf : α → String}
    {step : Database α → Yaml → Except Abort (Database α)}
    {declare : Yaml → Except Abort (List α)}
    (stepAdds :
      ∀ database item,
        step database item = do
          let declared ← declare item
          return database.addAll keyOf declared)
    (database : Database α)
    (items : List Yaml) :
    items.foldlM step database = do
      let declared ← items.mapM declare
      return database.addAll keyOf declared.flatten := by
  induction items generalizing database with
  | nil =>
      rfl
  | cons item rest inductionHypothesis =>
      rw [List.foldlM_cons, stepAdds, List.mapM_cons]
      simp only [inductionHypothesis, bind_assoc, pure_bind,
        List.flatten_cons, Database.addAll_append]

/-- The databases of a parser that has loaded nothing. -/
def Session.empty : Session where
  varDb := .empty
  interfaceDb := .empty
  serviceDb := .empty

namespace Protocol

/-- The variables that one entry of `vars` declares. -/
def declaredByVar
    (serviceName : String)
    (varItem : Yaml) : Except Abort (List Var) := do
  let var ← parseVar serviceName varItem
  return var.toList

/-- The variables that a document declares, in document order. -/
def declaredVars
    (serviceName : String)
    (root : Yaml) : Except Abort (List Var) := do
  let declared ← (root.listed "vars").mapM (declaredByVar serviceName)
  return declared.flatten

/-- The interfaces that one entry of `interfaces` declares. -/
def declaredByInterface
    (serviceName entityName : String)
    (ifItem : Yaml) : Except Abort (List ProtocolInterface) := do
  let iface ← parseInterface serviceName entityName ifItem
  return iface.toList

/-- The interfaces that one entry of `entities` declares. -/
def declaredByEntity
    (serviceName : String)
    (entityItem : Yaml) : Except Abort (List ProtocolInterface) :=
  match entityItem.child? "entity" with
  | none => return []
  | some nameNode => do
      let entityName ← nameNode.val
      let declared ←
        (entityItem.listed "interfaces").mapM
          (declaredByInterface serviceName entityName)
      return declared.flatten

/-- The interfaces that a document declares, in document order. -/
def declaredInterfaces
    (serviceName : String)
    (root : Yaml) : Except Abort (List ProtocolInterface) := do
  let declared ← (root.listed "entities").mapM (declaredByEntity serviceName)
  return declared.flatten

/-- The service that a document declares. -/
def declaredService
    (serviceName : String)
    (root : Yaml) : ProtocolService where
  name := serviceName
  logicName := ((root.child? "logic").bind Yaml.text?).getD ""

/-- Loading the variables adds the declared ones. -/
theorem getParsedProtocolVars_eq
    (serviceName : String)
    (root : Yaml)
    (varDb : Database Var) :
    getParsedProtocolVars serviceName root varDb = do
      let vars ← declaredVars serviceName root
      return varDb.addAll Var.name vars := by
  unfold getParsedProtocolVars declaredVars
  rcases root.listed_cases "vars" with
    ⟨items, isSeq, isListed⟩ | ⟨other, isListed⟩
  · simp only [isSeq, isListed, bind_assoc, pure_bind]
    refine foldlM_addAll (fun varDb varItem => ?_) varDb items
    rw [declaredByVar]
    cases parseVar serviceName varItem with
    | error reason =>
        rfl
    | ok var =>
        cases var with
        | none =>
            rfl
        | some var =>
            rfl
  · rw [isListed]
    split
    next items isSeq =>
      exact absurd isSeq (other items)
    next =>
      rfl

/-- Loading the interfaces of an entity adds the declared ones. -/
theorem parseEntity_eq
    (serviceName : String)
    (interfaceDb : Database ProtocolInterface)
    (entityItem : Yaml) :
    parseEntity serviceName interfaceDb entityItem = do
      let ifaces ← declaredByEntity serviceName entityItem
      return interfaceDb.addAll ProtocolInterface.name ifaces := by
  unfold parseEntity declaredByEntity
  cases entityItem.child? "entity" with
  | none =>
      rfl
  | some nameNode =>
      simp only [bind_assoc]
      congr 1
      funext entityName
      rcases entityItem.listed_cases "interfaces" with
        ⟨items, isSeq, isListed⟩ | ⟨other, isListed⟩
      · simp only [isSeq, isListed, pure_bind]
        refine foldlM_addAll (fun interfaceDb ifItem => ?_)
          interfaceDb items
        rw [declaredByInterface]
        cases parseInterface serviceName entityName ifItem with
        | error reason =>
            rfl
        | ok iface =>
            cases iface with
            | none =>
                rfl
            | some iface =>
                rfl
      · rw [isListed]
        split
        next items isSeq =>
          exact absurd isSeq (other items)
        next =>
          rfl

/-- Loading the interfaces adds the declared ones. -/
theorem getParsedProtocolInterface_eq
    (serviceName : String)
    (root : Yaml)
    (interfaceDb : Database ProtocolInterface) :
    getParsedProtocolInterface serviceName root interfaceDb = do
      let ifaces ← declaredInterfaces serviceName root
      return interfaceDb.addAll ProtocolInterface.name ifaces := by
  unfold getParsedProtocolInterface declaredInterfaces
  rcases root.listed_cases "entities" with
    ⟨items, isSeq, isListed⟩ | ⟨other, isListed⟩
  · simp only [isSeq, isListed, bind_assoc, pure_bind]
    exact foldlM_addAll (parseEntity_eq serviceName) interfaceDb items
  · rw [isListed]
    split
    next items isSeq =>
      exact absurd isSeq (other items)
    next =>
      rfl

/-- Loading the service adds the declared one. -/
theorem getParsedProtocolService_eq
    (serviceName : String)
    (root : Yaml)
    (serviceDb : Database ProtocolService) :
    getParsedProtocolService serviceName root serviceDb =
      serviceDb.addAll ProtocolService.name
        [declaredService serviceName root] :=
  rfl

/-- All that a document declares. -/
structure Declarations where
  vars : List Var
  interfaces : List ProtocolInterface
  services : List ProtocolService

/-- Add declarations to the databases of a session. -/
def Declarations.addTo
    (declarations : Declarations)
    (session : Session) : Session where
  varDb := session.varDb.addAll Var.name declarations.vars
  interfaceDb :=
    session.interfaceDb.addAll ProtocolInterface.name
      declarations.interfaces
  serviceDb :=
    session.serviceDb.addAll ProtocolService.name declarations.services

/-- What a document declares, behind its service name. -/
def declarations
    (serviceName : String)
    (root : Yaml) : Except Abort Declarations := do
  let vars ← declaredVars serviceName root
  let interfaces ← declaredInterfaces serviceName root
  return {
    vars := vars
    interfaces := interfaces
    services := [declaredService serviceName root] }

/-- Loading a document with a usable service adds its declarations. -/
theorem parseProtocolFile_eq
    {isNumber : String → Bool}
    {root : Yaml}
    {serviceName : String}
    (named : getProtocolName isNumber root = .ok serviceName)
    (session : Session) :
    parseProtocolFile isNumber root session = do
      let declared ← declarations serviceName root
      return (.success, declared.addTo session) := by
  have isMap : root.isMap = true := by
    cases root with
    | map entries =>
        rfl
    | scalar text =>
        simp [getProtocolName, Yaml.child?] at named
    | seq items =>
        simp [getProtocolName, Yaml.child?] at named
  unfold parseProtocolFile declarations
  rw [if_pos isMap, named]
  simp only [getParsedProtocolVars_eq, getParsedProtocolInterface_eq,
    getParsedProtocolService_eq, bind_assoc, pure_bind]
  rfl

end Protocol

end TsnGen
