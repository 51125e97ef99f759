import TsnGen.StackRuntime

namespace TsnGen

/-!
# The interface of a stack layer

A stack layer names a service and, optionally, an entity and an interface.  The
session resolves it by building a key or a key's beginning and searching the
interface database in key order.  Names without a colon can be read off a
qualified key again, so that both searches are compared here with the
interfaces that the layer means.
-/

/-- A name that may stand between the separators of a qualified key. -/
structure IsPart
    (name : String) : Prop where
  nonempty : name ≠ ""
  colonFree : ':' ∉ name.toList

instance
    (name : String) :
    Decidable (IsPart name) :=
  decidable_of_iff (name ≠ "" ∧ ':' ∉ name.toList)
    ⟨fun part => ⟨part.1, part.2⟩,
      fun part => ⟨part.nonempty, part.colonFree⟩⟩

/-- The key of an interface: its service, entity and own name. -/
def qualifiedKey
    (service entity interface : String) : String :=
  service ++ "::" ++ entity ++ "::" ++ interface

/-- Every key of the database consists of three parts. -/
def KeysQualified
    (interfaceDb : Database ProtocolInterface) : Prop :=
  ∀ entry ∈ interfaceDb.entries,
    ∃ service entity interface,
      IsPart service ∧ IsPart entity ∧ IsPart interface ∧
        entry.1 = qualifiedKey service entity interface

/-- The names of a layer are free of the separator's character. -/
structure NamesColonFree
    (layer : StackLayer) : Prop where
  service : ':' ∉ layer.serviceName.toList
  entity : ':' ∉ layer.entityName.toList
  interface : ':' ∉ layer.interfaceName.toList

/--
The interfaces a layer means: those of its service, of its entity if it names
one, and of its interface name if it writes one.
-/
def Selects
    (layer : StackLayer)
    (key : String) : Prop :=
  ∃ service entity interface,
    IsPart service ∧ IsPart entity ∧ IsPart interface ∧
      key = qualifiedKey service entity interface ∧
        service = layer.serviceName ∧
          (layer.entityName ≠ "" → entity = layer.entityName) ∧
            (layer.interfaceName ≠ "" → interface = layer.interfaceName)

theorem toList_qualifiedKey
    (service entity interface : String) :
    (qualifiedKey service entity interface).toList =
      service.toList ++ ':' :: ':' ::
        (entity.toList ++ ':' :: ':' :: interface.toList) := by
  simp [qualifiedKey, String.toList_append]

/-- Lists without a letter are told apart in front of its first occurrence. -/
theorem append_cons_inj_of_free
    {letter : α}
    {first second firstRest secondRest : List α}
    (firstFree : letter ∉ first)
    (secondFree : letter ∉ second)
    (same : first ++ letter :: firstRest = second ++ letter :: secondRest) :
    first = second ∧ firstRest = secondRest := by
  induction first generalizing second with
  | nil =>
      cases second with
      | nil =>
          exact ⟨rfl, by simpa using same⟩
      | cons head rest =>
          simp only [List.nil_append, List.cons_append,
            List.cons.injEq] at same
          exact absurd (same.1 ▸ List.mem_cons_self) secondFree
  | cons head rest inductionHypothesis =>
      cases second with
      | nil =>
          simp only [List.nil_append, List.cons_append,
            List.cons.injEq] at same
          exact absurd (same.1 ▸ List.mem_cons_self) firstFree
      | cons otherHead otherRest =>
          simp only [List.cons_append, List.cons.injEq] at same
          obtain ⟨sameRest, sameBack⟩ :=
            inductionHypothesis
              (fun member => firstFree (List.mem_cons_of_mem _ member))
              (fun member => secondFree (List.mem_cons_of_mem _ member))
              same.2
          exact ⟨by rw [same.1, sameRest], sameBack⟩

/-- A colon-free name in front of a separator is fixed by the text. -/
theorem eq_of_append_separator
    {first second : String}
    (firstFree : ':' ∉ first.toList)
    (secondFree : ':' ∉ second.toList)
    {firstRest secondRest : List Char}
    (same :
      first.toList ++ ':' :: ':' :: firstRest =
        second.toList ++ ':' :: ':' :: secondRest) :
    first = second ∧ firstRest = secondRest := by
  obtain ⟨sameFront, sameBack⟩ :=
    append_cons_inj_of_free firstFree secondFree same
  exact ⟨String.toList_inj.mp sameFront, (List.cons.inj sameBack).2⟩

/-- The parts of a key are fixed by the key. -/
theorem qualifiedKey_inj
    {service entity interface : String}
    {otherService otherEntity otherInterface : String}
    (serviceFree : ':' ∉ service.toList)
    (entityFree : ':' ∉ entity.toList)
    (otherServiceFree : ':' ∉ otherService.toList)
    (otherEntityFree : ':' ∉ otherEntity.toList)
    (same :
      qualifiedKey service entity interface =
        qualifiedKey otherService otherEntity otherInterface) :
    service = otherService ∧ entity = otherEntity ∧
      interface = otherInterface := by
  have sameText := congrArg String.toList same
  rw [toList_qualifiedKey, toList_qualifiedKey] at sameText
  obtain ⟨sameService, sameRest⟩ :=
    eq_of_append_separator serviceFree otherServiceFree sameText
  obtain ⟨sameEntity, sameInterface⟩ :=
    eq_of_append_separator entityFree otherEntityFree sameRest
  exact ⟨sameService, sameEntity, String.toList_inj.mp sameInterface⟩

section Keys

variable
    {service entity interface : String}
    (serviceFree : ':' ∉ service.toList)

include serviceFree

/-- A key starts with a colon-free service name if it is that service's. -/
theorem startsWith_service_iff
    {wanted : String}
    (wantedFree : ':' ∉ wanted.toList) :
    startsWith (qualifiedKey service entity interface)
        (wanted ++ "::") = true ↔
      service = wanted := by
  rw [startsWith, List.isPrefixOf_iff_prefix, toList_qualifiedKey]
  constructor
  · rintro ⟨rest, same⟩
    rw [String.toList_append, List.append_assoc] at same
    exact (eq_of_append_separator wantedFree serviceFree same).1.symm
  · rintro rfl
    refine ⟨entity.toList ++ ':' :: ':' :: interface.toList, ?_⟩
    rw [String.toList_append, List.append_assoc]
    rfl

/-- A key starts with a service and an entity if it is of both. -/
theorem startsWith_entity_iff
    (entityFree : ':' ∉ entity.toList)
    {wanted wantedEntity : String}
    (wantedFree : ':' ∉ wanted.toList)
    (wantedEntityFree : ':' ∉ wantedEntity.toList) :
    startsWith (qualifiedKey service entity interface)
        (wanted ++ "::" ++ wantedEntity ++ "::") = true ↔
      service = wanted ∧ entity = wantedEntity := by
  have spelled :
      (wanted ++ "::" ++ wantedEntity ++ "::").toList =
        wanted.toList ++ ':' :: ':' :: (wantedEntity.toList ++ [':', ':']) := by
    simp [String.toList_append]
  rw [startsWith, List.isPrefixOf_iff_prefix, toList_qualifiedKey, spelled]
  constructor
  · rintro ⟨rest, same⟩
    simp only [List.append_assoc, List.cons_append] at same
    obtain ⟨sameService, sameRest⟩ :=
      eq_of_append_separator wantedFree serviceFree same
    obtain ⟨sameEntity, -⟩ :=
      eq_of_append_separator wantedEntityFree entityFree sameRest
    exact ⟨sameService.symm, sameEntity.symm⟩
  · rintro ⟨rfl, rfl⟩
    exact ⟨interface.toList, by simp⟩

end Keys

/-- The first match of a sorted list has the smallest key of all matches. -/
theorem find?_smallest
    [LinearOrder κ]
    {entries : List (κ × α)}
    (sorted : entries.Pairwise fun first second => first.1 < second.1)
    {wanted : κ × α → Bool}
    {entry : κ × α}
    (found : entries.find? wanted = some entry) :
    ∀ other ∈ entries, wanted other = true → entry.1 ≤ other.1 := by
  obtain ⟨-, before, behind, rfl, refused⟩ :=
    List.find?_eq_some_iff_append.mp found
  intro other member isWanted
  rcases List.mem_append.mp member with inFront | inRest
  · have notWanted := refused other inFront
    simp [isWanted] at notWanted
  · rcases List.mem_cons.mp inRest with isEntry | isBehind
    · rw [isEntry]
    · have afterEntry := (List.pairwise_append.mp sorted).2.1
      exact le_of_lt ((List.pairwise_cons.mp afterEntry).1 other isBehind)

/-- What a search without an interface name looks for at a key's beginning. -/
def searchedStart
    (layer : StackLayer) : String :=
  if layer.entityName = "" then
    layer.serviceName ++ "::"
  else
    layer.serviceName ++ "::" ++ layer.entityName ++ "::"

/--
A layer is resolved rightly when it gets no interface if it means none, and
otherwise the one of smallest key among those it means.
-/
structure ResolvedRightly
    (session : Session)
    (layer : StackLayer) : Prop where
  none_if_none :
    (∀ entry ∈ session.interfaceDb.entries, ¬ Selects layer entry.1) →
      session.interfaceForLayer layer = none
  smallest_if_some :
    (∃ entry ∈ session.interfaceDb.entries, Selects layer entry.1) →
      ∃ entry ∈ session.interfaceDb.entries,
        Selects layer entry.1 ∧
          (∀ other ∈ session.interfaceDb.entries,
            Selects layer other.1 → entry.1 ≤ other.1) ∧
            session.interfaceForLayer layer = some entry.2

section Resolution

variable
    {session : Session}
    {layer : StackLayer}
    (keys : KeysQualified session.interfaceDb)
    (names : NamesColonFree layer)

include keys names

/-- Without an interface name the searched beginning is what is meant. -/
theorem selects_iff_startsWith
    (unnamed : layer.interfaceName = "")
    {entry : String × ProtocolInterface}
    (member : entry ∈ session.interfaceDb.entries) :
    Selects layer entry.1 ↔
      startsWith entry.1 (searchedStart layer) = true := by
  obtain ⟨service, entity, interface, servicePart, entityPart,
    interfacePart, isKey⟩ := keys entry member
  rw [isKey, searchedStart]
  split
  next anyEntity =>
    rw [startsWith_service_iff servicePart.colonFree names.service]
    constructor
    · rintro ⟨otherService, otherEntity, otherInterface, otherServicePart,
        otherEntityPart, -, same, isService, -, -⟩
      obtain ⟨sameService, -, -⟩ :=
        qualifiedKey_inj servicePart.colonFree entityPart.colonFree
          otherServicePart.colonFree otherEntityPart.colonFree same
      exact sameService.trans isService
    · intro isService
      exact ⟨service, entity, interface, servicePart, entityPart,
        interfacePart, rfl, isService,
        fun named => absurd anyEntity named,
        fun named => absurd unnamed named⟩
  next oneEntity =>
    rw [startsWith_entity_iff servicePart.colonFree entityPart.colonFree
      names.service names.entity]
    constructor
    · rintro ⟨otherService, otherEntity, otherInterface, otherServicePart,
        otherEntityPart, -, same, isService, isEntity, -⟩
      obtain ⟨sameService, sameEntity, -⟩ :=
        qualifiedKey_inj servicePart.colonFree entityPart.colonFree
          otherServicePart.colonFree otherEntityPart.colonFree same
      exact ⟨sameService.trans isService,
        sameEntity.trans (isEntity oneEntity)⟩
    · rintro ⟨isService, isEntity⟩
      exact ⟨service, entity, interface, servicePart, entityPart,
        interfacePart, rfl, isService, fun _ => isEntity,
        fun named => absurd unnamed named⟩

/-- Without an interface name the search finds the smallest meant key. -/
theorem resolvedRightly_of_unnamed
    (unnamed : layer.interfaceName = "") :
    ResolvedRightly session layer := by
  have means :=
    fun entry (member : entry ∈ session.interfaceDb.entries) =>
      selects_iff_startsWith keys names unnamed member
  have searched :
      session.interfaceForLayer layer =
        (session.interfaceDb.entries.find? fun entry =>
          startsWith entry.1 (searchedStart layer)).map Prod.snd := by
    rw [Session.interfaceForLayer, if_neg (not_not.mpr unnamed)]
    rfl
  constructor
  · intro nothing
    rw [searched, Option.map_eq_none_iff, List.find?_eq_none]
    intro entry member
    rw [← means entry member]
    exact nothing entry member
  · rintro ⟨entry, member, meant⟩
    cases found : session.interfaceDb.entries.find? fun entry =>
        startsWith entry.1 (searchedStart layer) with
    | none =>
        rw [List.find?_eq_none] at found
        exact absurd ((means entry member).mp meant) (found entry member)
    | some first =>
        have firstMember := List.mem_of_find?_eq_some found
        have firstStarts :
            startsWith first.1 (searchedStart layer) = true :=
          List.find?_some (p := fun entry : String × ProtocolInterface =>
            startsWith entry.1 (searchedStart layer)) found
        refine ⟨first, firstMember,
          (means first firstMember).mpr firstStarts, ?_, ?_⟩
        · intro other otherMember otherMeant
          exact find?_smallest session.interfaceDb.internalMaps.sorted found
            other otherMember ((means other otherMember).mp otherMeant)
        · rw [searched, found]
          rfl

/-- With both names written there is one key, and it is looked up. -/
theorem resolvedRightly_of_entity
    (named : layer.interfaceName ≠ "")
    (oneEntity : layer.entityName ≠ "") :
    ResolvedRightly session layer := by
  have lookedUp :
      session.interfaceForLayer layer =
        session.interfaceDb.getElement
          (qualifiedKey layer.serviceName layer.entityName
            layer.interfaceName) := by
    rw [Session.interfaceForLayer, if_pos named]
    rfl
  have meantKey :
      ∀ {key : String}, Selects layer key →
        key =
          qualifiedKey layer.serviceName layer.entityName
            layer.interfaceName := by
    rintro key ⟨service, entity, interface, -, -, -, isKey, isService,
      isEntity, isInterface⟩
    rw [isKey, isService, isEntity oneEntity, isInterface named]
  constructor
  · intro nothing
    rw [lookedUp]
    cases found :
        session.interfaceDb.getElement
          (qualifiedKey layer.serviceName layer.entityName
            layer.interfaceName) with
    | none =>
        rfl
    | some iface =>
        have member := Database.mem_of_getElement_eq_some found
        obtain ⟨service, entity, interface, servicePart, entityPart,
          interfacePart, isKey⟩ := keys _ member
        obtain ⟨sameService, sameEntity, sameInterface⟩ :=
          qualifiedKey_inj names.service names.entity
            servicePart.colonFree entityPart.colonFree isKey
        exact absurd
          ⟨service, entity, interface, servicePart, entityPart,
            interfacePart, isKey, sameService.symm,
            fun _ => sameEntity.symm, fun _ => sameInterface.symm⟩
          (nothing _ member)
  · rintro ⟨entry, member, meant⟩
    refine ⟨entry, member, meant, ?_, ?_⟩
    · intro other _ otherMeant
      exact le_of_eq ((meantKey meant).trans (meantKey otherMeant).symm)
    · rw [lookedUp, ← meantKey meant]
      exact OrderedMap.find?_eq_some_iff.mpr member

/-- An interface named without its entity is never found. -/
theorem interfaceForLayer_without_entity
    (named : layer.interfaceName ≠ "")
    (anyEntity : layer.entityName = "") :
    session.interfaceForLayer layer = none := by
  rw [Session.interfaceForLayer, if_pos named, anyEntity]
  cases found :
      session.interfaceDb.getElement
        (layer.serviceName ++ "::" ++ "" ++ "::" ++ layer.interfaceName) with
  | none =>
      rfl
  | some iface =>
      obtain ⟨service, entity, interface, servicePart, entityPart, -,
        isKey⟩ := keys _ (Database.mem_of_getElement_eq_some found)
      have noEntity : ':' ∉ "".toList := by
        simp
      obtain ⟨-, sameEntity, -⟩ :=
        qualifiedKey_inj names.service noEntity
          servicePart.colonFree entityPart.colonFree isKey
      exact absurd sameEntity.symm entityPart.nonempty

end Resolution

/--
A layer is resolved rightly exactly where it names its entity, or writes no
interface, or means no interface at all.
-/
theorem resolvedRightly_iff
    {session : Session}
    {layer : StackLayer}
    (keys : KeysQualified session.interfaceDb)
    (names : NamesColonFree layer) :
    ResolvedRightly session layer ↔
      layer.entityName ≠ "" ∨ layer.interfaceName = "" ∨
        ∀ entry ∈ session.interfaceDb.entries, ¬ Selects layer entry.1 := by
  constructor
  · intro rightly
    by_contra other
    push Not at other
    obtain ⟨anyEntity, named, entry, member, meant⟩ := other
    obtain ⟨first, -, -, -, resolved⟩ :=
      rightly.smallest_if_some ⟨entry, member, meant⟩
    rw [interfaceForLayer_without_entity keys names named anyEntity]
      at resolved
    cases resolved
  · rintro (oneEntity | unnamed | nothing)
    · by_cases unnamed : layer.interfaceName = ""
      · exact resolvedRightly_of_unnamed keys names unnamed
      · exact resolvedRightly_of_entity keys names unnamed oneEntity
    · exact resolvedRightly_of_unnamed keys names unnamed
    · by_cases unnamed : layer.interfaceName = ""
      · exact resolvedRightly_of_unnamed keys names unnamed
      · by_cases oneEntity : layer.entityName = ""
        · constructor
          · intro _
            exact interfaceForLayer_without_entity keys names unnamed
              oneEntity
          · rintro ⟨entry, member, meant⟩
            exact absurd meant (nothing entry member)
        · exact resolvedRightly_of_entity keys names unnamed oneEntity

/-- An interface without variables. -/
def portInterface
    (name : String) : ProtocolInterface where
  name := qualifiedKey "mac" "port" name
  direction := .IN
  varRefs := []

/-- A session with two interfaces of one entity. -/
def twoWaySession : Session where
  varDb := .empty
  interfaceDb :=
    ["rx", "tx"].foldl
      (fun interfaceDb name =>
        (interfaceDb.addUniqueElement (portInterface name).name
          (portInterface name)).2)
      .empty
  serviceDb := .empty

/-- A layer of that session's service. -/
def macLayer
    (entityName interfaceName : String) : StackLayer where
  serviceName := "mac"
  entityName := entityName
  interfaceName := interfaceName
  logicName := ""
  bypassLogic := false
  logic := .passthrough
  context := .new "mac"

theorem keysQualified_twoWaySession :
    KeysQualified twoWaySession.interfaceDb := by
  have listed :
      twoWaySession.interfaceDb.entries.map Prod.fst =
        ["rx", "tx"].map (qualifiedKey "mac" "port") := by
    decide
  intro entry member
  have key : entry.1 ∈ ["rx", "tx"].map (qualifiedKey "mac" "port") := by
    rw [← listed]
    exact List.mem_map_of_mem member
  obtain ⟨name, named, isKey⟩ := List.mem_map.mp key
  have parts : ∀ name ∈ ["rx", "tx"], IsPart name := by
    decide
  exact ⟨"mac", "port", name, by decide, by decide, parts name named,
    isKey.symm⟩

theorem resolvedRightly_first_interface :
    ResolvedRightly twoWaySession (macLayer "port" "") :=
  (resolvedRightly_iff keysQualified_twoWaySession
    ⟨by decide, by decide, by decide⟩).mpr (Or.inl (by decide))

/-- The interface that is written is there, but the layer gets none. -/
theorem named_interface_not_resolved :
    ¬ ∀ (session : Session) (layer : StackLayer),
      KeysQualified session.interfaceDb →
        NamesColonFree layer → ResolvedRightly session layer := by
  intro always
  have rightly :=
    always twoWaySession (macLayer "" "tx") keysQualified_twoWaySession
      ⟨by decide, by decide, by decide⟩
  have missed :
      twoWaySession.interfaceForLayer (macLayer "" "tx") = none := by
    decide
  obtain ⟨entry, -, -, -, resolved⟩ :=
    rightly.smallest_if_some
      ⟨(qualifiedKey "mac" "port" "tx", portInterface "tx"), by decide,
        "mac", "port", "tx", by decide, by decide, by decide, rfl, rfl,
        fun named => absurd rfl named, fun _ => rfl⟩
  rw [missed] at resolved
  cases resolved

end TsnGen
