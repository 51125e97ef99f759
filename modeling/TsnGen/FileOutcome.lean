import TsnGen.DirectoryWalk

namespace TsnGen.Protocol

/-!
# What a loaded file leaves behind

`Protocol::parseProtocolFile` with its early returns.  Its error variable starts
as success, and opening, measuring and mapping the file return it as it is.  An
error code always leaves the databases alone; a success says that the service
is known only if the file was read, and only if its name may be stored.
-/

/-- How far the loader gets with a file. -/
inductive FileAccess where
  | openFails
  | lseekFails
  | mmapIsNull
  | reads
  deriving Repr, DecidableEq

/-- Load the document of a file, if the file can be read. -/
def parseFile
    (isNumber : String → Bool)
    (access : FileAccess)
    (root : Yaml)
    (session : Session) : Except Abort (ProtocolErr × Session) :=
  match access with
  | .openFails => return (.success, session)
  | .lseekFails => return (.success, session)
  | .mmapIsNull => return (.success, session)
  | .reads => parseProtocolFile isNumber root session

/-- The service that a document declares, whether or not it is of use. -/
def writtenService
    (root : Yaml) : Option String :=
  (root.child? "service").bind Yaml.text?

/-- A file that is not read leaves everything as it is. -/
theorem parseFile_of_unread
    {isNumber : String → Bool}
    {access : FileAccess}
    (unread : access ≠ .reads)
    (root : Yaml)
    (session : Session) :
    parseFile isNumber access root session = .ok (.success, session) := by
  cases access with
  | openFails =>
      rfl
  | lseekFails =>
      rfl
  | mmapIsNull =>
      rfl
  | reads =>
      exact absurd rfl unread

/-- A usable service is the written one. -/
theorem getProtocolName_eq_ok_iff
    {isNumber : String → Bool}
    {root : Yaml}
    {service : String} :
    getProtocolName isNumber root = .ok service ↔
      writtenService root = some service ∧ isNumber service = false := by
  unfold getProtocolName writtenService
  cases root.child? "service" with
  | none =>
      simp
  | some node =>
      cases isText : node.text? with
      | none =>
          simp [isText]
      | some text =>
          simp only [Option.bind_some, isText, Option.some.injEq]
          cases number : isNumber text with
          | true =>
              simp only [if_true, reduceCtorEq, false_iff]
              rintro ⟨rfl, notNumber⟩
              rw [number] at notNumber
              cases notNumber
          | false =>
              simp only [Bool.false_eq_true, if_false, Except.ok.injEq]
              constructor
              · rintro rfl
                exact ⟨rfl, number⟩
              · rintro ⟨same, -⟩
                exact same

/-- Loading a read document ends in one of two ways. -/
theorem parseProtocolFile_eq_ok_cases
    {isNumber : String → Bool}
    {root : Yaml}
    {session loaded : Session}
    {code : ProtocolErr}
    (returned :
      parseProtocolFile isNumber root session = .ok (code, loaded)) :
    (code ≠ .success ∧ loaded = session ∧
        ∀ service, getProtocolName isNumber root ≠ .ok service) ∨
      ∃ service declared,
        getProtocolName isNumber root = .ok service ∧
          declarations service root = .ok declared ∧
            code = .success ∧ loaded = declared.addTo session := by
  cases named : getProtocolName isNumber root with
  | error reason =>
      rw [parseProtocolFile_of_unnamed named] at returned
      cases returned
      left
      refine ⟨?_, rfl, fun service isOk => by cases isOk⟩
      rcases getProtocolName_eq_error named with rfl | rfl
      · decide
      · decide
  | ok service =>
      rw [parseProtocolFile_eq named] at returned
      obtain ⟨declared, isDeclared, isLoaded⟩ := bind_eq_ok_iff.mp returned
      cases isLoaded
      exact Or.inr ⟨service, declared, rfl, isDeclared, rfl, rfl⟩

/-- A document declares its one service. -/
theorem services_of_declarations
    {service : String}
    {root : Yaml}
    {declared : Declarations}
    (isDeclared : declarations service root = .ok declared) :
    declared.services = [declaredService service root] := by
  unfold declarations at isDeclared
  obtain ⟨vars, -, rest⟩ := bind_eq_ok_iff.mp isDeclared
  obtain ⟨interfaces, -, isPure⟩ := bind_eq_ok_iff.mp rest
  cases isPure
  rfl

/-- A loaded document has stored its service, if that has a name. -/
theorem getElement_service_addTo
    {service : String}
    {root : Yaml}
    {declared : Declarations}
    (isDeclared : declarations service root = .ok declared)
    (session : Session) :
    ((declared.addTo session).serviceDb.getElement service).isSome = true ↔
      (session.serviceDb.getElement service).isSome = true ∨
        service ≠ "" := by
  have services := services_of_declarations isDeclared
  have named : (declaredService service root).name = service := rfl
  simp only [Declarations.addTo, Database.getElement_addAll, services,
    Option.isSome_or, Bool.or_eq_true]
  refine or_congr Iff.rfl ?_
  by_cases empty : service = ""
  · simp [Database.firstNamed, empty]
  · simp [Database.firstNamed, empty, named]

/--
What a call promises: an error code leaves the databases alone, and a success
means that the written service is known.
-/
structure Promised
    (root : Yaml)
    (session : Session)
    (code : ProtocolErr)
    (loaded : Session) : Prop where
  error_unchanged : code ≠ .success → loaded = session
  success_known :
    code = .success →
      ∀ service, writtenService root = some service →
        (loaded.serviceDb.getElement service).isSome = true

/-- A success that changes nothing is kept if the service was known before. -/
theorem promised_unchanged_iff
    {root : Yaml}
    {session : Session} :
    Promised root session .success session ↔
      ∀ service, writtenService root = some service →
        (session.serviceDb.getElement service).isSome = true :=
  ⟨fun promised => promised.success_known rfl,
    fun known =>
      ⟨fun isError => absurd rfl isError, fun _ => known⟩⟩

/-- A document that is loaded keeps the promise unless its name is empty. -/
theorem promised_loaded_iff
    {service : String}
    {root : Yaml}
    {declared : Declarations}
    (written : writtenService root = some service)
    (isDeclared : declarations service root = .ok declared)
    (session : Session) :
    Promised root session .success (declared.addTo session) ↔
      (session.serviceDb.getElement service).isSome = true ∨
        service ≠ "" := by
  rw [← getElement_service_addTo isDeclared]
  constructor
  · intro promised
    exact promised.success_known rfl service written
  · intro known
    refine ⟨fun isError => absurd rfl isError, ?_⟩
    intro _ other isOther
    rw [written, Option.some.injEq] at isOther
    rw [← isOther]
    exact known

/--
A call that returns keeps the promise exactly if the written service was known
before, or the file is read and the name is a number or not empty.
-/
theorem parseFile_promised_iff
    {isNumber : String → Bool}
    {access : FileAccess}
    {root : Yaml}
    {session loaded : Session}
    {code : ProtocolErr}
    (returned :
      parseFile isNumber access root session = .ok (code, loaded)) :
    Promised root session code loaded ↔
      ∀ service, writtenService root = some service →
        (session.serviceDb.getElement service).isSome = true ∨
          access = .reads ∧ (isNumber service = true ∨ service ≠ "") := by
  by_cases unread : access ≠ .reads
  · rw [parseFile_of_unread unread] at returned
    cases returned
    rw [promised_unchanged_iff]
    refine forall_congr' fun service => imp_congr_right fun _ => ?_
    exact (or_iff_left fun read => unread read.1).symm
  · have isRead : access = .reads := not_not.mp unread
    subst isRead
    rcases parseProtocolFile_eq_ok_cases returned with
      ⟨isError, rfl, unnamed⟩ | ⟨service, declared, named, isDeclared,
        rfl, rfl⟩
    · have promised : Promised root loaded code loaded :=
        ⟨fun _ => rfl, fun isSuccess => absurd isSuccess isError⟩
      refine iff_of_true promised ?_
      intro service written
      right
      refine ⟨rfl, Or.inl ?_⟩
      by_contra notNumber
      exact unnamed service
        (getProtocolName_eq_ok_iff.mpr
          ⟨written, Bool.eq_false_iff.mpr notNumber⟩)
    · obtain ⟨written, notNumber⟩ := getProtocolName_eq_ok_iff.mp named
      rw [promised_loaded_iff written isDeclared]
      simp [written, notNumber]

/-- A document that only names its service. -/
def namedDocument
    (service : String) : Yaml :=
  .map [("service", .scalar service)]

theorem parseFile_promised_named :
    ∃ loaded,
      parseFile (fun _ => false) .reads (namedDocument "a") .empty =
          .ok (.success, loaded) ∧
        Promised (namedDocument "a") .empty .success loaded := by
  have returned :
      ∃ loaded,
        parseFile (fun _ => false) .reads (namedDocument "a") .empty =
          .ok (.success, loaded) :=
    ⟨_, rfl⟩
  obtain ⟨loaded, returned⟩ := returned
  refine ⟨loaded, returned, (parseFile_promised_iff returned).mpr ?_⟩
  intro service written
  cases written
  exact Or.inr ⟨rfl, Or.inr (by decide)⟩

/-- A file that cannot be opened is reported as a success. -/
theorem unopened_file_is_success :
    ¬ ∀ (isNumber : String → Bool) (access : FileAccess) (root : Yaml)
        (session loaded : Session) (code : ProtocolErr),
      parseFile isNumber access root session = .ok (code, loaded) →
        Promised root session code loaded := by
  intro always
  have promised :=
    always (fun _ => false) .openFails (namedDocument "a") .empty .empty
      .success rfl
  have known := promised.success_known rfl "a" rfl
  cases known

end TsnGen.Protocol
