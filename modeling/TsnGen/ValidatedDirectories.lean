import TsnGen.DirectoriesAsWritten
import TsnGen.GenerationRuns
import TsnGen.StackSchema

namespace TsnGen

/-!
# What a validated directory is good for

`--validate` exits with success exactly if every file that the validator picks
opens, is parsed and conforms to the enforced schema.  Later runs on the same
directory then either all work on one session, or do nothing; the documents tell
which of both, and whether that session holds them as they are written.
-/

open ProtocolValidator

namespace ProtocolValidator

/-- A file that opens, is parsed and conforms to the enforced schema. -/
def Valid
    (loader : Loader)
    (content : Option (List UInt8)) : Prop :=
  ∃ bytes root,
    content = some bytes ∧
      loader.parseInArena bytes = some root ∧
        ProtocolSchema.ConformsToEnforced root

/-- Nothing is found in exactly the valid files. -/
theorem validateContent_clean_iff
    {loader : Loader}
    {content : Option (List UInt8)} :
    validateContent loader content = .ok [] ↔ Valid loader content := by
  cases content with
  | none =>
      simp [validateContent, Valid, report]
  | some bytes =>
      cases parsed : loader.parseInArena bytes with
      | none =>
          simp [validateContent, Valid, parsed]
      | some root =>
          have accepts := accepts_iff_conformsToEnforced root
          rw [Accepts] at accepts
          simp only [validateContent, Valid, parsed, Option.some.injEq,
            exists_and_left, exists_eq_left', ← accepts]
          cases validateProtocolFile root with
          | error reason =>
              simp [Except.mapError]
          | ok findings =>
              simp [Except.mapError]

/-- A run that goes on and has found nothing. -/
def DirectoryRun.Clean
    (run : DirectoryRun) : Prop :=
  run.ended = none ∧ run.out = []

/-- A run stays clean exactly at a valid file. -/
theorem validate_clean_iff
    {loader : Loader}
    {run : DirectoryRun}
    {file : WalkedFile} :
    (run.validate loader file.path file.content).Clean ↔
      run.Clean ∧ Valid loader file.content := by
  rw [← validateContent_clean_iff]
  unfold DirectoryRun.validate DirectoryRun.Clean
  cases validateContent loader file.content with
  | error crash =>
      simp
  | ok findings =>
      simp [and_assoc]

theorem validateFiles_clean_iff
    {loader : Loader}
    {files : List WalkedFile}
    {run : DirectoryRun} :
    (validateFiles loader files run).Clean ↔
      run.Clean ∧ ∀ file ∈ files, Valid loader file.content := by
  induction files generalizing run with
  | nil =>
      simp [validateFiles]
  | cons file rest inductionHypothesis =>
      rw [validateFiles, List.forall_mem_cons, ← and_assoc,
        ← validate_clean_iff]
      by_cases ended :
          (run.validate loader file.path file.content).ended.isSome = true
      · rw [if_pos ended]
        have unclean :
            ¬ (run.validate loader file.path file.content).Clean := by
          intro clean
          rw [clean.1] at ended
          cases ended
        exact iff_of_false unclean fun both => unclean both.1
      · rw [if_neg ended]
        exact inductionHypothesis

/-- A directory is clean if it exists and all picked files are valid. -/
theorem validateDirectory_clean_iff
    {loader : Loader}
    {dir : String}
    {base : Option (List DirEntry)} :
    (validateDirectory loader dir base).Clean ↔
      ∃ entries, base = some entries ∧
        ∀ file ∈ selected dir entries, Valid loader file.content := by
  cases base with
  | none =>
      simp [validateDirectory, DirectoryRun.Clean]
  | some entries =>
      rw [validateDirectory, iterate_eq loader dir entries .start rfl,
        validateFiles_clean_iff]
      simp [DirectoryRun.Clean, DirectoryRun.start]

end ProtocolValidator

namespace PacketGen

/-- A stack file that opens, is parsed and conforms to the enforced schema. -/
def ValidStack
    (loader : Loader)
    (content : Option (List UInt8)) : Prop :=
  ∃ bytes root,
    content = some bytes ∧
      loader.parseInArena bytes = some root ∧
        Schema.conforms Numeral.unsignedLiteral? StackSchema.enforced root =
          true

variable {host : Host G S R}

/-- Nothing is found in exactly the valid stack files. -/
theorem validateStackContent_clean_iff
    {content : Option (List UInt8)} :
    validateStackContent host content = .ok [] ↔
      ValidStack host.loader content := by
  cases content with
  | none =>
      simp [validateStackContent, ValidStack, report]
  | some bytes =>
      cases parsed : host.loader.parseInArena bytes with
      | none =>
          simp [validateStackContent, ValidStack, parsed]
      | some root =>
          simp only [validateStackContent, ValidStack, parsed,
            Option.some.injEq, exists_and_left, exists_eq_left',
            ← validateStackFile_eq_ok_nil_iff]
          cases validateStackFile root with
          | error reason =>
              simp [Except.mapError]
          | ok findings =>
              simp [Except.mapError]

/-- Validating arguments validate. -/
theorem main_of_validate
    {arguments : List String}
    {args : Args}
    (read : CommandLine.parseArgs arguments {} = .ok (true, args))
    (validates : args.validate = true)
    (limit : Nat) :
    main host limit arguments =
      afterReading arguments (validate host args) := by
  rw [main, read]
  simp only [runArgs, validates, if_true]

/--
Validation exits with success exactly if the directory exists and every picked
file, and the stack file if one is given, is valid.
-/
theorem validation_succeeds_iff
    (host : Host G S R)
    {arguments : List String}
    {args : Args}
    (read : CommandLine.parseArgs arguments {} = .ok (true, args))
    (validates : args.validate = true)
    (limit : Nat) :
    (main host limit arguments).1 = .code 0 ↔
      (∃ entries, host.directory args.yamlDir = some entries ∧
        ∀ file ∈ selected args.yamlDir entries,
          Valid host.loader file.content) ∧
      (args.stackFile ≠ "" →
        ValidStack host.loader (host.file args.stackFile)) := by
  rw [main_of_validate read validates, afterReading_fst,
    ← validateDirectory_clean_iff, ← validateStackContent_clean_iff]
  simp only [validate, DirectoryRun.Clean]
  generalize validateDirectory host.loader args.yamlDir
    (host.directory args.yamlDir) = run
  cases ended : run.ended with
  | some crash =>
      simp
  | none =>
      by_cases given : args.stackFile ≠ ""
      · cases checked :
            validateStackContent host (host.file args.stackFile) with
        | error crash =>
            simp [given]
        | ok findings =>
            simp only [given, ne_eq, not_false_eq_true, ↓reduceIte,
              true_and, forall_const, Except.ok.injEq]
            by_cases empty : run.out = [] ∧ findings = []
            · simp [empty.1, empty.2]
            · simp [empty]
      · by_cases empty : run.out = []
        · simp [given, empty]
        · simp [given, empty]

/-- A host with one valid file and no transports. -/
def quietHost : Host Unit Handed Unit :=
  soleHost TrafficGenerator.everySecond silence (fun _ _ => [])
    fun _ _ => ()

/-- The only file is valid. -/
theorem soleText_valid :
    ∀ file ∈ selected "d" [.file "one.yaml" (some soleText)],
      Valid soleLoader file.content := by
  have picked :
      selected "d" [.file "one.yaml" (some soleText)] =
        [{ name := "one.yaml"
           path := "d/one.yaml"
           content := some soleText }] := by
    decide
  have conforms : ProtocolSchema.ConformsToEnforced smallDocument :=
    (accepts_iff_conformsToEnforced smallDocument).mp (by decide)
  intro file member
  rw [picked, List.mem_singleton] at member
  rw [member]
  exact ⟨soleText, smallDocument, rfl, rfl, conforms⟩

theorem validation_succeeds_sole :
    (main quietHost 0 ["--yaml-dir", "d", "--validate"]).1 = .code 0 := by
  have read :
      CommandLine.parseArgs ["--yaml-dir", "d", "--validate"] {} =
        .ok (true, { yamlDir := "d", validate := true }) := by
    rfl
  exact (validation_succeeds_iff quietHost read rfl 0).mpr
    ⟨⟨_, rfl, soleText_valid⟩, fun given => absurd rfl given⟩

end PacketGen

/-- What the loader needs of an accepted document beside the schema. -/
structure Written.Usable
    (isNumber : String → Bool)
    (root : Yaml) : Prop where
  service : isNumber (root.textOf "service") = false
  refs :
    ∀ entity ∈ root.listed "entities",
      ∀ iface ∈ entity.listed "interfaces",
        ∀ ref ∈ iface.listed "vars", ScalarRef ref

namespace Protocol

/-- An accepted document declares what it writes, or ends the walk. -/
theorem declaredByRoot_of_accepts
    {isNumber : String → Bool}
    {root : Yaml}
    (accepted : ProtocolValidator.Accepts root) :
    (Written.Usable isNumber root →
        declaredByRoot isNumber root = some (loadedDeclarations root)) ∧
      (¬ Written.Usable isNumber root →
        declaredByRoot isNumber root = none) := by
  have readable := readableDocument_of_accepts accepted
  have name := getProtocolName_eq readable isNumber
  constructor
  · rintro ⟨service, refs⟩
    rw [declaredByRoot, name, service]
    simp [declarations_eq readable refs, Except.toOption]
  · intro unusable
    by_cases number : isNumber (root.textOf "service") = true
    · rw [declaredByRoot, name, if_pos number]
    · rw [declaredByRoot, name, if_neg number]
      cases declared : declarations (root.textOf "service") root with
      | error reason =>
          simp [declared, Except.toOption]
      | ok documents =>
          refine absurd ⟨by simpa using number, ?_⟩ unusable
          obtain ⟨vars, -, walked⟩ := bind_eq_ok_iff.mp declared
          obtain ⟨ifaces, walkedIfaces, -⟩ := bind_eq_ok_iff.mp walked
          obtain ⟨lists, walkedLists, -⟩ := bind_eq_ok_iff.mp walkedIfaces
          intro entity member
          obtain ⟨list, walkedList⟩ :=
            exists_ok_of_mapM_eq_ok walkedLists member
          exact scalarRefs_of_declaredByEntity
            (readable.entities entity member).1
            (readable.entities entity member).2 walkedList

end Protocol

namespace ProtocolParser

variable {loader : Loader}

/-- The documents of files, as the validator parses them. -/
def documents
    (loader : Loader)
    (files : List (String × Option (List UInt8))) : List Yaml :=
  files.filterMap fun file => file.2.bind loader.parseInArena

/-- Files whose mapping in memory is the text that the validator reads. -/
def MappedWhole
    (loader : Loader)
    (files : List (String × Option (List UInt8))) : Prop :=
  ∀ file ∈ files, ∀ bytes, file.2 = some bytes →
    0 ∉ bytes ∧ ¬ loader.paging.pageSize ∣ bytes.length

/-- Valid files declare what their documents write, or one ends the walk. -/
theorem allLoad_of_valid
    {files : List (String × Option (List UInt8))}
    (valid : ∀ file ∈ files, Valid loader file.2)
    (whole : MappedWhole loader files) :
    (AllLoad loader files ↔
        ∀ root ∈ documents loader files,
          Written.Usable loader.isNumber root) ∧
      ((∀ root ∈ documents loader files,
          Written.Usable loader.isNumber root) →
        declaredBy loader files =
          (documents loader files).map Protocol.loadedDeclarations) := by
  induction files with
  | nil =>
      simp [documents, declaredBy]
  | cons file rest inductionHypothesis =>
      obtain ⟨bytes, root, isBytes, parsed, conforms⟩ :=
        valid file List.mem_cons_self
      obtain ⟨clean, padded⟩ := whole file List.mem_cons_self bytes isBytes
      obtain ⟨usable, unusable⟩ :=
        @Protocol.declaredByRoot_of_accepts loader.isNumber root
          ((accepts_iff_conformsToEnforced root).mpr conforms)
      obtain ⟨loads, declares⟩ :=
        inductionHypothesis
          (fun other member => valid other (List.mem_cons_of_mem _ member))
          (fun other member => whole other (List.mem_cons_of_mem _ member))
      have declared :
          Protocol.declaredByContent loader file.2 =
            Protocol.declaredByRoot loader.isNumber root := by
        rw [isBytes]
        exact Protocol.declaredByContent_of_whole clean padded parsed
      have first :
          documents loader (file :: rest) = root :: documents loader rest := by
        simp [documents, isBytes, parsed]
      rw [first, List.forall_mem_cons]
      constructor
      · rw [AllLoad, List.forall_mem_cons, ← AllLoad, loads, declared]
        refine and_congr_left fun _ => ?_
        by_cases goesThrough : Written.Usable loader.isNumber root
        · simp [usable goesThrough, goesThrough]
        · simp [unusable goesThrough, goesThrough]
      · rintro ⟨goesThrough, laterGoThrough⟩
        rw [declaredBy, List.filterMap_cons, declared, usable goesThrough,
          List.map_cons]
        exact congrArg _ (declares laterGoThrough)

/-- What the loader needs of a validated directory. -/
structure Loadable
    (loader : Loader)
    (dir : String)
    (entries : List DirEntry) : Prop where
  shallow : (nesting entries : Int) ≤ maxCurrentDepthPath
  present : yamlFiles dir entries ≠ []
  usable :
    ∀ root ∈ documents loader (yamlFiles dir entries),
      Written.Usable loader.isNumber root

variable {dir : String}
variable {entries : List DirEntry}

/-- The loader parses only files that the validator picks. -/
theorem valid_yamlFiles
    (valid : ∀ file ∈ selected dir entries, Valid loader file.content) :
    ∀ file ∈ yamlFiles dir entries, Valid loader file.2 := by
  intro file member
  rw [yamlFiles_eq_filter, List.mem_map] at member
  obtain ⟨walked, picked, rfl⟩ := member
  obtain ⟨inTree, isYaml⟩ := List.mem_filter.mp picked
  exact valid walked
    (mem_selected_iff.mpr ⟨inTree, .inl (of_decide_eq_true isYaml)⟩)

/-- The documents of valid files can be read by the loader. -/
theorem readable_of_valid
    {files : List (String × Option (List UInt8))}
    (valid : ∀ file ∈ files, Valid loader file.2) :
    ∀ root ∈ documents loader files, Protocol.ReadableDocument root := by
  intro root member
  obtain ⟨file, inFiles, isRoot⟩ := List.mem_filterMap.mp member
  obtain ⟨bytes, parsedRoot, isBytes, parsed, conforms⟩ := valid file inFiles
  rw [isBytes, Option.bind_some, parsed, Option.some.injEq] at isRoot
  exact Protocol.readableDocument_of_accepts
    ((accepts_iff_conformsToEnforced root).mpr (isRoot ▸ conforms))

/-- A named service is stored from any valid file. -/
theorem services_of_valid
    {files : List (String × Option (List UInt8))}
    (valid : ∀ file ∈ files, Valid loader file.2)
    (present : files ≠ []) :
    (Protocol.loadedSession (documents loader files)).serviceDb.entries ≠
      [] := by
  obtain ⟨file, member⟩ := List.exists_mem_of_ne_nil _ present
  obtain ⟨bytes, root, isBytes, parsed, -⟩ := valid file member
  have inDocuments : root ∈ documents loader files :=
    List.mem_filterMap.mpr ⟨file, member, by simp [isBytes, parsed]⟩
  rw [Protocol.serviceDb_loadedSession, Database.entries_addAll_ne_nil_iff]
  exact ⟨Written.service root, List.mem_map_of_mem inDocuments,
    (readable_of_valid valid root inDocuments).named⟩

/-- A validated directory is parsed into one session, or not at all. -/
theorem parse_of_valid
    (valid : ∀ file ∈ selected dir entries, Valid loader file.content)
    (whole : MappedWhole loader (yamlFiles dir entries)) :
    (Loadable loader dir entries →
        ∃ parser,
          parse loader dir (some entries) .fresh = .ok (.success, parser) ∧
            parser.session =
              Protocol.loadedSession
                (documents loader (yamlFiles dir entries))) ∧
      (¬ Loadable loader dir entries →
        ∀ parser,
          parse loader dir (some entries) .fresh ≠
            .ok (.success, parser)) := by
  have ofFiles := valid_yamlFiles valid
  obtain ⟨loads, declares⟩ := allLoad_of_valid ofFiles whole
  constructor
  · rintro ⟨shallow, present, usable⟩
    have session :
        (fresh.behind loader (yamlFiles dir entries)).session =
          Protocol.loadedSession
            (documents loader (yamlFiles dir entries)) := by
      rw [behind, declares usable]
      rfl
    refine ⟨_, parse_eq_success_iff.mpr ⟨⟨?_, loads.mpr usable, rfl⟩, ?_, ?_⟩,
      session⟩
    · simpa [fresh] using shallow
    · simpa [behind, fresh] using present
    · rw [session]
      exact services_of_valid ofFiles present
  · intro unfit parser accepted
    obtain ⟨succeeds, paths, -⟩ := parse_eq_success_iff.mp accepted
    refine unfit ⟨?_, ?_, loads.mp succeeds.allLoad⟩
    · simpa [fresh] using succeeds.fits
    · intro empty
      rw [succeeds.walked_eq, behind, empty] at paths
      exact paths rfl

end ProtocolParser

namespace PacketGen

variable {host : Host G S R}

/-- Arguments of a run on a directory that does not validate. -/
structure RunsOn
    (dir : String)
    (arguments : List String)
    (args : Args) : Prop where
  read : CommandLine.parseArgs arguments {} = .ok (true, args)
  runs : args.validate = false
  directory : args.yamlDir = dir

/-- A run works on the session behind a parser that succeeds. -/
theorem RunsOn.main_of_parsed
    {dir : String}
    {arguments : List String}
    {args : Args}
    (run : RunsOn dir arguments args)
    {parser : ProtocolParser}
    (parsed :
      ProtocolParser.parse host.loader dir (host.directory dir) .fresh =
        .ok (.success, parser))
    (limit : Nat) :
    main host limit arguments =
      afterReading arguments
        (runSession host limit (levelOf args) args parser.session) := by
  rw [main, run.read]
  simp only [runArgs, run.runs, Bool.false_eq_true, ↓reduceIte, run.directory,
    parsed]
  rfl

/-- A run whose parser does not succeed gives nothing away. -/
theorem RunsOn.nothing_of_unparsed
    {dir : String}
    {arguments : List String}
    {args : Args}
    (run : RunsOn dir arguments args)
    (unparsed :
      ∀ parser,
        ProtocolParser.parse host.loader dir (host.directory dir) .fresh ≠
          .ok (.success, parser))
    (limit : Nat) :
    let result := main host limit arguments
    result.1 ≠ .code 0 ∧ result.2.stdout = [] ∧
      result.2.sender = none ∧ result.2.receiver = none := by
  rw [main, run.read]
  simp only [runArgs, run.runs, Bool.false_eq_true, ↓reduceIte, run.directory]
  cases parsed :
      ProtocolParser.parse host.loader dir (host.directory dir) .fresh with
  | error crash =>
      simp
  | ok result =>
      obtain ⟨err, parser⟩ := result
      by_cases clean : err = .success
      · subst clean
        exact absurd parsed (unparsed parser)
      · simp [clean, Output.log]

/--
Runs on a validated directory.  If the directory is loadable, all runs on it
that do not validate work on one session.  That session holds every document as
it is written exactly if no name is written in two ways and no constraint
literal is negative; without negative literals the first document to write a
name decides.  If the directory is not loadable, every such run prints nothing,
makes no transport and does not succeed.
-/
theorem validated_directory_decides
    {arguments : List String}
    {args : Args}
    (read : CommandLine.parseArgs arguments {} = .ok (true, args))
    (validates : args.validate = true)
    {entries : List DirEntry}
    (directory : host.directory args.yamlDir = some entries)
    (whole :
      ProtocolParser.MappedWhole host.loader
        (ProtocolParser.yamlFiles args.yamlDir entries))
    (limit : Nat)
    (validated : (main host limit arguments).1 = .code 0) :
    let documents :=
      ProtocolParser.documents host.loader
        (ProtocolParser.yamlFiles args.yamlDir entries)
    (ProtocolParser.Loadable host.loader args.yamlDir entries →
        ∃ session,
          (∀ limit' arguments' args',
              RunsOn args.yamlDir arguments' args' →
                main host limit' arguments' =
                  afterReading arguments'
                    (runSession host limit' (levelOf args') args'
                      session)) ∧
            ((∀ root ∈ documents, Written.HeldBy root session) ↔
              Written.Unambiguous documents ∧
                Written.NoneNegative documents) ∧
            (Written.NoneNegative documents →
              Written.FirstHeldBy documents session)) ∧
      (¬ ProtocolParser.Loadable host.loader args.yamlDir entries →
        ∀ limit' arguments' args',
          RunsOn args.yamlDir arguments' args' →
            let result := main host limit' arguments'
            result.1 ≠ .code 0 ∧ result.2.stdout = [] ∧
              result.2.sender = none ∧ result.2.receiver = none) := by
  obtain ⟨⟨_, isDirectory, valid⟩, -⟩ :=
    (validation_succeeds_iff host read validates limit).mp validated
  rw [directory, Option.some.injEq] at isDirectory
  subst isDirectory
  obtain ⟨loads, fails⟩ := ProtocolParser.parse_of_valid valid whole
  have readable :=
    ProtocolParser.readable_of_valid (ProtocolParser.valid_yamlFiles valid)
  rw [← directory] at loads fails
  intro documents
  constructor
  · intro loadable
    obtain ⟨parser, parsed, session⟩ := loads loadable
    refine ⟨Protocol.loadedSession documents, ?_,
      Protocol.forall_heldBy_loadedSession_iff readable,
      Protocol.firstHeldBy_loadedSession readable⟩
    intro limit' arguments' args' run
    rw [run.main_of_parsed parsed limit', session]
  · intro unloadable limit' arguments' args' run
    exact run.nothing_of_unparsed (fails unloadable) limit'

theorem validated_directory_decides_sole :
    ∃ session,
      (∀ limit arguments args,
          RunsOn "d" arguments args →
            main quietHost limit arguments =
              afterReading arguments
                (runSession quietHost limit (levelOf args) args session)) ∧
        Written.HeldBy smallDocument session ∧
          Written.FirstHeldBy [smallDocument] session := by
  have read :
      CommandLine.parseArgs ["--yaml-dir", "d", "--validate"] {} =
        .ok (true, { yamlDir := "d", validate := true }) := by
    rfl
  have files :
      ProtocolParser.yamlFiles "d" [.file "one.yaml" (some soleText)] =
        [("d/one.yaml", some soleText)] := by
    decide
  have documents :
      ProtocolParser.documents quietHost.loader
          (ProtocolParser.yamlFiles "d"
            [.file "one.yaml" (some soleText)]) =
        [smallDocument] := by
    rw [files]
    rfl
  have validated :
      (main quietHost 0 ["--yaml-dir", "d", "--validate"]).1 = .code 0 := by
    decide +kernel
  have whole :
      ProtocolParser.MappedWhole quietHost.loader
        (ProtocolParser.yamlFiles "d" [.file "one.yaml" (some soleText)]) := by
    intro file member bytes isBytes
    rw [files, List.mem_singleton] at member
    subst member
    cases isBytes
    decide
  have loadable :
      ProtocolParser.Loadable quietHost.loader "d"
        [.file "one.yaml" (some soleText)] := by
    refine ⟨by decide, by simp [files], fun root member => ?_⟩
    rw [documents, List.mem_singleton] at member
    rw [member]
    exact ⟨smallDocument_loadable.service, smallDocument_loadable.refs⟩
  have nonNegative : Written.NoneNegative [smallDocument] := by
    intro root member
    rw [List.mem_singleton.mp member]
    exact smallDocument_loadable.vars
  have unambiguous : Written.Unambiguous [smallDocument] :=
    ⟨List.inj_on_of_nodup_map (by decide),
      List.inj_on_of_nodup_map (by decide),
      List.inj_on_of_nodup_map (by decide)⟩
  have decides :=
    (@validated_directory_decides Unit Handed Unit quietHost _ _ read rfl _
      rfl whole 0 validated).1 loadable
  rw [documents] at decides
  obtain ⟨session, works, held, first⟩ := decides
  exact ⟨session, works,
    held.mpr ⟨unambiguous, nonNegative⟩ smallDocument (by simp),
    first nonNegative⟩

end PacketGen

end TsnGen
