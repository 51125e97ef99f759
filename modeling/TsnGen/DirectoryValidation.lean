import Mathlib.Data.List.Nodup
import TsnGen.LoadOrder
import TsnGen.Validator

namespace TsnGen

/-!
# Validating a protocol directory

`ProtocolValidator::validateDirectory` iterates over a directory tree on its
own, next to the walk of the loader.  Both meet the same regular files in the
same order and pick from them by their extension: the loader those in `.yaml`,
the validator also those in `.yml`.  A validation that throws ends the
iteration at its file.
-/

/-- A regular file of a tree: its own name, its path and its content. -/
structure WalkedFile where
  name : String
  path : String
  content : Option (List UInt8)
  deriving Repr, DecidableEq

namespace ProtocolValidator

/-- `validateProtocolFile` from the opened file on. -/
def validateContent
    (loader : Loader)
    (content : Option (List UInt8)) :
    Except Crash (List ValidationFinding) :=
  match content with
  | none => .ok (report "could not open file")
  | some bytes =>
      match loader.parseInArena bytes with
      | none => .error .rejected
      | some root => (validateProtocolFile root).mapError .aborted

/--
A run over a directory: the files handed to `validateProtocolFile` so far, what
was found in them, and what ended the run early.
-/
structure DirectoryRun where
  validated : List String
  out : List (String × ValidationFinding)
  errors : Nat
  ended : Option Crash
  deriving Repr, DecidableEq

/-- A run that has met no file yet. -/
def DirectoryRun.start : DirectoryRun where
  validated := []
  out := []
  errors := 0
  ended := none

/-- Hand one file to `validateProtocolFile`. -/
def DirectoryRun.validate
    (loader : Loader)
    (run : DirectoryRun)
    (path : String)
    (content : Option (List UInt8)) : DirectoryRun :=
  let validated := run.validated ++ [path]
  match validateContent loader content with
  | .error crash =>
      { run with
        validated := validated
        ended := some crash }
  | .ok findings =>
      { run with
        validated := validated
        out := run.out ++ findings.map fun finding => (path, finding)
        errors := run.errors + findings.length }

mutual

/-- The body of the loop, and of those inside a directory. -/
def iterateEntry
    (loader : Loader)
    (path : String)
    (entry : DirEntry)
    (run : DirectoryRun) : DirectoryRun :=
  match entry with
  | .file name content =>
      if DirEntry.extension name = ".yaml" ∨
          DirEntry.extension name = ".yml" then
        run.validate loader (path ++ "/" ++ name) content
      else
        run
  | .directory name entries => iterate loader (path ++ "/" ++ name) entries run
  | .other _ => run

/--
Iterate over a directory, descending into those inside it; an exception leaves
the loop at once.
-/
def iterate
    (loader : Loader)
    (path : String)
    (entries : List DirEntry)
    (run : DirectoryRun) : DirectoryRun :=
  match entries with
  | [] => run
  | entry :: rest =>
      let visited := iterateEntry loader path entry run
      if visited.ended.isSome then
        visited
      else
        iterate loader path rest visited

end

/-- Validate every YAML file under a directory, if that exists. -/
def validateDirectory
    (loader : Loader)
    (dir : String)
    (base : Option (List DirEntry)) : DirectoryRun :=
  match base with
  | none =>
      { DirectoryRun.start with
        out := [(dir, { message := "directory does not exist" })]
        errors := 1 }
  | some entries => iterate loader dir entries .start

end ProtocolValidator

namespace DirEntry

mutual

/-- The regular files an entry leads to. -/
def filesOf
    (path : String)
    (entry : DirEntry) : List WalkedFile :=
  match entry with
  | .file name content =>
      [{ name := name, path := path ++ "/" ++ name, content := content }]
  | .directory name entries => files (path ++ "/" ++ name) entries
  | .other _ => []

/-- The regular files of a directory and of those inside it. -/
def files
    (path : String)
    (entries : List DirEntry) : List WalkedFile :=
  match entries with
  | [] => []
  | entry :: rest => filesOf path entry ++ files path rest

end

end DirEntry

/-- The loader parses the files in `.yaml`. -/
theorem ProtocolParser.yamlFiles_eq_filter
    (path : String)
    (entries : List DirEntry) :
    yamlFiles path entries =
      ((DirEntry.files path entries).filter fun file =>
        DirEntry.extension file.name = ".yaml").map fun file =>
          (file.path, file.content) := by
  induction entries using DirEntry.entries_induction
    generalizing path with
  | nil =>
      rfl
  | file name content rest inductionHypothesis =>
      rw [yamlFiles, yamlFilesOf, DirEntry.files, DirEntry.filesOf,
        inductionHypothesis]
      by_cases yaml : DirEntry.extension name = ".yaml"
      · simp [yaml]
      · simp [yaml]
  | directory name inner rest innerHypothesis restHypothesis =>
      rw [yamlFiles, yamlFilesOf, DirEntry.files, DirEntry.filesOf,
        innerHypothesis, restHypothesis, List.filter_append,
        List.map_append]
  | other name rest inductionHypothesis =>
      rw [yamlFiles, yamlFilesOf, DirEntry.files, DirEntry.filesOf,
        inductionHypothesis]
      rfl

namespace ProtocolValidator

/-- The files the validator picks. -/
def selected
    (path : String)
    (entries : List DirEntry) : List WalkedFile :=
  (DirEntry.files path entries).filter fun file =>
    DirEntry.extension file.name = ".yaml" ∨
      DirEntry.extension file.name = ".yml"

/-- Picking goes entry by entry. -/
theorem selected_cons
    (path : String)
    (entry : DirEntry)
    (rest : List DirEntry) :
    selected path (entry :: rest) =
      ((DirEntry.filesOf path entry).filter fun file =>
        DirEntry.extension file.name = ".yaml" ∨
          DirEntry.extension file.name = ".yml") ++
        selected path rest := by
  rw [selected, DirEntry.files, List.filter_append, selected]

/-- The validation of a file throws. -/
def Throws
    (loader : Loader)
    (file : WalkedFile) : Prop :=
  ∃ crash, validateContent loader file.content = .error crash

instance
    (loader : Loader)
    (file : WalkedFile) :
    Decidable (Throws loader file) :=
  match outcome : validateContent loader file.content with
  | .error crash => .isTrue ⟨crash, outcome⟩
  | .ok _ => .isFalse fun ⟨_, thrown⟩ => by
      rw [outcome] at thrown
      cases thrown

/-- Validate files one after the other, up to the first that throws. -/
def validateFiles
    (loader : Loader) :
    List WalkedFile → DirectoryRun → DirectoryRun
  | [], run => run
  | file :: rest, run =>
      let visited := run.validate loader file.path file.content
      if visited.ended.isSome then
        visited
      else
        validateFiles loader rest visited

/-- What throws in one part keeps the run from the next. -/
theorem validateFiles_append
    (loader : Loader)
    (first second : List WalkedFile)
    (run : DirectoryRun)
    (going : run.ended = none) :
    validateFiles loader (first ++ second) run =
      if (validateFiles loader first run).ended.isSome then
        validateFiles loader first run
      else
        validateFiles loader second (validateFiles loader first run) := by
  induction first generalizing run with
  | nil =>
      simp [validateFiles, going]
  | cons file rest inductionHypothesis =>
      rw [List.cons_append, validateFiles, validateFiles]
      by_cases ended :
          (run.validate loader file.path file.content).ended.isSome = true
      · simp [ended]
      · simp only [ended]
        exact inductionHypothesis _ (by simpa using ended)

/-- The iteration validates the picked files in the order of the tree. -/
theorem iterate_eq
    (loader : Loader)
    (path : String)
    (entries : List DirEntry)
    (run : DirectoryRun)
    (going : run.ended = none) :
    iterate loader path entries run =
      validateFiles loader (selected path entries) run := by
  induction entries using DirEntry.entries_induction
    generalizing path run with
  | nil =>
      rfl
  | file name content rest inductionHypothesis =>
      rw [iterate, iterateEntry, selected_cons, DirEntry.filesOf]
      by_cases picked :
          DirEntry.extension name = ".yaml" ∨
            DirEntry.extension name = ".yml"
      · rw [if_pos picked, List.filter_singleton,
          decide_eq_true picked, cond_true, List.cons_append,
          validateFiles]
        by_cases ended :
            (run.validate loader (path ++ "/" ++ name)
              content).ended.isSome = true
        · simp only [ended, if_true]
        · simp only [ended]
          exact inductionHypothesis path _
            (Option.not_isSome_iff_eq_none.mp ended)
      · rw [if_neg picked, List.filter_singleton,
          decide_eq_false picked]
        simp only [going, Option.isSome_none]
        exact inductionHypothesis path run going
  | directory name inner rest innerHypothesis restHypothesis =>
      have inside :
          ((DirEntry.filesOf path (.directory name inner)).filter fun file =>
            DirEntry.extension file.name = ".yaml" ∨
              DirEntry.extension file.name = ".yml") =
            selected (path ++ "/" ++ name) inner := by
        rw [DirEntry.filesOf, selected]
      rw [iterate, iterateEntry, innerHypothesis _ run going, selected_cons,
        inside, validateFiles_append loader _ _ run going]
      by_cases ended :
          (validateFiles loader (selected (path ++ "/" ++ name) inner)
            run).ended.isSome = true
      · simp only [ended, if_true]
      · simp only [ended]
        exact restHypothesis path _ (Option.not_isSome_iff_eq_none.mp ended)
  | other name rest inductionHypothesis =>
      rw [iterate, iterateEntry, selected_cons, DirEntry.filesOf]
      simp only [going, Option.isSome_none]
      exact inductionHypothesis path run going

/-- A file is reached when no file before it throws. -/
def Reached
    (loader : Loader)
    (files : List WalkedFile)
    (file : WalkedFile) : Prop :=
  ∃ before behind,
    files = before ++ file :: behind ∧
      ∀ earlier ∈ before, ¬ Throws loader earlier

/-- A later file is reached if the first does not throw. -/
theorem reached_cons_iff
    {loader : Loader}
    {first file : WalkedFile}
    {rest : List WalkedFile} :
    Reached loader (first :: rest) file ↔
      file = first ∨ ¬ Throws loader first ∧ Reached loader rest file := by
  constructor
  · rintro ⟨before, behind, split, quiet⟩
    cases before with
    | nil =>
        rw [List.nil_append, List.cons.injEq] at split
        exact Or.inl split.1.symm
    | cons head tail =>
        rw [List.cons_append, List.cons.injEq] at split
        obtain ⟨rfl, rfl⟩ := split
        exact Or.inr ⟨quiet first List.mem_cons_self, tail, behind, rfl,
          fun earlier member =>
            quiet earlier (List.mem_cons_of_mem _ member)⟩
  · rintro (rfl | ⟨quiet, before, behind, rfl, quietBefore⟩)
    · exact ⟨[], rest, rfl, by simp⟩
    · refine ⟨first :: before, behind, rfl, ?_⟩
      simp only [List.mem_cons, forall_eq_or_imp]
      exact ⟨quiet, quietBefore⟩

/-- A validation hands its file on and ends the run if it throws. -/
theorem validate_spec
    (loader : Loader)
    (run : DirectoryRun)
    (going : run.ended = none)
    (file : WalkedFile) :
    (run.validate loader file.path file.content).validated =
        run.validated ++ [file.path] ∧
      ((run.validate loader file.path file.content).ended.isSome = true ↔
        Throws loader file) := by
  unfold DirectoryRun.validate Throws
  cases validateContent loader file.content with
  | error crash =>
      simp
  | ok findings =>
      simp [going]

/-- Exactly the reached files are validated. -/
theorem mem_validated_iff
    (loader : Loader)
    (files : List WalkedFile)
    (run : DirectoryRun)
    (going : run.ended = none)
    (path : String) :
    path ∈ (validateFiles loader files run).validated ↔
      path ∈ run.validated ∨
        ∃ file, Reached loader files file ∧ file.path = path := by
  induction files generalizing run with
  | nil =>
      simp [validateFiles, Reached]
  | cons first rest inductionHypothesis =>
      obtain ⟨handed, ends⟩ := validate_spec loader run going first
      rw [validateFiles]
      have ofFirst :
          (∃ file, file = first ∧ file.path = path) ↔ path = first.path := by
        simp [eq_comm]
      by_cases throws : Throws loader first
      · simp only [ends.mpr throws, if_true, handed, List.mem_append,
          List.mem_singleton, reached_cons_iff, throws, not_true,
          false_and, or_false, ofFirst]
      · have goesOn := mt ends.mp throws
        have later :=
          inductionHypothesis _ (Option.not_isSome_iff_eq_none.mp goesOn)
        rw [handed, List.mem_append, List.mem_singleton, or_assoc] at later
        rw [if_neg goesOn, later]
        simp only [reached_cons_iff, throws, not_false_eq_true, true_and,
          or_and_right, exists_or, ofFirst]

/-- The validated files of a directory are the picked ones that are reached. -/
theorem mem_validateDirectory_iff
    {loader : Loader}
    {dir : String}
    {entries : List DirEntry}
    {path : String} :
    path ∈ (validateDirectory loader dir (some entries)).validated ↔
      ∃ file, Reached loader (selected dir entries) file ∧
        file.path = path := by
  rw [validateDirectory, iterate_eq loader dir entries .start rfl,
    mem_validated_iff loader _ .start rfl]
  simp [DirectoryRun.start]

/-- An accepted tree is parsed in all of its files in `.yaml`. -/
theorem mem_yamlPaths_iff
    {loader : Loader}
    {basePath : String}
    {entries : List DirEntry}
    {parser : ProtocolParser}
    (accepted :
      ProtocolParser.parse loader basePath (some entries) .fresh =
        .ok (.success, parser))
    {path : String} :
    path ∈ parser.yamlPaths ↔
      ∃ file ∈ DirEntry.files basePath entries,
        DirEntry.extension file.name = ".yaml" ∧ file.path = path := by
  obtain ⟨succeeds, -⟩ := ProtocolParser.parse_eq_success_iff.mp accepted
  rw [succeeds.walked_eq, ProtocolParser.behind,
    ProtocolParser.yamlFiles_eq_filter]
  simp [ProtocolParser.fresh, and_assoc]

/-- A picked file is a regular file in `.yaml` or `.yml`. -/
theorem mem_selected_iff
    {path : String}
    {entries : List DirEntry}
    {file : WalkedFile} :
    file ∈ selected path entries ↔
      file ∈ DirEntry.files path entries ∧
        (DirEntry.extension file.name = ".yaml" ∨
          DirEntry.extension file.name = ".yml") := by
  simp [selected]

/-- A reached file is one of the files. -/
theorem Reached.mem
    {loader : Loader}
    {files : List WalkedFile}
    {file : WalkedFile}
    (reached : Reached loader files file) :
    file ∈ files := by
  obtain ⟨before, behind, rfl, -⟩ := reached
  simp

/-- Where no validation throws every file is reached. -/
theorem reached_of_quiet
    {loader : Loader}
    {files : List WalkedFile}
    (quiet : ∀ file ∈ files, ¬ Throws loader file)
    {file : WalkedFile}
    (member : file ∈ files) :
    Reached loader files file := by
  obtain ⟨before, behind, rfl⟩ := List.append_of_mem member
  exact ⟨before, behind, rfl, fun earlier inFront =>
    quiet earlier (List.mem_append_left _ inFront)⟩

/--
Of an accepted tree the same files are validated and parsed exactly if, of the
files the validator picks, those in `.yaml` are the ones that it reaches.
-/
theorem validated_iff_parsed_iff
    {loader : Loader}
    {basePath : String}
    {entries : List DirEntry}
    {parser : ProtocolParser}
    (onePath :
      ((DirEntry.files basePath entries).map WalkedFile.path).Nodup)
    (accepted :
      ProtocolParser.parse loader basePath (some entries) .fresh =
        .ok (.success, parser)) :
    (∀ path,
        path ∈
            (validateDirectory loader basePath (some entries)).validated ↔
          path ∈ parser.yamlPaths) ↔
      ∀ file ∈ selected basePath entries,
        (DirEntry.extension file.name = ".yaml" ↔
          Reached loader (selected basePath entries) file) := by
  have same :
      ∀ {first second : WalkedFile},
        first ∈ DirEntry.files basePath entries →
        second ∈ DirEntry.files basePath entries →
        first.path = second.path → first = second :=
    fun firstMember secondMember =>
      List.inj_on_of_nodup_map onePath firstMember secondMember
  simp only [mem_validateDirectory_iff, mem_yamlPaths_iff accepted]
  constructor
  · intro equal file picked
    have member := (mem_selected_iff.mp picked).1
    constructor
    · intro yaml
      obtain ⟨other, reached, samePath⟩ :=
        (equal file.path).mpr ⟨file, member, yaml, rfl⟩
      have otherMember := (mem_selected_iff.mp reached.mem).1
      rw [← same otherMember member samePath]
      exact reached
    · intro reached
      obtain ⟨other, otherMember, yaml, samePath⟩ :=
        (equal file.path).mp ⟨file, reached, rfl⟩
      rw [← same otherMember member samePath]
      exact yaml
  · intro agree path
    constructor
    · rintro ⟨file, reached, isPath⟩
      have picked := reached.mem
      exact ⟨file, (mem_selected_iff.mp picked).1,
        (agree file picked).mpr reached, isPath⟩
    · rintro ⟨file, member, yaml, isPath⟩
      have picked := mem_selected_iff.mpr ⟨member, Or.inl yaml⟩
      exact ⟨file, (agree file picked).mp yaml, isPath⟩

section Samples

open ProtocolParser

/-- Two files of one text; the loader takes only the first. -/
def twoExtensions : List DirEntry :=
  [.file "first.yaml" (some (asciiBytes (sampleText "a::b" "c" "16"))),
    .file "second.yml" (some (asciiBytes (sampleText "a::b" "c" "16")))]

/-- A sample text in any file is validated without a finding. -/
theorem not_throws_sample
    (name path : String)
    {text : String}
    (known :
      text = sampleText "a" "d" "8" ∨ text = sampleText "a::b" "c" "16") :
    ¬ Throws sampleLoader
      { name := name, path := path, content := some (asciiBytes text) } := by
  rintro ⟨crash, thrown⟩
  rcases known with rfl | rfl
  · cases thrown
  · cases thrown

/-- The loader accepts the tree for its first file. -/
theorem twoExtensions_accepted :
    ∃ parser,
      parse sampleLoader "protocols" (some twoExtensions) fresh =
        .ok (.success, parser) := by
  have files :
      yamlFiles "protocols" twoExtensions =
        [("protocols/first.yaml",
          some (asciiBytes (sampleText "a::b" "c" "16")))] :=
    rfl
  refine ⟨_, parse_eq_success_iff.mpr ⟨⟨?_, ?_, rfl⟩, ?_, ?_⟩⟩
  · decide
  · simp [AllLoad, files, separatedService_declares]
  · simp [behind, files]
  · rw [behind, files, declaredBy, List.filterMap_cons,
      separatedService_declares]
    decide

theorem validated_iff_parsed_sample :
    ∃ parser,
      parse sampleLoader "protocols"
          (some (sampleTree (sampleText "a" "d" "8")
            (sampleText "a::b" "c" "16"))) fresh =
          .ok (.success, parser) ∧
        ∀ path,
          path ∈
              (validateDirectory sampleLoader "protocols"
                (some (sampleTree (sampleText "a" "d" "8")
                  (sampleText "a::b" "c" "16")))).validated ↔
            path ∈ parser.yamlPaths := by
  obtain ⟨-, parser, accepted⟩ :=
    @sampleTree_loads _ _ _ _ plainService_declares
      separatedService_declares { name := "a", logicName := "" } (by decide)
  refine ⟨parser, accepted,
    (validated_iff_parsed_iff (by decide) accepted).mpr ?_⟩
  have picked :
      selected "protocols"
          (sampleTree (sampleText "a" "d" "8")
            (sampleText "a::b" "c" "16")) =
        [{ name := "first.yaml"
           path := "protocols/first.yaml"
           content := some (asciiBytes (sampleText "a" "d" "8")) },
          { name := "second.yaml"
            path := "protocols/second.yaml"
            content := some (asciiBytes (sampleText "a::b" "c" "16")) }] :=
    rfl
  have quiet :
      ∀ file ∈ selected "protocols"
          (sampleTree (sampleText "a" "d" "8")
            (sampleText "a::b" "c" "16")),
        ¬ Throws sampleLoader file := by
    rw [picked]
    intro file member
    rcases List.mem_pair.mp member with rfl | rfl
    · exact not_throws_sample _ _ (Or.inl rfl)
    · exact not_throws_sample _ _ (Or.inr rfl)
  have yaml :
      ∀ file ∈ selected "protocols"
          (sampleTree (sampleText "a" "d" "8")
            (sampleText "a::b" "c" "16")),
        DirEntry.extension file.name = ".yaml" := by
    rw [picked]
    intro file member
    rcases List.mem_pair.mp member with rfl | rfl
    · rfl
    · rfl
  intro file member
  exact iff_of_true (yaml file member) (reached_of_quiet quiet member)

/-- A file in `.yml` is validated and not parsed. -/
theorem yml_file_not_parsed :
    ¬ ∀ (loader : Loader) (basePath : String) (entries : List DirEntry)
        (parser : ProtocolParser),
      ((DirEntry.files basePath entries).map WalkedFile.path).Nodup →
        parse loader basePath (some entries) fresh =
            .ok (.success, parser) →
          ∀ path,
            path ∈
                (validateDirectory loader basePath
                  (some entries)).validated ↔
              path ∈ parser.yamlPaths := by
  intro always
  obtain ⟨parser, accepted⟩ := twoExtensions_accepted
  have same :=
    always sampleLoader "protocols" twoExtensions parser (by decide) accepted
      "protocols/second.yml"
  have validated :
      "protocols/second.yml" ∈
        (validateDirectory sampleLoader "protocols"
          (some twoExtensions)).validated := by
    refine mem_validateDirectory_iff.mpr
      ⟨_, ⟨[_], [], rfl, ?_⟩, rfl⟩
    intro earlier member
    rw [List.mem_singleton.mp member]
    exact not_throws_sample _ _ (Or.inr rfl)
  obtain ⟨file, member, yaml, isPath⟩ :=
    (mem_yamlPaths_iff accepted).mp (same.mp validated)
  rcases List.mem_pair.mp member with rfl | rfl
  · revert isPath
    decide
  · revert yaml
    decide

end Samples

end ProtocolValidator

end TsnGen
