import TsnGen.FileOutcome
import TsnGen.LoadOrder
import TsnGen.ScalarAccess

namespace TsnGen

open ProtocolValidator

/-!
# The verdict of a directory walk

The verdict of a walk over readable files can be told from the tree: too deep a
directory or a refused service makes it unexpected, no usable service makes it
an invalid input, and it is a success otherwise.  The walk arrives there unless
it first meets a file whose service is not refused and whose document then ends
the program.
-/

namespace Protocol

/-- The service of a document is a container or a number. -/
def refusedService
    (isNumber : String → Bool)
    (root : Yaml) : Bool :=
  (root.child? "service").any fun node => node.text?.all isNumber

/-- The service of a document is a scalar, not empty and not a number. -/
def usableService
    (isNumber : String → Bool)
    (root : Yaml) : Bool :=
  (writtenService root).any fun service =>
    !isNumber service && service ≠ ""

/-- A service that is missing is skipped, and one that is refused is not. -/
theorem getProtocolName_eq_error_iff
    {isNumber : String → Bool}
    {root : Yaml}
    {code : ProtocolErr} :
    getProtocolName isNumber root = .error code ↔
      code = .invalidFile ∧ root.hasChild "service" = false ∨
        code = .unexpected ∧ refusedService isNumber root = true := by
  unfold getProtocolName refusedService Yaml.hasChild
  cases root.child? "service" with
  | none =>
      simp [eq_comm]
  | some node =>
      cases isText : node.text? with
      | none =>
          simp [isText, eq_comm]
      | some text =>
          cases number : isNumber text with
          | true =>
              simp [isText, number, eq_comm]
          | false =>
              simp [isText, number]

/-- The name of a service is of use if it is taken and not empty. -/
theorem usableService_iff
    {isNumber : String → Bool}
    {root : Yaml} :
    usableService isNumber root = true ↔
      ∃ service,
        getProtocolName isNumber root = .ok service ∧ service ≠ "" := by
  simp only [usableService, getProtocolName_eq_ok_iff, Option.any_eq_true,
    Bool.and_eq_true, Bool.not_eq_true', decide_eq_true_eq, and_assoc]

/-- Ways in which an entry ends a walk. -/
inductive Stop where
  | aborts
  | unexpected
  deriving Repr, DecidableEq

/--
How a document ends a walk, if it does.  Its texts are taken only behind a
service name that is not refused.
-/
def stopOfRoot
    (isNumber : String → Bool)
    (root : Yaml) : Option Stop :=
  if refusedService isNumber root then
    some .unexpected
  else if root.hasChild "service" ∧
      ¬ ∀ node ∈ takenTexts root, IsScalar node then
    some .aborts
  else
    none

/-- How loading a document ends. -/
def LoadsTo
    (stop : Option Stop)
    (result : Except Abort (ProtocolErr × Session)) : Prop :=
  match stop with
  | some .unexpected => ∃ loaded, result = .ok (.unexpected, loaded)
  | some .aborts => ∃ reason, result = .error reason
  | none =>
      ∃ code loaded,
        (code = .success ∨ code = .invalidFile) ∧
          result = .ok (code, loaded)

/-- A document ends a walk as its service and its taken texts tell. -/
theorem parseProtocolFile_loadsTo
    (isNumber : String → Bool)
    (root : Yaml)
    (session : Session) :
    LoadsTo (stopOfRoot isNumber root)
      (parseProtocolFile isNumber root session) := by
  have refuses {code : ProtocolErr} :=
    @getProtocolName_eq_error_iff isNumber root code
  unfold stopOfRoot
  cases named : getProtocolName isNumber root with
  | error code =>
      rw [parseProtocolFile_of_unnamed named]
      rw [named] at refuses
      rcases refuses.mp rfl with ⟨rfl, missing⟩ | ⟨rfl, refused⟩
      · have notRefused : ¬ refusedService isNumber root = true := by
          intro refused
          cases refuses.mpr (Or.inr ⟨rfl, refused⟩)
        rw [if_neg notRefused, if_neg (by simp [missing])]
        exact ⟨.invalidFile, session, Or.inr rfl, rfl⟩
      · rw [if_pos refused]
        exact ⟨session, rfl⟩
  | ok service =>
      rw [named] at refuses
      have notRefused : ¬ refusedService isNumber root = true := by
        intro refused
        cases refuses.mpr (Or.inr ⟨rfl, refused⟩)
      have present : root.hasChild "service" = true := by
        by_contra missing
        cases refuses.mpr (Or.inl ⟨rfl, Bool.eq_false_iff.mpr missing⟩)
      rw [if_neg notRefused, parseProtocolFile_eq named]
      have completes := completes_declarations_iff service root
      cases declared : declarations service root with
      | error reason =>
          rw [declared] at completes
          have notTaken := mt completes.mpr (not_completes_error reason)
          rw [if_pos ⟨present, notTaken⟩]
          exact ⟨reason, rfl⟩
      | ok elements =>
          rw [declared] at completes
          have taken := completes.mp (completes_ok elements)
          rw [if_neg fun stop => stop.2 taken]
          exact ⟨.success, _, Or.inl rfl, rfl⟩

end Protocol

namespace ProtocolParser

open Protocol

mutual

/-- YAML files that an entry leads to, each with the level it stands at. -/
def leveledFilesOf
    (level : Nat)
    (entry : DirEntry) : List (Nat × Option (List UInt8)) :=
  match entry with
  | .file name content =>
      if DirEntry.extension name ≠ ".yaml" then
        []
      else
        [(level, content)]
  | .directory _ entries => leveledFiles (level + 1) entries
  | .other _ => []

/-- YAML files of a directory and of those inside it, with their levels. -/
def leveledFiles
    (level : Nat)
    (entries : List DirEntry) : List (Nat × Option (List UInt8)) :=
  match entries with
  | [] => []
  | entry :: rest => leveledFilesOf level entry ++ leveledFiles level rest

end

/-- Every YAML file of the tree can be read and parsed. -/
def Readable
    (loader : Loader)
    (entries : List DirEntry) : Prop :=
  ∀ file ∈ leveledFiles 0 entries, (rootOf loader file.2).isSome = true

/-- A file at a level that the walk may enter refuses its service. -/
def refusedWithin
    (loader : Loader)
    (file : Nat × Option (List UInt8)) : Bool :=
  file.1 ≤ maxCurrentDepthPath &&
    (rootOf loader file.2).any (refusedService loader.isNumber)

/-- A file declares a service that can be stored. -/
def declaresService
    (loader : Loader)
    (content : Option (List UInt8)) : Bool :=
  (rootOf loader content).any (usableService loader.isNumber)

/-- The verdict that the tree calls for. -/
def verdictOf
    (loader : Loader)
    (entries : List DirEntry) : ProtocolParserErr :=
  let files := leveledFiles 0 entries
  if nesting entries > maxCurrentDepthPath ∨
      files.any (refusedWithin loader) then
    .unexpected
  else if files.isEmpty ∨
      ¬ files.any (fun file => declaresService loader file.2) then
    .invalidInput
  else
    .success

mutual

/-- What an entry holds against the walk, in the order it is met. -/
def stopsOf
    (loader : Loader)
    (level : Nat)
    (entry : DirEntry) : List Stop :=
  match entry with
  | .file name content =>
      if DirEntry.extension name ≠ ".yaml" then
        []
      else
        ((rootOf loader content).bind
          (stopOfRoot loader.isNumber)).toList
  | .directory _ entries =>
      if level + 1 > maxCurrentDepthPath then
        [.unexpected]
      else
        stops loader (level + 1) entries
  | .other _ => []

/-- What a directory holds against the walk, in the order it is met. -/
def stops
    (loader : Loader)
    (level : Nat)
    (entries : List DirEntry) : List Stop :=
  match entries with
  | [] => []
  | entry :: rest => stopsOf loader level entry ++ stops loader level rest

end

/-- How a visit or a walk ends; one that goes on is back at its level. -/
def EndsWith
    (level : Nat)
    (first : Option Stop)
    (result : Except Crash (ProtocolParserErr × ProtocolParser)) : Prop :=
  match first with
  | some .unexpected => ∃ walked, result = .ok (.unexpected, walked)
  | some .aborts => ∃ reason, result = .error (.aborted reason)
  | none =>
      ∃ walked,
        result = .ok (.success, walked) ∧
          walked.currentDepthPathListing = level

/-- A visit of a file ends as its document does. -/
theorem visit_file_endsWith
    {loader : Loader}
    {name : String}
    {content : Option (List UInt8)}
    {level : Nat}
    {parser : ProtocolParser}
    (atLevel : parser.currentDepthPathListing = level)
    (readable :
      ∀ file ∈ leveledFilesOf level (.file name content),
        (rootOf loader file.2).isSome = true)
    (path : String) :
    EndsWith level (stopsOf loader level (.file name content)).head?
      (visit loader path (.file name content) parser) := by
  unfold leveledFilesOf at readable
  unfold stopsOf visit
  by_cases yaml : DirEntry.extension name = ".yaml"
  · rw [if_neg (not_not.mpr yaml)] at readable ⊢
    obtain ⟨root, isRoot⟩ :=
      Option.isSome_iff_exists.mp (readable _ List.mem_cons_self)
    rw [if_neg (not_not.mpr yaml), isRoot, Option.bind_some]
    have loads :=
      parseProtocolFile_loadsTo loader.isNumber root parser.session
    simp only [parseProtocol, parseProtocolContent_of_rootOf isRoot]
    generalize stopOfRoot loader.isNumber root = ends at loads
    cases ends with
    | none =>
        obtain ⟨code, loaded, skips, isLoaded⟩ := loads
        rw [isLoaded]
        rcases skips with rfl | rfl
        · exact ⟨_, rfl, atLevel⟩
        · exact ⟨_, rfl, atLevel⟩
    | some stop =>
        cases stop with
        | aborts =>
            obtain ⟨reason, isAborted⟩ := loads
            rw [isAborted]
            exact ⟨reason, rfl⟩
        | unexpected =>
            obtain ⟨loaded, isLoaded⟩ := loads
            rw [isLoaded]
            exact ⟨_, rfl⟩
  · rw [if_pos yaml, if_pos yaml]
    exact ⟨parser, rfl, atLevel⟩

/-- A walk ends where its first entry does, or else where the rest does. -/
theorem listProtocolFiles_cons_endsWith
    {loader : Loader}
    {path : String}
    {entry : DirEntry}
    {rest : List DirEntry}
    {level : Nat}
    {parser : ProtocolParser}
    {ofEntry ofRest : Option Stop}
    (visits : EndsWith level ofEntry (visit loader path entry parser))
    (walks :
      ∀ visited : ProtocolParser,
        visited.currentDepthPathListing = level →
          EndsWith level ofRest
            (listProtocolFiles loader path rest visited)) :
    EndsWith level (ofEntry.or ofRest)
      (listProtocolFiles loader path (entry :: rest) parser) := by
  rw [listProtocolFiles]
  cases ofEntry with
  | none =>
      obtain ⟨visited, isVisited, sameLevel⟩ := visits
      rw [isVisited, Option.none_or]
      exact walks visited sameLevel
  | some stop =>
      cases stop with
      | aborts =>
          obtain ⟨reason, isAborted⟩ := visits
          rw [isAborted]
          exact ⟨reason, rfl⟩
      | unexpected =>
          obtain ⟨visited, isVisited⟩ := visits
          rw [isVisited]
          exact ⟨visited, rfl⟩

/-- A visit of a directory ends like the walk of its entries. -/
theorem visit_directory_endsWith
    {loader : Loader}
    {path name : String}
    {inner : List DirEntry}
    {level : Nat}
    {parser : ProtocolParser}
    (atLevel : parser.currentDepthPathListing = level)
    (walks :
      EndsWith (level + 1) (stops loader (level + 1) inner).head?
        (listProtocolFiles loader (path ++ "/" ++ name) inner
          { parser with
            currentDepthPathListing :=
              parser.currentDepthPathListing + 1 })) :
    EndsWith level (stopsOf loader level (.directory name inner)).head?
      (visit loader path (.directory name inner) parser) := by
  have sameDeep :
      parser.currentDepthPathListing + 1 > (maxCurrentDepthPath : Int) ↔
        level + 1 > maxCurrentDepthPath := by
    omega
  unfold stopsOf visit
  simp only [sameDeep]
  by_cases deep : level + 1 > maxCurrentDepthPath
  · rw [if_pos deep, if_pos deep]
    exact ⟨_, rfl⟩
  · rw [if_neg deep, if_neg deep]
    generalize (stops loader (level + 1) inner).head? = first at walks
    cases first with
    | none =>
        obtain ⟨visited, isVisited, sameLevel⟩ := walks
        rw [isVisited]
        refine ⟨_, rfl, ?_⟩
        change visited.currentDepthPathListing - 1 = _
        omega
    | some stop =>
        cases stop with
        | aborts =>
            obtain ⟨reason, isAborted⟩ := walks
            rw [isAborted]
            exact ⟨reason, rfl⟩
        | unexpected =>
            obtain ⟨visited, isVisited⟩ := walks
            rw [isVisited]
            exact ⟨_, rfl⟩

/-- A walk over readable files ends at the first thing held against it. -/
theorem listProtocolFiles_endsWith
    {loader : Loader}
    {entries : List DirEntry}
    {level : Nat}
    {parser : ProtocolParser}
    (atLevel : parser.currentDepthPathListing = level)
    (readable :
      ∀ file ∈ leveledFiles level entries,
        (rootOf loader file.2).isSome = true)
    (path : String) :
    EndsWith level (stops loader level entries).head?
      (listProtocolFiles loader path entries parser) := by
  induction entries using DirEntry.entries_induction
    generalizing path level parser with
  | nil =>
      rw [listProtocolFiles]
      exact ⟨parser, rfl, atLevel⟩
  | file name content rest inductionHypothesis =>
      rw [leveledFiles, List.forall_mem_append] at readable
      rw [stops, List.head?_append]
      refine listProtocolFiles_cons_endsWith
        (visit_file_endsWith atLevel readable.1 path) ?_
      intro visited sameLevel
      exact inductionHypothesis sameLevel readable.2 path
  | directory name inner rest innerHypothesis restHypothesis =>
      rw [leveledFiles, List.forall_mem_append] at readable
      rw [stops, List.head?_append]
      refine listProtocolFiles_cons_endsWith
        (visit_directory_endsWith atLevel ?_) ?_
      · refine innerHypothesis ?_ readable.1 (path ++ "/" ++ name)
        change parser.currentDepthPathListing + 1 = _
        rw [atLevel, Nat.cast_add, Nat.cast_one]
      · intro visited sameLevel
        exact restHypothesis sameLevel readable.2 path
  | other name rest inductionHypothesis =>
      rw [leveledFiles, List.forall_mem_append] at readable
      rw [stops, List.head?_append]
      refine listProtocolFiles_cons_endsWith ?_ ?_
      · rw [stopsOf, visit]
        exact ⟨parser, rfl, atLevel⟩
      · intro visited sameLevel
        exact inductionHypothesis sameLevel readable.2 path

/-- What is unexpected about a directory is so about one of its entries. -/
theorem unexpected_mem_stops_cons_iff
    {loader : Loader}
    {level : Nat}
    {entry : DirEntry}
    {rest : List DirEntry}
    (ofEntry :
      .unexpected ∈ stopsOf loader level entry ↔
        level + nestingOf entry > maxCurrentDepthPath ∨
          (leveledFilesOf level entry).any (refusedWithin loader) = true)
    (ofRest :
      .unexpected ∈ stops loader level rest ↔
        level + nesting rest > maxCurrentDepthPath ∨
          (leveledFiles level rest).any (refusedWithin loader) = true) :
    .unexpected ∈ stops loader level (entry :: rest) ↔
      level + nesting (entry :: rest) > maxCurrentDepthPath ∨
        (leveledFiles level (entry :: rest)).any
          (refusedWithin loader) = true := by
  have deepest :
      level + max (nestingOf entry) (nesting rest) > maxCurrentDepthPath ↔
        level + nestingOf entry > maxCurrentDepthPath ∨
          level + nesting rest > maxCurrentDepthPath := by
    omega
  rw [stops, nesting, leveledFiles, List.mem_append, List.any_append,
    Bool.or_eq_true, ofEntry, ofRest, deepest, or_or_or_comm]

/-- A document is unexpected exactly if it refuses its service. -/
theorem stopOfRoot_eq_unexpected_iff
    {isNumber : String → Bool}
    {root : Yaml} :
    stopOfRoot isNumber root = some .unexpected ↔
      refusedService isNumber root = true := by
  unfold stopOfRoot
  split
  next refused =>
    simp [refused]
  next accepted =>
    split
    next =>
      simp [accepted]
    next =>
      simp [accepted]

/-- A file is unexpected exactly if its document refuses its service. -/
theorem unexpected_mem_stopsOf_file_iff
    {loader : Loader}
    {level : Nat}
    (shallow : level ≤ maxCurrentDepthPath)
    (name : String)
    (content : Option (List UInt8)) :
    .unexpected ∈ stopsOf loader level (.file name content) ↔
      (leveledFilesOf level (.file name content)).any
        (refusedWithin loader) = true := by
  unfold stopsOf leveledFilesOf
  by_cases yaml : DirEntry.extension name = ".yaml"
  · rw [if_neg (not_not.mpr yaml), if_neg (not_not.mpr yaml)]
    cases isRoot : rootOf loader content with
    | none =>
        simp [refusedWithin, isRoot]
    | some root =>
        simp [refusedWithin, isRoot, shallow, stopOfRoot_eq_unexpected_iff]
  · rw [if_pos yaml, if_pos yaml]
    simp

/--
A walk has something unexpected before it exactly if a directory is nested too
deeply or a service is refused at a level that may be entered.
-/
theorem unexpected_mem_stops_iff
    {loader : Loader}
    {level : Nat}
    {entries : List DirEntry}
    (shallow : level ≤ maxCurrentDepthPath) :
    .unexpected ∈ stops loader level entries ↔
      level + nesting entries > maxCurrentDepthPath ∨
        (leveledFiles level entries).any (refusedWithin loader) = true := by
  induction entries using DirEntry.entries_induction
    generalizing level with
  | nil =>
      simp [stops, nesting, leveledFiles, shallow]
  | file name content rest inductionHypothesis =>
      refine unexpected_mem_stops_cons_iff ?_ (inductionHypothesis shallow)
      rw [unexpected_mem_stopsOf_file_iff shallow, nestingOf]
      exact (or_iff_right (Nat.not_lt_of_le shallow)).symm
  | directory name inner rest innerHypothesis restHypothesis =>
      refine unexpected_mem_stops_cons_iff ?_ (restHypothesis shallow)
      rw [stopsOf, nestingOf, leveledFilesOf]
      by_cases deep : level + 1 > maxCurrentDepthPath
      · have tooDeep :
            level + (nesting inner + 1) > maxCurrentDepthPath := by
          omega
        rw [if_pos deep]
        exact iff_of_true List.mem_cons_self (Or.inl tooDeep)
      · rw [if_neg deep, innerHypothesis (Nat.le_of_not_gt deep),
          Nat.add_right_comm, Nat.add_assoc]
  | other name rest inductionHypothesis =>
      refine unexpected_mem_stops_cons_iff ?_ (inductionHypothesis shallow)
      simp [stopsOf, nestingOf, leveledFilesOf, shallow]

/-- The levels of files leave out nothing but their paths. -/
theorem contents_leveledFiles
    (level : Nat)
    (path : String)
    (entries : List DirEntry) :
    (leveledFiles level entries).map Prod.snd =
      (yamlFiles path entries).map Prod.snd := by
  induction entries using DirEntry.entries_induction
    generalizing level path with
  | nil =>
      rfl
  | file name content rest inductionHypothesis =>
      rw [leveledFiles, yamlFiles, List.map_append, List.map_append,
        inductionHypothesis level path, leveledFilesOf, yamlFilesOf]
      by_cases yaml : DirEntry.extension name = ".yaml"
      · simp [yaml]
      · simp [yaml]
  | directory name inner rest innerHypothesis restHypothesis =>
      rw [leveledFiles, yamlFiles, List.map_append, List.map_append,
        restHypothesis level path, leveledFilesOf, yamlFilesOf,
        innerHypothesis (level + 1) (path ++ "/" ++ name)]
  | other name rest inductionHypothesis =>
      rw [leveledFiles, yamlFiles, List.map_append, List.map_append,
        inductionHypothesis level path, leveledFilesOf, yamlFilesOf]
      rfl

/-- A property of contents holds of the same files with path and level. -/
theorem exists_leveledFiles_iff
    {property : Option (List UInt8) → Prop}
    (level : Nat)
    (path : String)
    (entries : List DirEntry) :
    (∃ file ∈ leveledFiles level entries, property file.2) ↔
      ∃ file ∈ yamlFiles path entries, property file.2 := by
  have contents := contents_leveledFiles level path entries
  constructor
  · rintro ⟨file, member, holds⟩
    have isContent := List.mem_map_of_mem (f := Prod.snd) member
    rw [contents] at isContent
    obtain ⟨other, otherMember, same⟩ := List.mem_map.mp isContent
    exact ⟨other, otherMember, same ▸ holds⟩
  · rintro ⟨file, member, holds⟩
    have isContent := List.mem_map_of_mem (f := Prod.snd) member
    rw [← contents] at isContent
    obtain ⟨other, otherMember, same⟩ := List.mem_map.mp isContent
    exact ⟨other, otherMember, same ▸ holds⟩

/-- There are files with a path exactly if there are files with a level. -/
theorem yamlFiles_eq_nil_iff
    (level : Nat)
    (path : String)
    (entries : List DirEntry) :
    yamlFiles path entries = [] ↔ leveledFiles level entries = [] := by
  have contents := contents_leveledFiles level path entries
  rw [← @List.map_eq_nil_iff _ _ Prod.snd, ← contents,
    List.map_eq_nil_iff]

/-- The files of a readable tree can be read wherever they are. -/
theorem Readable.yamlFiles
    {loader : Loader}
    {entries : List DirEntry}
    (readable : Readable loader entries)
    (path : String) :
    ∀ file ∈ yamlFiles path entries,
      (rootOf loader file.2).isSome = true := by
  by_contra unread
  simp only [not_forall, exists_prop] at unread
  rw [← @exists_leveledFiles_iff fun content =>
    ¬ (rootOf loader content).isSome = true] at unread
  obtain ⟨file, member, notRead⟩ := unread
  exact notRead (readable file member)

/-- A read file that goes on declares a named service if it has one. -/
theorem declaresService_iff
    {loader : Loader}
    {content : Option (List UInt8)}
    {declared : Declarations}
    (readable : (rootOf loader content).isSome = true)
    (declares : declaredByContent loader content = some declared) :
    declaresService loader content = true ↔
      ∃ service ∈ declared.services, service.name ≠ "" := by
  obtain ⟨root, isRoot⟩ := Option.isSome_iff_exists.mp readable
  rw [declaredByContent_of_rootOf isRoot, declaredByRoot] at declares
  rw [declaresService, isRoot, Option.any_some, usableService_iff]
  cases named : getProtocolName loader.isNumber root with
  | error code =>
      rw [named] at declares
      rcases getProtocolName_eq_error named with rfl | rfl
      · cases declares
        simp [Declarations.merge]
      · cases declares
  | ok service =>
      rw [named] at declares
      have isDeclared :
          declarations service root = .ok declared := by
        cases walked : declarations service root with
        | error reason =>
            simp [walked, Except.toOption] at declares
        | ok elements =>
            simpa [walked, Except.toOption] using declares
      have isName : (declaredService service root).name = service := rfl
      simp [services_of_declarations isDeclared, isName]

/-- Behind a walk there is a service exactly if some file declares one. -/
theorem services_behind_iff
    {loader : Loader}
    {files : List (String × Option (List UInt8))}
    (readable : ∀ file ∈ files, (rootOf loader file.2).isSome = true)
    (allLoad : AllLoad loader files) :
    (fresh.behind loader files).session.serviceDb.entries ≠ [] ↔
      ∃ file ∈ files, declaresService loader file.2 = true := by
  change (Database.empty.addAll ProtocolService.name _).entries ≠ [] ↔ _
  rw [Database.entries_addAll_ne_nil_iff]
  simp only [Declarations.merge, declaredBy, List.mem_flatMap,
    List.mem_filterMap]
  constructor
  · rintro ⟨service, ⟨declared, ⟨file, member, declares⟩, isService⟩, named⟩
    refine ⟨file, member, ?_⟩
    rw [declaresService_iff (readable file member) declares]
    exact ⟨service, isService, named⟩
  · rintro ⟨file, member, usable⟩
    obtain ⟨declared, declares⟩ :=
      Option.isSome_iff_exists.mp (allLoad file member)
    rw [declaresService_iff (readable file member) declares] at usable
    obtain ⟨service, isService, named⟩ := usable
    exact ⟨service, ⟨declared, ⟨file, member, declares⟩, isService⟩, named⟩

/-- A walk that is not held up leaves a parser to be judged. -/
theorem parse_of_walked
    {loader : Loader}
    {basePath : String}
    {entries : List DirEntry}
    {walked : ProtocolParser}
    (walks :
      listProtocolFiles loader basePath entries fresh =
        .ok (.success, walked)) :
    parse loader basePath (some entries) fresh =
      .ok (if walked.yamlPaths = [] ∨
              walked.session.serviceDb.entries = [] then
            .invalidInput
          else
            .success, walked) := by
  simp only [parse, walks, bind, Except.bind, pure, Except.pure,
    List.isEmpty_iff]
  by_cases noPath : walked.yamlPaths = []
  · simp [noPath]
  · by_cases noService : walked.session.serviceDb.entries = []
    · simp [noPath, noService]
    · simp [noPath, noService]

/-- A tree in which the walk meets nothing gets the verdict of the walk. -/
theorem parse_of_no_stop
    {loader : Loader}
    {entries : List DirEntry}
    (readable : Readable loader entries)
    (noStop : stops loader 0 entries = [])
    (basePath : String) :
    ∃ parser,
      parse loader basePath (some entries) fresh =
        .ok (verdictOf loader entries, parser) := by
  have ends :=
    @listProtocolFiles_endsWith loader entries 0 fresh rfl readable basePath
  rw [noStop] at ends
  obtain ⟨walked, walks, -⟩ := ends
  have succeeds :=
    (listProtocolFiles_eq_success_iff (by decide)).mp walks
  have expected :
      ¬ (nesting entries > maxCurrentDepthPath ∨
        (leveledFiles 0 entries).any (refusedWithin loader) = true) := by
    have unexpected :=
      @unexpected_mem_stops_iff loader 0 entries (Nat.zero_le _)
    rw [noStop, Nat.zero_add] at unexpected
    simpa using unexpected.not.mp
  have paths :
      walked.yamlPaths = [] ↔ leveledFiles 0 entries = [] := by
    rw [succeeds.walked_eq, ← yamlFiles_eq_nil_iff 0 basePath]
    exact List.map_eq_nil_iff
  have services :
      walked.session.serviceDb.entries = [] ↔
        ¬ (leveledFiles 0 entries).any
            (fun file => declaresService loader file.2) = true := by
    rw [← not_iff_not, not_not, ← ne_eq, succeeds.walked_eq,
      List.any_eq_true,
      services_behind_iff (readable.yamlFiles basePath) succeeds.allLoad]
    have sameFiles :=
      @exists_leveledFiles_iff
        (fun content => declaresService loader content = true)
        0 basePath entries
    exact sameFiles.symm
  refine ⟨walked, ?_⟩
  rw [parse_of_walked walks, verdictOf]
  simp only [expected, paths, services, if_false, List.isEmpty_iff]

/-- A walk that ends early ends the parse alike. -/
theorem parse_endsWith
    {loader : Loader}
    {entries : List DirEntry}
    (readable : Readable loader entries)
    {stop : Stop}
    (first : (stops loader 0 entries).head? = some stop)
    (basePath : String) :
    EndsWith 0 (some stop)
      (parse loader basePath (some entries) fresh) := by
  have ends :=
    @listProtocolFiles_endsWith loader entries 0 fresh rfl readable basePath
  rw [first] at ends
  rw [parse]
  cases stop with
  | aborts =>
      obtain ⟨reason, isAborted⟩ := ends
      rw [isAborted]
      exact ⟨reason, rfl⟩
  | unexpected =>
      obtain ⟨walked, isWalked⟩ := ends
      rw [isWalked]
      exact ⟨walked, rfl⟩

/--
On a tree of readable files the parser returns the verdict that the tree calls
for, exactly unless the first thing that stands in the way of the walk is a file
whose service is not refused and that lacks a text where one is taken.
-/
theorem parse_returns_verdict_iff
    {loader : Loader}
    {entries : List DirEntry}
    (readable : Readable loader entries)
    (basePath : String) :
    (∃ parser,
        parse loader basePath (some entries) fresh =
          .ok (verdictOf loader entries, parser)) ↔
      (stops loader 0 entries).head? ≠ some .aborts := by
  cases first : (stops loader 0 entries).head? with
  | none =>
      have noStop := List.head?_eq_none_iff.mp first
      exact iff_of_true (parse_of_no_stop readable noStop basePath) nofun
  | some stop =>
      have ends := parse_endsWith readable first basePath
      cases stop with
      | aborts =>
          obtain ⟨reason, isAborted⟩ := ends
          refine iff_of_false ?_ fun other => other rfl
          rintro ⟨parser, returned⟩
          rw [isAborted] at returned
          cases returned
      | unexpected =>
          refine iff_of_true ?_ nofun
          obtain ⟨parser, returned⟩ := ends
          have met := List.mem_of_head? first
          rw [unexpected_mem_stops_iff (Nat.zero_le _),
            Nat.zero_add] at met
          refine ⟨parser, ?_⟩
          rw [returned, verdictOf, if_pos met]

/-- A service with a variable whose name is a sequence. -/
def unnamedVarText : String :=
  "service: a\nvars:\n  - var: [x]\n"

def unnamedVarDocument : Yaml :=
  .map [
    ("service", .scalar "a"),
    ("vars", .seq [.map [("var", .seq [.scalar "x"])]])]

/-- A number in place of a service. -/
def numberedText : String :=
  "service: 1722\n"

def numberedDocument : Yaml :=
  .map [("service", .scalar "1722")]

/-- A loader that parses these two files. -/
def twoFileLoader : Loader where
  paging := sampleLoader.paging
  isNumber := fun text => !text.isEmpty && text.toList.all Char.isDigit
  parseInArena := fun text =>
    if text = asciiBytes unnamedVarText then
      some unnamedVarDocument
    else if text = asciiBytes numberedText then
      some numberedDocument
    else
      none

theorem rootOf_unnamedVar :
    rootOf twoFileLoader (some (asciiBytes unnamedVarText)) =
      some unnamedVarDocument :=
  rootOf_of_whole (by decide) (by decide) rfl

theorem rootOf_numbered :
    rootOf twoFileLoader (some (asciiBytes numberedText)) =
      some numberedDocument :=
  rootOf_of_whole (by decide) (by decide) rfl

/-- The refused service is met before the file that would end the program. -/
def numberedFirst : List DirEntry :=
  [.directory "ieee"
      [.file "numbered.yaml" (some (asciiBytes numberedText))],
    .file "unnamed.yaml" (some (asciiBytes unnamedVarText))]

theorem numberedFirst_returns_verdict :
    Readable twoFileLoader numberedFirst ∧
      verdictOf twoFileLoader numberedFirst = .unexpected ∧
        ∃ parser,
          parse twoFileLoader "protocols" (some numberedFirst) fresh =
            .ok (verdictOf twoFileLoader numberedFirst, parser) := by
  have files :
      leveledFiles 0 numberedFirst =
        [(1, some (asciiBytes numberedText)),
          (0, some (asciiBytes unnamedVarText))] := by
    decide
  have readable : Readable twoFileLoader numberedFirst := by
    simp [Readable, files, rootOf_numbered, rootOf_unnamedVar]
  have refused :
      refusedService twoFileLoader.isNumber numberedDocument = true := by
    decide
  refine ⟨readable, ?_, (parse_returns_verdict_iff readable _).mpr ?_⟩
  · have within :
        (leveledFiles 0 numberedFirst).any
          (refusedWithin twoFileLoader) = true := by
      simp [files, refusedWithin, rootOf_numbered, refused,
        maxCurrentDepthPath]
    rw [verdictOf, if_pos (Or.inr within)]
  · have isYaml : DirEntry.extension "numbered.yaml" = ".yaml" := by
      decide
    simp [numberedFirst, stops, stopsOf, isYaml, rootOf_numbered,
      stopOfRoot_eq_unexpected_iff.mpr refused, maxCurrentDepthPath]

/-- A tree of this one file should be a success and ends the program. -/
theorem unnamed_var_ends_walk :
    ¬ ∀ (loader : Loader) (basePath : String) (entries : List DirEntry),
      Readable loader entries →
        ∃ parser,
          parse loader basePath (some entries) fresh =
            .ok (verdictOf loader entries, parser) := by
  intro always
  let entries : List DirEntry :=
    [.file "unnamed.yaml" (some (asciiBytes unnamedVarText))]
  have isYaml : DirEntry.extension "unnamed.yaml" = ".yaml" := by
    decide
  have readable : Readable twoFileLoader entries := by
    simp [Readable, entries, leveledFiles, leveledFilesOf, isYaml,
      rootOf_unnamedVar]
  have aborts :
      stopOfRoot twoFileLoader.isNumber unnamedVarDocument =
        some .aborts := by
    decide
  have first : (stops twoFileLoader 0 entries).head? = some .aborts := by
    simp [entries, stops, stopsOf, isYaml, rootOf_unnamedVar, aborts]
  obtain ⟨parser, returned⟩ :=
    always twoFileLoader "protocols" entries readable
  obtain ⟨reason, isAborted⟩ := parse_endsWith readable first "protocols"
  rw [isAborted] at returned
  cases returned

end ProtocolParser

end TsnGen
