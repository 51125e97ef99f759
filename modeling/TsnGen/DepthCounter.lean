import TsnGen.DirectoryWalk

namespace TsnGen

/-!
# The depth counter over many walks

The counter of directory levels is a member of the parser and survives a call.
Every way back from a directory lowers it again, except the one that finds the
directory nested too deeply.  A walk that ends there leaves the counter one too
high, and every later call on the parser enters one level less.
-/

namespace ProtocolParser

open Protocol

/-- What ends a walk early. -/
inductive Halt where
  | file
  | tooDeep
  deriving Repr, DecidableEq

mutual

/-- What ends a walk at an entry, met at a depth. -/
def haltOf
    (loader : Loader)
    (depth : Int)
    (entry : DirEntry) : Option Halt :=
  match entry with
  | .file name content =>
      if DirEntry.extension name ≠ ".yaml" then
        none
      else if (declaredByContent loader content).isSome then
        none
      else
        some .file
  | .directory _ entries =>
      if depth + 1 > (maxCurrentDepthPath : Int) then
        some .tooDeep
      else
        halt loader (depth + 1) entries
  | .other _ => none

/-- What ends a walk of a directory, met at a depth, first. -/
def halt
    (loader : Loader)
    (depth : Int)
    (entries : List DirEntry) : Option Halt :=
  match entries with
  | [] => none
  | entry :: rest => (haltOf loader depth entry).or (halt loader depth rest)

end

/-- How a visit or a walk from a depth ends and where it leaves the counter. -/
def LeavesDepth
    (depth : Int)
    (first : Option Halt)
    (result : Except Crash (ProtocolParserErr × ProtocolParser)) : Prop :=
  match first with
  | none =>
      ∃ walked,
        result = .ok (.success, walked) ∧
          walked.currentDepthPathListing = depth
  | some .tooDeep =>
      ∃ walked,
        result = .ok (.unexpected, walked) ∧
          walked.currentDepthPathListing = depth + 1
  | some .file =>
      ∀ err walked,
        result = .ok (err, walked) →
          err ≠ .success ∧ walked.currentDepthPathListing = depth

/-- A visit of a file does not touch the counter. -/
theorem depth_of_visit_file
    {loader : Loader}
    {path name : String}
    {content : Option (List UInt8)}
    {parser visited : ProtocolParser}
    {err : ProtocolParserErr}
    (visits :
      visit loader path (.file name content) parser = .ok (err, visited)) :
    visited.currentDepthPathListing = parser.currentDepthPathListing := by
  unfold visit at visits
  split at visits
  · cases visits
    rfl
  · simp only [parseProtocol] at visits
    cases loaded :
        parseProtocolContent loader content parser.session with
    | error reason =>
        simp [loaded, bind, Except.bind] at visits
    | ok result =>
        simp only [loaded, bind, Except.bind, pure, Except.pure,
          Except.ok.injEq, Prod.mk.injEq] at visits
        rw [← visits.2]

/-- A file ends a walk if it has to, and leaves the counter alone. -/
theorem visit_file_leavesDepth
    (loader : Loader)
    (path name : String)
    (content : Option (List UInt8))
    (parser : ProtocolParser) :
    LeavesDepth parser.currentDepthPathListing
      (haltOf loader parser.currentDepthPathListing (.file name content))
      (visit loader path (.file name content) parser) := by
  have succeeds {visited : ProtocolParser} :=
    @visit_file_eq_success_iff loader path name content parser visited
  have ends :
      haltOf loader parser.currentDepthPathListing (.file name content) =
          none ∧ AllLoad loader (yamlFilesOf path (.file name content)) ∨
        haltOf loader parser.currentDepthPathListing (.file name content) =
          some .file ∧
            ¬ AllLoad loader (yamlFilesOf path (.file name content)) := by
    rw [haltOf, yamlFilesOf]
    by_cases yaml : DirEntry.extension name = ".yaml"
    · cases loads : (declaredByContent loader content).isSome with
      | true =>
          simp [yaml, AllLoad, loads]
      | false =>
          simp [yaml, AllLoad, loads]
    · simp [yaml]
  rcases ends with ⟨isNone, loads⟩ | ⟨isFile, fails⟩
  · rw [isNone]
    exact ⟨_, succeeds.mpr ⟨loads, rfl⟩, rfl⟩
  · rw [isFile]
    intro err walked visits
    refine ⟨?_, depth_of_visit_file visits⟩
    rintro rfl
    exact fails (succeeds.mp visits).1

/-- A walk leaves the counter as its first entry does, or else as the rest. -/
theorem listProtocolFiles_cons_leavesDepth
    {loader : Loader}
    {path : String}
    {entry : DirEntry}
    {rest : List DirEntry}
    {depth : Int}
    {parser : ProtocolParser}
    {ofEntry ofRest : Option Halt}
    (visits : LeavesDepth depth ofEntry (visit loader path entry parser))
    (walks :
      ∀ visited : ProtocolParser,
        visited.currentDepthPathListing = depth →
          LeavesDepth depth ofRest
            (listProtocolFiles loader path rest visited)) :
    LeavesDepth depth (ofEntry.or ofRest)
      (listProtocolFiles loader path (entry :: rest) parser) := by
  rw [listProtocolFiles]
  cases ofEntry with
  | none =>
      obtain ⟨visited, isVisited, sameDepth⟩ := visits
      rw [isVisited, Option.none_or]
      exact walks visited sameDepth
  | some first =>
      cases first with
      | tooDeep =>
          obtain ⟨visited, isVisited, deeper⟩ := visits
          rw [isVisited]
          exact ⟨visited, rfl, deeper⟩
      | file =>
          intro err walked walks
          cases isVisited : visit loader path entry parser with
          | error reason =>
              simp [isVisited, bind, Except.bind] at walks
          | ok result =>
              obtain ⟨failure, visited⟩ := result
              obtain ⟨failed, sameDepth⟩ := visits failure visited isVisited
              simp only [isVisited, bind, Except.bind, failed, ↓reduceIte,
                pure, Except.pure, Except.ok.injEq,
                Prod.mk.injEq] at walks
              obtain ⟨rfl, rfl⟩ := walks
              exact ⟨failed, sameDepth⟩

/-- A visit of a directory takes back the level that it went down. -/
theorem visit_directory_leavesDepth
    {loader : Loader}
    {path name : String}
    {inner : List DirEntry}
    {parser : ProtocolParser}
    (walks :
      LeavesDepth (parser.currentDepthPathListing + 1)
        (halt loader (parser.currentDepthPathListing + 1) inner)
        (listProtocolFiles loader (path ++ "/" ++ name) inner
          { parser with
            currentDepthPathListing :=
              parser.currentDepthPathListing + 1 })) :
    LeavesDepth parser.currentDepthPathListing
      (haltOf loader parser.currentDepthPathListing (.directory name inner))
      (visit loader path (.directory name inner) parser) := by
  unfold haltOf visit
  dsimp only
  by_cases deep :
      parser.currentDepthPathListing + 1 > (maxCurrentDepthPath : Int)
  · rw [if_pos deep, if_pos deep]
    exact ⟨_, rfl, rfl⟩
  · rw [if_neg deep, if_neg deep]
    generalize halt loader (parser.currentDepthPathListing + 1) inner =
      first at walks
    cases first with
    | none =>
        obtain ⟨walked, isWalked, sameDepth⟩ := walks
        rw [isWalked]
        refine ⟨_, rfl, ?_⟩
        change walked.currentDepthPathListing - 1 = _
        omega
    | some halted =>
        cases halted with
        | tooDeep =>
            obtain ⟨walked, isWalked, deeper⟩ := walks
            rw [isWalked]
            refine ⟨_, rfl, ?_⟩
            change walked.currentDepthPathListing - 1 = _
            omega
        | file =>
            intro err visited isVisited
            cases isWalked :
                listProtocolFiles loader (path ++ "/" ++ name) inner
                  { parser with
                    currentDepthPathListing :=
                      parser.currentDepthPathListing + 1 } with
            | error reason =>
                simp [isWalked, bind, Except.bind] at isVisited
            | ok result =>
                obtain ⟨failure, walked⟩ := result
                obtain ⟨failed, sameDepth⟩ := walks failure walked isWalked
                simp only [isWalked, bind, Except.bind, pure, Except.pure,
                  Except.ok.injEq, Prod.mk.injEq] at isVisited
                obtain ⟨rfl, rfl⟩ := isVisited
                refine ⟨failed, ?_⟩
                change walked.currentDepthPathListing - 1 = _
                omega

/-- A walk leaves the counter as what ends it says. -/
theorem listProtocolFiles_leavesDepth
    (loader : Loader)
    (path : String)
    (entries : List DirEntry)
    (parser : ProtocolParser) :
    LeavesDepth parser.currentDepthPathListing
      (halt loader parser.currentDepthPathListing entries)
      (listProtocolFiles loader path entries parser) := by
  induction entries using DirEntry.entries_induction
    generalizing path parser with
  | nil =>
      rw [listProtocolFiles]
      exact ⟨parser, rfl, rfl⟩
  | file name content rest inductionHypothesis =>
      rw [halt]
      refine listProtocolFiles_cons_leavesDepth
        (visit_file_leavesDepth loader path name content parser) ?_
      intro visited sameDepth
      rw [← sameDepth]
      exact inductionHypothesis path visited
  | directory name inner rest innerHypothesis restHypothesis =>
      rw [halt]
      refine listProtocolFiles_cons_leavesDepth
        (visit_directory_leavesDepth ?_) ?_
      · exact innerHypothesis (path ++ "/" ++ name)
          { parser with
            currentDepthPathListing := parser.currentDepthPathListing + 1 }
      intro visited sameDepth
      rw [← sameDepth]
      exact restHypothesis path visited
  | other name rest inductionHypothesis =>
      rw [halt]
      refine listProtocolFiles_cons_leavesDepth ?_ ?_
      · rw [haltOf, visit]
        exact ⟨parser, rfl, rfl⟩
      · intro visited sameDepth
        rw [← sameDepth]
        exact inductionHypothesis path visited

/-- A walk that returns has raised the counter if it ended too deep. -/
theorem depth_of_listProtocolFiles
    {loader : Loader}
    {path : String}
    {entries : List DirEntry}
    {parser walked : ProtocolParser}
    {err : ProtocolParserErr}
    (returns :
      listProtocolFiles loader path entries parser = .ok (err, walked)) :
    walked.currentDepthPathListing =
      if halt loader parser.currentDepthPathListing entries =
          some .tooDeep then
        parser.currentDepthPathListing + 1
      else
        parser.currentDepthPathListing := by
  have leaves := listProtocolFiles_leavesDepth loader path entries parser
  rw [returns] at leaves
  generalize halt loader parser.currentDepthPathListing entries =
    first at leaves ⊢
  cases first with
  | none =>
      obtain ⟨_, same, sameDepth⟩ := leaves
      cases same
      exact sameDepth
  | some halted =>
      cases halted with
      | tooDeep =>
          obtain ⟨_, same, deeper⟩ := leaves
          cases same
          exact deeper
      | file =>
          exact (leaves err walked rfl).2

/-- A call returns what the walk returns, or finds too little loaded. -/
theorem parse_some_eq
    (loader : Loader)
    (basePath : String)
    (entries : List DirEntry)
    (parser : ProtocolParser) :
    parse loader basePath (some entries) parser =
      (listProtocolFiles loader basePath entries parser).map
        fun result =>
          (if result.1 ≠ .success then
            result.1
          else if result.2.yamlPaths.isEmpty ∨
              result.2.session.serviceDb.entries.isEmpty then
            .invalidInput
          else
            .success, result.2) := by
  rw [parse]
  cases listProtocolFiles loader basePath entries parser with
  | error reason =>
      rfl
  | ok result =>
      obtain ⟨err, walked⟩ := result
      simp only [bind, Except.bind, pure, Except.pure, Except.map]
      split
      · rfl
      · split
        next noPaths =>
          simp [noPaths]
        next =>
          split
          next noServices =>
            simp [noServices]
          next somePath someService =>
            simp [somePath, someService]

/-- A call that returns has raised the counter if its walk ended too deep. -/
theorem depth_of_parse
    {loader : Loader}
    {basePath : String}
    {entries : List DirEntry}
    {parser parsed : ProtocolParser}
    {err : ProtocolParserErr}
    (returns :
      parse loader basePath (some entries) parser = .ok (err, parsed)) :
    parsed.currentDepthPathListing =
      if halt loader parser.currentDepthPathListing entries =
          some .tooDeep then
        parser.currentDepthPathListing + 1
      else
        parser.currentDepthPathListing := by
  rw [parse_some_eq] at returns
  cases walks : listProtocolFiles loader basePath entries parser with
  | error reason =>
      simp [walks, Except.map] at returns
  | ok result =>
      simp only [walks, Except.map, Except.ok.injEq,
        Prod.mk.injEq] at returns
      rw [← returns.2]
      exact depth_of_listProtocolFiles walks

/-- One call after the other, each on the tree as it then is. -/
def parseEach
    (loader : Loader)
    (basePath : String) :
    List (Option (List DirEntry)) → ProtocolParser →
      Except Crash ProtocolParser
  | [], parser => .ok parser
  | base :: later, parser => do
      let result ← parse loader basePath base parser
      parseEach loader basePath later result.2

/-- Calls that return go through a parser behind the first of them. -/
theorem parseEach_cons_eq_ok_iff
    {loader : Loader}
    {basePath : String}
    {base : Option (List DirEntry)}
    {later : List (Option (List DirEntry))}
    {parser behind : ProtocolParser} :
    parseEach loader basePath (base :: later) parser = .ok behind ↔
      ∃ err parsed,
        parse loader basePath base parser = .ok (err, parsed) ∧
          parseEach loader basePath later parsed = .ok behind := by
  rw [parseEach]
  cases parse loader basePath base parser with
  | error reason =>
      simp [bind, Except.bind]
  | ok result =>
      simp [bind, Except.bind, Prod.ext_iff]

/-- No call lowers the counter. -/
theorem depth_le_of_parseEach
    {loader : Loader}
    {basePath : String}
    {calls : List (Option (List DirEntry))}
    {parser behind : ProtocolParser}
    (returns : parseEach loader basePath calls parser = .ok behind) :
    parser.currentDepthPathListing ≤ behind.currentDepthPathListing := by
  induction calls generalizing parser with
  | nil =>
      cases returns
      exact Int.le_refl _
  | cons base later inductionHypothesis =>
      obtain ⟨err, parsed, first, others⟩ :=
        parseEach_cons_eq_ok_iff.mp returns
      have further := inductionHypothesis others
      cases base with
      | none =>
          cases first
          exact further
      | some entries =>
          have raised := depth_of_parse first
          split at raised
          · omega
          · omega

/-- From zero the counter stays at zero while no walk ends too deep. -/
theorem depth_of_parseEach_eq_zero_iff
    {loader : Loader}
    {basePath : String}
    {calls : List (Option (List DirEntry))}
    {parser behind : ProtocolParser}
    (fromZero : parser.currentDepthPathListing = 0)
    (returns : parseEach loader basePath calls parser = .ok behind) :
    behind.currentDepthPathListing = 0 ↔
      ∀ entries, some entries ∈ calls →
        halt loader 0 entries ≠ some .tooDeep := by
  induction calls generalizing parser with
  | nil =>
      cases returns
      simp [fromZero]
  | cons base later inductionHypothesis =>
      obtain ⟨err, parsed, first, others⟩ :=
        parseEach_cons_eq_ok_iff.mp returns
      cases base with
      | none =>
          cases first
          simpa using inductionHypothesis fromZero others
      | some entries =>
          have raised := depth_of_parse first
          rw [fromZero] at raised
          by_cases deep : halt loader 0 entries = some .tooDeep
          · rw [if_pos deep] at raised
            have further := depth_le_of_parseEach others
            refine iff_of_false (by omega) ?_
            intro shallow
            exact shallow entries List.mem_cons_self deep
          · rw [if_neg deep] at raised
            rw [inductionHypothesis raised others]
            simp [deep]

/-- A number of directories, each inside the one before. -/
def nested : Nat → List DirEntry
  | 0 => []
  | levels + 1 => [.directory "nested" (nested levels)]

/-- The next call refuses directories exactly below a number of levels. -/
def AppliesLimit
    (loader : Loader)
    (limit : Nat)
    (parser : ProtocolParser) : Prop :=
  ∀ basePath levels,
    (∃ parsed,
      parse loader basePath (some (nested levels)) parser =
        .ok (.unexpected, parsed)) ↔
      limit < levels

/-- Nested directories end a walk only by being too deep. -/
theorem halt_nested
    (loader : Loader)
    (depth : Int)
    (levels : Nat) :
    halt loader depth (nested levels) =
      if 0 < levels ∧ depth + levels > (maxCurrentDepthPath : Int) then
        some .tooDeep
      else
        none := by
  induction levels generalizing depth with
  | zero =>
      rfl
  | succ levels inductionHypothesis =>
      rw [nested, halt, halt, haltOf, Option.or_none, inductionHypothesis]
      split
      · rw [if_pos]
        omega
      · split
        · rw [if_pos]
          omega
        · rw [if_neg]
          omega

/-- A call on nested directories is refused exactly if they are too deep. -/
theorem parse_nested_eq_unexpected_iff
    (loader : Loader)
    (basePath : String)
    (levels : Nat)
    (parser : ProtocolParser) :
    (∃ parsed,
      parse loader basePath (some (nested levels)) parser =
        .ok (.unexpected, parsed)) ↔
      0 < levels ∧
        parser.currentDepthPathListing + levels >
          (maxCurrentDepthPath : Int) := by
  have leaves :=
    listProtocolFiles_leavesDepth loader basePath (nested levels) parser
  rw [halt_nested] at leaves
  rw [parse_some_eq]
  split at leaves
  next deep =>
    obtain ⟨walked, walks, -⟩ := leaves
    simp [walks, Except.map, deep]
  next shallow =>
    obtain ⟨walked, walks, -⟩ := leaves
    refine iff_of_false ?_ shallow
    rintro ⟨parsed, returned⟩
    simp only [walks, Except.map, ne_eq, not_true_eq_false, ↓reduceIte,
      Except.ok.injEq, Prod.mk.injEq] at returned
    obtain ⟨verdict, -⟩ := returned
    split at verdict
    · cases verdict
    · cases verdict

/-- The limit is the one meant exactly while the counter is at zero. -/
theorem appliesLimit_iff
    (loader : Loader)
    (parser : ProtocolParser) :
    AppliesLimit loader maxCurrentDepthPath parser ↔
      parser.currentDepthPathListing = 0 := by
  have refused := parse_nested_eq_unexpected_iff loader
  constructor
  · intro applies
    have within := (refused "" 16 parser).symm.trans (applies "" 16)
    have beyond := (refused "" 17 parser).symm.trans (applies "" 17)
    rw [maxCurrentDepthPath] at within beyond
    omega
  · intro fromZero basePath levels
    rw [refused, fromZero]
    omega

/--
A walk gives the counter back as it found it, and the calls so far leave the
limit as it is meant, exactly unless a walk ends at a directory that is nested
too deeply.
-/
theorem depth_restored_iff
    (loader : Loader) :
    (∀ path entries parser,
      (∀ err walked,
        listProtocolFiles loader path entries parser = .ok (err, walked) →
          walked.currentDepthPathListing =
            parser.currentDepthPathListing) ↔
        halt loader parser.currentDepthPathListing entries ≠
          some .tooDeep) ∧
    ∀ basePath calls parser,
      parseEach loader basePath calls fresh = .ok parser →
        (AppliesLimit loader maxCurrentDepthPath parser ↔
          ∀ entries, some entries ∈ calls →
            halt loader 0 entries ≠ some .tooDeep) := by
  constructor
  · intro path entries parser
    constructor
    · intro restored deep
      have leaves :=
        listProtocolFiles_leavesDepth loader path entries parser
      rw [deep] at leaves
      obtain ⟨walked, walks, deeper⟩ := leaves
      have same := restored _ _ walks
      omega
    · intro shallow err walked walks
      rw [depth_of_listProtocolFiles walks, if_neg shallow]
  · intro basePath calls parser returns
    rw [appliesLimit_iff]
    exact depth_of_parseEach_eq_zero_iff rfl returns

/-- A loader that rejects every text. -/
def rejectingLoader : Loader where
  paging := { pageSize := 16384, positive := by decide }
  isNumber := fun _ => false
  parseInArena := fun _ => none

theorem depth_restored_iff_failed_calls :
    ∃ parser,
      parseEach rejectingLoader "protocols"
          [none, some [.directory "ieee" [.file "notes.txt" none]]] fresh =
        .ok parser ∧
      AppliesLimit rejectingLoader maxCurrentDepthPath parser := by
  have returns :
      parseEach rejectingLoader "protocols"
          [none, some [.directory "ieee" [.file "notes.txt" none]]] fresh =
        .ok fresh := by
    rfl
  refine ⟨fresh, returns,
    ((depth_restored_iff rejectingLoader).2 _ _ _ returns).mpr ?_⟩
  intro entries member
  have isTree :
      entries = [.directory "ieee" [.file "notes.txt" none]] := by
    simpa using member
  rw [isTree]
  decide

/-- Seventeen nested directories leave the counter at one. -/
theorem nested_directories_raise_depth :
    ¬ ∀ (loader : Loader) (path : String) (entries : List DirEntry)
      (parser walked : ProtocolParser) (err : ProtocolParserErr),
      listProtocolFiles loader path entries parser = .ok (err, walked) →
        walked.currentDepthPathListing =
          parser.currentDepthPathListing := by
  intro restored
  have leaves :=
    listProtocolFiles_leavesDepth rejectingLoader "protocols" (nested 17)
      fresh
  rw [halt_nested, if_pos (by decide)] at leaves
  obtain ⟨walked, walks, deeper⟩ := leaves
  have same := restored _ _ _ _ _ _ walks
  rw [deeper] at same
  cases same

end ProtocolParser

end TsnGen
