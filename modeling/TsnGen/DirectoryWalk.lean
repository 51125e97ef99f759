import TsnGen.DeclaredElements
import TsnGen.DocumentText

namespace TsnGen

/-!
# Walking a protocol directory

`ProtocolParser::parse` walks a directory tree and loads every YAML file it
meets into shared databases.  A file without a service is skipped; any other
error, and a directory nested too deeply, ends the walk.

The order of the entries of a directory is the order in which the directory
iterator yields them.  What the walk needs of the YAML library is a parameter.
-/

/-- A member of a directory. -/
inductive DirEntry where
  /-- A regular file; there is no content if it cannot be opened. -/
  | file (name : String) (content : Option (List UInt8))
  | directory (name : String) (entries : List DirEntry)
  | other (name : String)
  deriving Repr

namespace DirEntry

/-- Induction over the entries of a directory and of those inside it. -/
theorem entries_induction
    {motive : List DirEntry → Prop}
    (nil : motive [])
    (file :
      ∀ name content rest,
        motive rest → motive (.file name content :: rest))
    (directory :
      ∀ name inner rest,
        motive inner → motive rest →
          motive (.directory name inner :: rest))
    (other : ∀ name rest, motive rest → motive (.other name :: rest)) :
    ∀ entries, motive entries
  | [] => nil
  | .file name content :: rest =>
      file name content rest
        (entries_induction nil file directory other rest)
  | .directory name inner :: rest =>
      directory name inner rest
        (entries_induction nil file directory other inner)
        (entries_induction nil file directory other rest)
  | .other name :: rest =>
      other name rest (entries_induction nil file directory other rest)

/-- `path::extension` of a file name. -/
def extension
    (name : String) : String :=
  if name = ".." then
    ""
  else
    match rfind? ".".toList name.toList with
    | some (position + 1) =>
        String.ofList (name.toList.drop (position + 1))
    | _ => ""

end DirEntry

/-- What the loader takes from its environment. -/
structure Loader where
  paging : Paging
  /-- The library's parser; there is no result if it rejects a text. -/
  parseInArena : List UInt8 → Option Yaml
  isNumber : String → Bool

/-- Ways in which the walk ends the program. -/
inductive Crash where
  | fault (reason : MemoryFault)
  | rejected
  | aborted (reason : Abort)
  deriving Repr, DecidableEq

/-- Result codes of the directory parser. -/
inductive ProtocolParserErr where
  | success
  | unknown
  | invalidInput
  | unexpected
  | undefined
  | exists
  deriving Repr, DecidableEq

/-- The number of a loader code, read as a code of the directory parser. -/
def ProtocolParserErr.ofProtocolErr :
    ProtocolErr → ProtocolParserErr
  | .success => .success
  | .unknown => .unknown
  | .invalidFile => .invalidInput
  | .unexpected => .unexpected

/-- `parseProtocolFile` from the opened file on. -/
def Protocol.parseProtocolContent
    (loader : Loader)
    (content : Option (List UInt8))
    (session : Session) : Except Crash (ProtocolErr × Session) :=
  match content with
  | none => .ok (.success, session)
  | some bytes =>
      match documentText loader.paging bytes with
      | .error reason => .error (.fault reason)
      | .ok none => .ok (.success, session)
      | .ok (some text) =>
          match loader.parseInArena text with
          | none => .error .rejected
          | some root =>
              (parseProtocolFile loader.isNumber root session).mapError
                .aborted

/-- The directory parser. -/
structure ProtocolParser where
  yamlPaths : List String
  currentDepthPathListing : Int
  session : Session

namespace ProtocolParser

def maxCurrentDepthPath : Nat :=
  16

/-- A parser that has not parsed yet. -/
def fresh : ProtocolParser where
  yamlPaths := []
  currentDepthPathListing := 0
  session := .empty

/-- Load one file. -/
def parseProtocol
    (loader : Loader)
    (content : Option (List UInt8))
    (parser : ProtocolParser) :
    Except Crash (ProtocolParserErr × ProtocolParser) := do
  let loaded ←
    Protocol.parseProtocolContent loader content parser.session
  return (.ofProtocolErr loaded.1, { parser with session := loaded.2 })

mutual

/-- The body of the loop over a directory; it skips files without a service. -/
def visit
    (loader : Loader)
    (path : String)
    (entry : DirEntry)
    (parser : ProtocolParser) :
    Except Crash (ProtocolParserErr × ProtocolParser) :=
  match entry with
  | .file name content =>
      if DirEntry.extension name ≠ ".yaml" then
        .ok (.success, parser)
      else do
        let listed :=
          { parser with
            yamlPaths := parser.yamlPaths ++ [path ++ "/" ++ name] }
        let (err, parsed) ← parseProtocol loader content listed
        return (if err = .invalidInput then .success else err, parsed)
  | .directory name entries =>
      let deeper :=
        { parser with
          currentDepthPathListing := parser.currentDepthPathListing + 1 }
      if deeper.currentDepthPathListing > (maxCurrentDepthPath : Int) then
        .ok (.unexpected, deeper)
      else do
        let (err, walked) ←
          listProtocolFiles loader (path ++ "/" ++ name) entries deeper
        return (err,
          { walked with
            currentDepthPathListing := walked.currentDepthPathListing - 1 })
  | .other _ => .ok (.success, parser)

/-- Load the files of a directory up to the first error. -/
def listProtocolFiles
    (loader : Loader)
    (path : String)
    (entries : List DirEntry)
    (parser : ProtocolParser) :
    Except Crash (ProtocolParserErr × ProtocolParser) :=
  match entries with
  | [] => .ok (.success, parser)
  | entry :: rest => do
      let (err, visited) ← visit loader path entry parser
      if err = .success then
        listProtocolFiles loader path rest visited
      else
        return (err, visited)

end

/-- Parse the base directory; there are no entries if it does not exist. -/
def parse
    (loader : Loader)
    (basePath : String)
    (base : Option (List DirEntry))
    (parser : ProtocolParser) :
    Except Crash (ProtocolParserErr × ProtocolParser) :=
  match base with
  | none => .ok (.invalidInput, parser)
  | some entries => do
      let (err, walked) ← listProtocolFiles loader basePath entries parser
      if err ≠ .success then
        return (err, walked)
      else if walked.yamlPaths.isEmpty then
        return (.invalidInput, walked)
      else if walked.session.serviceDb.entries.isEmpty then
        return (.invalidInput, walked)
      else
        return (.success, walked)

end ProtocolParser

namespace Protocol

/-- The declarations of several documents, one after the other. -/
def Declarations.merge
    (documents : List Declarations) : Declarations where
  vars := documents.flatMap Declarations.vars
  interfaces := documents.flatMap Declarations.interfaces
  services := documents.flatMap Declarations.services

@[simp] theorem Declarations.addTo_merge_nil
    (session : Session) :
    (merge []).addTo session = session :=
  rfl

@[simp] theorem Declarations.merge_singleton
    (document : Declarations) :
    merge [document] = document := by
  simp [merge]

theorem Declarations.addTo_merge_append
    (first second : List Declarations)
    (session : Session) :
    (merge (first ++ second)).addTo session =
      (merge second).addTo ((merge first).addTo session) := by
  simp [addTo, merge, Database.addAll_append]

/-- What a document declares; nothing at all if it has to end the walk. -/
def declaredByRoot
    (isNumber : String → Bool)
    (root : Yaml) : Option Declarations :=
  match getProtocolName isNumber root with
  | .error .invalidFile => some (.merge [])
  | .error _ => none
  | .ok serviceName => (declarations serviceName root).toOption

/-- What a file declares; nothing at all if it has to end the walk. -/
def declaredByContent
    (loader : Loader)
    (content : Option (List UInt8)) : Option Declarations :=
  match content with
  | none => some (.merge [])
  | some bytes =>
      match documentText loader.paging bytes with
      | .error _ => none
      | .ok none => some (.merge [])
      | .ok (some text) =>
          (loader.parseInArena text).bind (declaredByRoot loader.isNumber)

/-- The service name is missing or of no use. -/
theorem getProtocolName_eq_error
    {isNumber : String → Bool}
    {root : Yaml}
    {code : ProtocolErr}
    (unnamed : getProtocolName isNumber root = .error code) :
    code = .invalidFile ∨ code = .unexpected := by
  unfold getProtocolName at unnamed
  split at unnamed
  next =>
    cases unnamed
    exact .inl rfl
  next node found =>
    split at unnamed
    next =>
      cases unnamed
      exact .inr rfl
    next name isText =>
      split at unnamed
      next =>
        cases unnamed
        exact .inr rfl
      next =>
        cases unnamed

/-- A document without a usable service loads nothing. -/
theorem parseProtocolFile_of_unnamed
    {isNumber : String → Bool}
    {root : Yaml}
    {code : ProtocolErr}
    (unnamed : getProtocolName isNumber root = .error code)
    (session : Session) :
    parseProtocolFile isNumber root session = .ok (code, session) := by
  unfold parseProtocolFile
  rw [unnamed]
  split
  next =>
    rfl
  next noMap =>
    have code_eq : code = .invalidFile := by
      cases root with
      | map entries =>
          exact absurd rfl noMap
      | scalar text =>
          simpa [getProtocolName, Yaml.child?] using unnamed.symm
      | seq items =>
          simpa [getProtocolName, Yaml.child?] using unnamed.symm
    rw [code_eq]
    rfl

/-- Loading a document goes on exactly behind what it declares. -/
theorem parseProtocolFile_goes_on_iff
    {isNumber : String → Bool}
    {root : Yaml}
    {session loaded : Session} :
    (∃ code,
        (code = .success ∨ code = .invalidFile) ∧
          parseProtocolFile isNumber root session = .ok (code, loaded)) ↔
      ∃ declared,
        declaredByRoot isNumber root = some declared ∧
          loaded = declared.addTo session := by
  unfold declaredByRoot
  cases named : getProtocolName isNumber root with
  | ok serviceName =>
      rw [parseProtocolFile_eq named]
      dsimp only
      cases declarations serviceName root with
      | error reason =>
          simp [bind, Except.bind, Except.toOption]
      | ok declared =>
          simp [bind, Except.bind, pure, Except.pure, Except.toOption,
            eq_comm]
  | error code =>
      rw [parseProtocolFile_of_unnamed named]
      rcases getProtocolName_eq_error named with rfl | rfl
      · simp [eq_comm]
      · simp

/-- The document of a file, if the file can be read and parsed. -/
def rootOf
    (loader : Loader)
    (content : Option (List UInt8)) : Option Yaml :=
  match content with
  | none => none
  | some bytes =>
      match documentText loader.paging bytes with
      | .ok (some text) => loader.parseInArena text
      | _ => none

/-- The document of a file that is read, as the walk gets it. -/
theorem exists_text_of_rootOf
    {loader : Loader}
    {content : Option (List UInt8)}
    {root : Yaml}
    (readable : rootOf loader content = some root) :
    ∃ bytes text,
      content = some bytes ∧
        documentText loader.paging bytes = .ok (some text) ∧
          loader.parseInArena text = some root := by
  unfold rootOf at readable
  split at readable
  next =>
    cases readable
  next bytes =>
    split at readable
    next text isText =>
      exact ⟨bytes, text, rfl, isText, readable⟩
    next =>
      cases readable

/-- A file that is read as it is has the document that is parsed from it. -/
theorem rootOf_of_whole
    {loader : Loader}
    {content : List UInt8}
    {root : Yaml}
    (clean : 0 ∉ content)
    (padded : ¬ loader.paging.pageSize ∣ content.length)
    (parsed : loader.parseInArena content = some root) :
    rootOf loader (some content) = some root := by
  have whole :=
    (documentText_eq_content_iff loader.paging content).mpr
      ⟨clean, padded⟩
  simp [rootOf, whole, parsed]

/-- A file that is read is loaded as its document. -/
theorem parseProtocolContent_of_rootOf
    {loader : Loader}
    {content : Option (List UInt8)}
    {root : Yaml}
    (readable : rootOf loader content = some root)
    (session : Session) :
    parseProtocolContent loader content session =
      (parseProtocolFile loader.isNumber root session).mapError
        .aborted := by
  obtain ⟨bytes, text, rfl, isText, parsed⟩ :=
    exists_text_of_rootOf readable
  simp only [parseProtocolContent, isText, parsed]

/-- A file that is read declares what its document does. -/
theorem declaredByContent_of_rootOf
    {loader : Loader}
    {content : Option (List UInt8)}
    {root : Yaml}
    (readable : rootOf loader content = some root) :
    declaredByContent loader content =
      declaredByRoot loader.isNumber root := by
  obtain ⟨bytes, text, rfl, isText, parsed⟩ :=
    exists_text_of_rootOf readable
  simp only [declaredByContent, isText, parsed, Option.bind_some]

/-- A file that is read as it is declares what its document does. -/
theorem declaredByContent_of_whole
    {loader : Loader}
    {content : List UInt8}
    {root : Yaml}
    (clean : 0 ∉ content)
    (padded : ¬ loader.paging.pageSize ∣ content.length)
    (parsed : loader.parseInArena content = some root) :
    declaredByContent loader (some content) =
      declaredByRoot loader.isNumber root :=
  declaredByContent_of_rootOf (rootOf_of_whole clean padded parsed)

/-- Loading a file goes on exactly behind what it declares. -/
theorem parseProtocolContent_goes_on_iff
    {loader : Loader}
    {content : Option (List UInt8)}
    {session loaded : Session} :
    (∃ code,
        (code = .success ∨ code = .invalidFile) ∧
          parseProtocolContent loader content session =
            .ok (code, loaded)) ↔
      ∃ declared,
        declaredByContent loader content = some declared ∧
          loaded = declared.addTo session := by
  unfold parseProtocolContent declaredByContent
  cases content with
  | none =>
      simp [eq_comm]
  | some bytes =>
      dsimp only
      cases documentText loader.paging bytes with
      | error reason =>
          simp
      | ok text =>
          cases text with
          | none =>
              simp [eq_comm]
          | some text =>
              dsimp only
              cases loader.parseInArena text with
              | none =>
                  simp
              | some root =>
                  dsimp only
                  rw [Option.bind_some, ← parseProtocolFile_goes_on_iff]
                  cases parseProtocolFile loader.isNumber root session with
                  | error reason =>
                      simp [Except.mapError]
                  | ok result =>
                      simp [Except.mapError]

end Protocol

namespace ProtocolParser

mutual

/-- Paths and contents of the YAML files that an entry leads to. -/
def yamlFilesOf
    (path : String)
    (entry : DirEntry) : List (String × Option (List UInt8)) :=
  match entry with
  | .file name content =>
      if DirEntry.extension name ≠ ".yaml" then
        []
      else
        [(path ++ "/" ++ name, content)]
  | .directory name entries => yamlFiles (path ++ "/" ++ name) entries
  | .other _ => []

/-- The YAML files of a directory and of those inside it. -/
def yamlFiles
    (path : String)
    (entries : List DirEntry) : List (String × Option (List UInt8)) :=
  match entries with
  | [] => []
  | entry :: rest => yamlFilesOf path entry ++ yamlFiles path rest

end

mutual

/-- How many directories an entry is nested. -/
def nestingOf
    (entry : DirEntry) : Nat :=
  match entry with
  | .file _ _ => 0
  | .directory _ entries => nesting entries + 1
  | .other _ => 0

/-- How many directories are nested inside a directory. -/
def nesting
    (entries : List DirEntry) : Nat :=
  match entries with
  | [] => 0
  | entry :: rest => max (nestingOf entry) (nesting rest)

end

/-- What files declare, one after the other. -/
def declaredBy
    (loader : Loader)
    (files : List (String × Option (List UInt8))) :
    List Protocol.Declarations :=
  files.filterMap fun file => Protocol.declaredByContent loader file.2

/-- The parser behind files that do not end the walk. -/
def behind
    (loader : Loader)
    (files : List (String × Option (List UInt8)))
    (parser : ProtocolParser) : ProtocolParser where
  yamlPaths := parser.yamlPaths ++ files.map Prod.fst
  currentDepthPathListing := parser.currentDepthPathListing
  session :=
    (Protocol.Declarations.merge (declaredBy loader files)).addTo
      parser.session

/-- No file ends the walk. -/
def AllLoad
    (loader : Loader)
    (files : List (String × Option (List UInt8))) : Prop :=
  ∀ file ∈ files,
    (Protocol.declaredByContent loader file.2).isSome = true

@[simp] theorem behind_nil
    (loader : Loader)
    (parser : ProtocolParser) :
    parser.behind loader [] = parser := by
  simp [behind, declaredBy]

theorem behind_append
    (loader : Loader)
    (first second : List (String × Option (List UInt8)))
    (parser : ProtocolParser) :
    parser.behind loader (first ++ second) =
      (parser.behind loader first).behind loader second := by
  simp [behind, declaredBy, Protocol.Declarations.addTo_merge_append]

@[simp] theorem allLoad_nil
    (loader : Loader) :
    AllLoad loader [] := by
  simp [AllLoad]

theorem allLoad_append_iff
    {loader : Loader}
    {first second : List (String × Option (List UInt8))} :
    AllLoad loader (first ++ second) ↔
      AllLoad loader first ∧ AllLoad loader second :=
  List.forall_mem_append

/-- A visit of a file goes on exactly behind what the file declares. -/
theorem visit_file_eq_success_iff
    {loader : Loader}
    {path name : String}
    {content : Option (List UInt8)}
    {parser visited : ProtocolParser} :
    visit loader path (.file name content) parser =
        .ok (.success, visited) ↔
      AllLoad loader (yamlFilesOf path (.file name content)) ∧
        visited =
          parser.behind loader (yamlFilesOf path (.file name content)) := by
  by_cases yaml : DirEntry.extension name = ".yaml"
  · have step :
        visit loader path (.file name content) parser =
            .ok (.success, visited) ↔
          ∃ loaded,
            (∃ code,
              (code = .success ∨ code = .invalidFile) ∧
                Protocol.parseProtocolContent loader content
                    parser.session =
                  .ok (code, loaded)) ∧
              visited =
                { parser with
                  yamlPaths := parser.yamlPaths ++ [path ++ "/" ++ name]
                  session := loaded } := by
      simp only [visit, yaml, parseProtocol]
      cases Protocol.parseProtocolContent loader content parser.session with
      | error reason =>
          simp [bind, Except.bind]
      | ok result =>
          obtain ⟨code, loaded⟩ := result
          cases code with
          | success =>
              simp [bind, Except.bind, pure, Except.pure,
                ProtocolParserErr.ofProtocolErr, eq_comm]
          | invalidFile =>
              simp [bind, Except.bind, pure, Except.pure,
                ProtocolParserErr.ofProtocolErr, eq_comm]
          | unknown =>
              simp [bind, Except.bind, pure, Except.pure,
                ProtocolParserErr.ofProtocolErr]
          | unexpected =>
              simp [bind, Except.bind, pure, Except.pure,
                ProtocolParserErr.ofProtocolErr]
    simp only [step, Protocol.parseProtocolContent_goes_on_iff,
      yamlFilesOf, yaml]
    cases outcome : Protocol.declaredByContent loader content with
    | none =>
        simp [AllLoad, outcome]
    | some declared =>
        simp [AllLoad, behind, declaredBy, outcome]
  · simp only [visit, yamlFilesOf, yaml, ne_eq, not_false_eq_true,
      ↓reduceIte, behind_nil, allLoad_nil, Except.ok.injEq,
      Prod.mk.injEq, true_and]
    exact eq_comm

/-- A visit of a directory goes on behind a walk of its entries. -/
theorem visit_directory_eq_success_iff
    {loader : Loader}
    {path name : String}
    {inner : List DirEntry}
    {parser visited : ProtocolParser} :
    visit loader path (.directory name inner) parser =
        .ok (.success, visited) ↔
      parser.currentDepthPathListing + 1 ≤ maxCurrentDepthPath ∧
        ∃ walked,
          listProtocolFiles loader (path ++ "/" ++ name) inner
              { parser with
                currentDepthPathListing :=
                  parser.currentDepthPathListing + 1 } =
              .ok (.success, walked) ∧
            visited =
              { walked with
                currentDepthPathListing :=
                  walked.currentDepthPathListing - 1 } := by
  simp only [visit]
  by_cases deep :
      parser.currentDepthPathListing + 1 > maxCurrentDepthPath
  · have refused :
        ¬ parser.currentDepthPathListing + 1 ≤ maxCurrentDepthPath :=
      Int.not_le_of_gt deep
    rw [if_pos deep]
    simp only [refused, false_and, Except.ok.injEq, Prod.mk.injEq,
      reduceCtorEq]
  · have allowed :
        parser.currentDepthPathListing + 1 ≤ maxCurrentDepthPath :=
      Int.not_lt.mp deep
    rw [if_neg deep]
    simp only [allowed, true_and]
    cases listProtocolFiles loader (path ++ "/" ++ name) inner
        { parser with
          currentDepthPathListing := parser.currentDepthPathListing + 1 }
      with
    | error reason =>
        simp [bind, Except.bind]
    | ok result =>
        obtain ⟨err, walked⟩ := result
        by_cases clean : err = .success
        · simp [bind, Except.bind, pure, Except.pure, clean, eq_comm]
        · simp [bind, Except.bind, pure, Except.pure, clean]

/-- A walk goes on behind every entry that does not end it. -/
theorem listProtocolFiles_cons_eq_success_iff
    {loader : Loader}
    {path : String}
    {entry : DirEntry}
    {rest : List DirEntry}
    {parser walked : ProtocolParser} :
    listProtocolFiles loader path (entry :: rest) parser =
        .ok (.success, walked) ↔
      ∃ visited,
        visit loader path entry parser = .ok (.success, visited) ∧
          listProtocolFiles loader path rest visited =
            .ok (.success, walked) := by
  rw [listProtocolFiles]
  cases visit loader path entry parser with
  | error reason =>
      simp [bind, Except.bind]
  | ok result =>
      obtain ⟨err, visited⟩ := result
      by_cases clean : err = .success
      · simp [bind, Except.bind, clean]
      · simp [bind, Except.bind, pure, Except.pure, clean]

/-- All that a walk or a visit needs to succeed, and what it leaves behind. -/
structure Succeeds
    (loader : Loader)
    (files : List (String × Option (List UInt8)))
    (levels : Nat)
    (parser walked : ProtocolParser) : Prop where
  fits :
    parser.currentDepthPathListing + levels ≤ maxCurrentDepthPath
  allLoad : AllLoad loader files
  walked_eq : walked = parser.behind loader files

/-- Where no level is entered the files alone decide. -/
theorem succeeds_zero_iff
    {loader : Loader}
    {files : List (String × Option (List UInt8))}
    {parser walked : ProtocolParser}
    (shallow : parser.currentDepthPathListing ≤ maxCurrentDepthPath) :
    Succeeds loader files 0 parser walked ↔
      AllLoad loader files ∧ walked = parser.behind loader files :=
  ⟨fun succeeds => ⟨succeeds.allLoad, succeeds.walked_eq⟩,
    fun ⟨loads, same⟩ => ⟨(Int.add_zero _).trans_le shallow, loads, same⟩⟩

/-- A success leaves the level it started from. -/
theorem Succeeds.depth_eq
    {loader : Loader}
    {files : List (String × Option (List UInt8))}
    {levels : Nat}
    {parser walked : ProtocolParser}
    (succeeds : Succeeds loader files levels parser walked) :
    walked.currentDepthPathListing = parser.currentDepthPathListing := by
  rw [succeeds.walked_eq]
  rfl

/-- Success of one part after the other is success of the whole. -/
theorem succeeds_append_iff
    {loader : Loader}
    {first second : List (String × Option (List UInt8))}
    {firstLevels secondLevels : Nat}
    {parser walked : ProtocolParser} :
    Succeeds loader (first ++ second) (max firstLevels secondLevels) parser
        walked ↔
      ∃ visited,
        Succeeds loader first firstLevels parser visited ∧
          Succeeds loader second secondLevels visited walked := by
  constructor
  · rintro ⟨fits, loads, rfl⟩
    obtain ⟨firstLoads, secondLoads⟩ := allLoad_append_iff.mp loads
    refine ⟨parser.behind loader first, ⟨?_, firstLoads, rfl⟩,
      ⟨?_, secondLoads, behind_append loader first second parser⟩⟩
    · omega
    · change parser.currentDepthPathListing + _ ≤ _
      omega
  · rintro ⟨_, ⟨firstFits, firstLoads, rfl⟩,
      ⟨secondFits, secondLoads, rfl⟩⟩
    change parser.currentDepthPathListing + _ ≤ _ at secondFits
    refine ⟨?_, allLoad_append_iff.mpr ⟨firstLoads, secondLoads⟩,
      (behind_append loader first second parser).symm⟩
    omega

/-- Going one level down and up again around files changes nothing. -/
theorem behind_of_deeper
    (loader : Loader)
    (files : List (String × Option (List UInt8)))
    (parser : ProtocolParser) :
    { behind loader files
        { parser with
          currentDepthPathListing := parser.currentDepthPathListing + 1 } with
      currentDepthPathListing :=
        parser.currentDepthPathListing + 1 - 1 } =
      parser.behind loader files := by
  rw [Int.add_sub_cancel]
  rfl

/-- A visit of a directory succeeds like the walk of its entries. -/
theorem succeeds_deeper_iff
    {loader : Loader}
    {files : List (String × Option (List UInt8))}
    {levels : Nat}
    {parser visited : ProtocolParser} :
    Succeeds loader files (levels + 1) parser visited ↔
      ∃ walked,
        Succeeds loader files levels
            { parser with
              currentDepthPathListing :=
                parser.currentDepthPathListing + 1 }
            walked ∧
          visited =
            { walked with
              currentDepthPathListing :=
                walked.currentDepthPathListing - 1 } := by
  constructor
  · rintro ⟨fits, loads, rfl⟩
    refine ⟨_, ⟨?_, loads, rfl⟩, (behind_of_deeper loader files parser).symm⟩
    change parser.currentDepthPathListing + 1 + levels ≤ _
    omega
  · rintro ⟨_, ⟨fits, loads, rfl⟩, rfl⟩
    change parser.currentDepthPathListing + 1 + levels ≤ _ at fits
    refine ⟨?_, loads, behind_of_deeper loader files parser⟩
    omega

/--
Behind a successful visit the rest is walked from the same level, so the two
successes are one.
-/
theorem listProtocolFiles_cons_succeeds_iff
    {loader : Loader}
    {path : String}
    {entry : DirEntry}
    {rest : List DirEntry}
    {parser walked : ProtocolParser}
    (shallow : parser.currentDepthPathListing ≤ maxCurrentDepthPath)
    (visits :
      ∀ visited,
        visit loader path entry parser = .ok (.success, visited) ↔
          Succeeds loader (yamlFilesOf path entry) (nestingOf entry) parser
            visited)
    (walks :
      ∀ visited : ProtocolParser,
        visited.currentDepthPathListing ≤ maxCurrentDepthPath →
          (listProtocolFiles loader path rest visited =
              .ok (.success, walked) ↔
            Succeeds loader (yamlFiles path rest) (nesting rest) visited
              walked)) :
    listProtocolFiles loader path (entry :: rest) parser =
        .ok (.success, walked) ↔
      Succeeds loader (yamlFiles path (entry :: rest))
        (nesting (entry :: rest)) parser walked := by
  rw [listProtocolFiles_cons_eq_success_iff, nesting, yamlFiles,
    succeeds_append_iff]
  refine exists_congr fun visited => ?_
  rw [visits]
  exact and_congr_right fun succeeds =>
    walks visited (succeeds.depth_eq.trans_le shallow)

/--
A walk succeeds exactly if no directory is nested too deeply and no file ends
it, and it has then loaded what the files declare in the order it met them.
-/
theorem listProtocolFiles_eq_success_iff
    {loader : Loader}
    {path : String}
    {entries : List DirEntry}
    {parser walked : ProtocolParser}
    (shallow : parser.currentDepthPathListing ≤ maxCurrentDepthPath) :
    listProtocolFiles loader path entries parser =
        .ok (.success, walked) ↔
      Succeeds loader (yamlFiles path entries) (nesting entries) parser
        walked := by
  induction entries using DirEntry.entries_induction
    generalizing path parser walked with
  | nil =>
      simp only [listProtocolFiles, nesting, yamlFiles, Except.ok.injEq,
        Prod.mk.injEq, true_and]
      rw [succeeds_zero_iff shallow, behind_nil, eq_comm]
      simp only [allLoad_nil, true_and]
  | file name content rest inductionHypothesis =>
      refine listProtocolFiles_cons_succeeds_iff shallow ?_
        fun visited => inductionHypothesis
      intro visited
      rw [visit_file_eq_success_iff, nestingOf, succeeds_zero_iff shallow]
  | directory name inner rest innerHypothesis restHypothesis =>
      refine listProtocolFiles_cons_succeeds_iff shallow ?_
        fun visited => restHypothesis
      intro visited
      rw [visit_directory_eq_success_iff, nestingOf, yamlFilesOf,
        succeeds_deeper_iff]
      constructor
      · rintro ⟨allowed, walked, walks, left⟩
        exact ⟨walked, (innerHypothesis allowed).mp walks, left⟩
      · rintro ⟨walked, succeeds, left⟩
        have allowed :
            parser.currentDepthPathListing + 1 ≤ maxCurrentDepthPath :=
          (Int.le_add_of_nonneg_right (Int.natCast_nonneg _)).trans
            succeeds.fits
        exact ⟨allowed, walked, (innerHypothesis allowed).mpr succeeds,
          left⟩
  | other name rest inductionHypothesis =>
      refine listProtocolFiles_cons_succeeds_iff shallow ?_
        fun visited => inductionHypothesis
      intro visited
      simp only [visit, nestingOf, yamlFilesOf, Except.ok.injEq,
        Prod.mk.injEq, true_and]
      rw [succeeds_zero_iff shallow, behind_nil, eq_comm]
      simp only [allLoad_nil, true_and]

/-- A fresh parser succeeds if the walk does and there is a service. -/
theorem parse_eq_success_iff
    {loader : Loader}
    {basePath : String}
    {entries : List DirEntry}
    {parser : ProtocolParser} :
    parse loader basePath (some entries) fresh = .ok (.success, parser) ↔
      Succeeds loader (yamlFiles basePath entries) (nesting entries) fresh
          parser ∧
        parser.yamlPaths ≠ [] ∧
        parser.session.serviceDb.entries ≠ [] := by
  have walks {walked : ProtocolParser} :=
    @listProtocolFiles_eq_success_iff loader basePath entries fresh walked
      (by decide)
  simp only [← walks, parse]
  cases listProtocolFiles loader basePath entries fresh with
  | error reason =>
      simp [bind, Except.bind]
  | ok result =>
      obtain ⟨err, walked⟩ := result
      by_cases clean : err = .success
      · have ofWalked :
            (walked = parser ∧
                parser.yamlPaths ≠ [] ∧
                parser.session.serviceDb.entries ≠ []) ↔
              walked = parser ∧
                walked.yamlPaths ≠ [] ∧
                walked.session.serviceDb.entries ≠ [] := by
          refine and_congr_right ?_
          rintro rfl
          rfl
        simp only [Except.ok.injEq, Prod.mk.injEq, clean, true_and, ofWalked]
        by_cases noPaths : walked.yamlPaths = []
        · simp [bind, Except.bind, pure, Except.pure, noPaths]
        · by_cases noServices : walked.session.serviceDb.entries = []
          · simp [bind, Except.bind, pure, Except.pure, noPaths, noServices]
          · simp [bind, Except.bind, pure, Except.pure, noPaths, noServices]
      · simp [bind, Except.bind, pure, Except.pure, clean]

end ProtocolParser

end TsnGen
