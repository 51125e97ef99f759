import TsnGen.DirectoryWalk

namespace TsnGen

/-!
# Loading in another order

A directory iterator yields the entries of a directory in no particular order.
The databases keep the first element of a name, so the order shows exactly
where two files declare different elements under one qualified name.  Services
of different names do not rule that out: the separator may be part of a name.
-/

namespace Database

/-- No two groups disagree about the first element of a name. -/
def Agreeing
    (keyOf : α → String)
    (groups : List (List α)) : Prop :=
  ∀ first ∈ groups, ∀ second ∈ groups, ∀ name element other,
    firstNamed keyOf first name = some element →
      firstNamed keyOf second name = some other →
        element = other

theorem firstNamed_append
    (keyOf : α → String)
    (first second : List α)
    (name : String) :
    firstNamed keyOf (first ++ second) name =
      (firstNamed keyOf first name).or (firstNamed keyOf second name) := by
  unfold firstNamed
  by_cases unnamed : name = ""
  · simp [unnamed]
  · simp [unnamed]

/-- Groups that agree may be added in any order. -/
theorem firstNamed_flatten_perm
    {keyOf : α → String}
    {groups reordered : List (List α)}
    (agreeing : Agreeing keyOf groups)
    (permutation : groups.Perm reordered)
    (name : String) :
    firstNamed keyOf groups.flatten name =
      firstNamed keyOf reordered.flatten name := by
  induction permutation with
  | nil =>
      rfl
  | cons group permutation inductionHypothesis =>
      have rest := inductionHypothesis fun first firstMember second member =>
        agreeing first (List.mem_cons_of_mem group firstMember) second
          (List.mem_cons_of_mem group member)
      rw [List.flatten_cons, List.flatten_cons, firstNamed_append,
        firstNamed_append, rest]
  | swap first second groups =>
      simp only [List.flatten_cons, firstNamed_append]
      rw [← Option.or_assoc, ← Option.or_assoc]
      congr 1
      cases ofFirst : firstNamed keyOf first name with
      | none =>
          simp
      | some element =>
          cases ofSecond : firstNamed keyOf second name with
          | none =>
              simp
          | some other =>
              have same :=
                agreeing first (by simp) second (by simp) name element other
                  ofFirst ofSecond
              simp [same]
  | trans firstStep secondStep firstHypothesis secondHypothesis =>
      have between : Agreeing keyOf _ :=
        fun first firstMember second member =>
          agreeing first (firstStep.mem_iff.mpr firstMember) second
            (firstStep.mem_iff.mpr member)
      rw [firstHypothesis agreeing, secondHypothesis between]

/-- Databases filled from groups that agree do not show the order. -/
theorem addAll_flatten_perm
    {keyOf : α → String}
    {groups reordered : List (List α)}
    (agreeing : Agreeing keyOf groups)
    (permutation : groups.Perm reordered)
    (database : Database α) :
    database.addAll keyOf groups.flatten =
      database.addAll keyOf reordered.flatten := by
  refine ext_getElement fun name => ?_
  rw [getElement_addAll, getElement_addAll,
    firstNamed_flatten_perm agreeing permutation]

/-- Groups agree if the same database comes out whichever is added first. -/
theorem agreeing_of_fronts
    {keyOf : α → String}
    {groups : List (List α)}
    (database : Database α)
    (fronts :
      ∀ group ∈ groups, ∃ rest,
        empty.addAll keyOf (group ++ rest) = database) :
    Agreeing keyOf groups := by
  intro first firstMember second secondMember name element other
    ofFirst ofSecond
  obtain ⟨firstRest, firstAdded⟩ := fronts first firstMember
  obtain ⟨secondRest, secondAdded⟩ := fronts second secondMember
  have foundFirst : database.getElement name = some element := by
    rw [← firstAdded, getElement_addAll, firstNamed_append, ofFirst]
    rfl
  have foundSecond : database.getElement name = some other := by
    rw [← secondAdded, getElement_addAll, firstNamed_append, ofSecond]
    rfl
  rw [foundFirst, Option.some.injEq] at foundSecond
  exact foundSecond

/-- Groups without a name in common agree. -/
theorem agreeing_of_nodup
    {keyOf : α → String}
    {groups : List (List α)}
    (distinct : (groups.flatten.map keyOf).Nodup) :
    Agreeing keyOf groups := by
  have firstOfAll {group : List α} {name : String} {element : α}
      (member : group ∈ groups)
      (found : firstNamed keyOf group name = some element) :
      firstNamed keyOf groups.flatten name = some element := by
    unfold firstNamed at found
    split at found
    next =>
      cases found
    next named =>
      have hasName : keyOf element = name := by
        simpa using List.find?_some found
      have elementMember : element ∈ groups.flatten :=
        List.mem_flatten.mpr
          ⟨group, member, List.mem_of_find?_eq_some found⟩
      rw [← hasName] at named ⊢
      exact firstNamed_of_nodup distinct elementMember named
  intro first firstMember second secondMember name element other
    ofFirst ofSecond
  have same := (firstOfAll firstMember ofFirst).symm.trans
    (firstOfAll secondMember ofSecond)
  exact Option.some.inj same

end Database

/--
The same tree, yielded in another order: the entries of a directory are
permuted, or those of one inside it, as often as one likes.
-/
inductive Reordered :
    List DirEntry → List DirEntry → Prop where
  | entries
      {first second : List DirEntry}
      (permutation : first.Perm second) :
      Reordered first second
  | inside
      {first second : List DirEntry}
      (name : String)
      (rest : List DirEntry)
      (inner : Reordered first second) :
      Reordered (.directory name first :: rest)
        (.directory name second :: rest)
  | trans
      {first second third : List DirEntry}
      (before : Reordered first second)
      (after : Reordered second third) :
      Reordered first third

namespace Reordered

/-- Reordering goes on behind an entry. -/
theorem cons
    {first second : List DirEntry}
    (entry : DirEntry)
    (reordered : Reordered first second) :
    Reordered (entry :: first) (entry :: second) := by
  induction reordered with
  | entries permutation =>
      exact .entries (permutation.cons entry)
  | inside name rest inner =>
      exact .trans (.entries (.swap _ _ _))
        (.trans (.inside name (entry :: rest) inner)
          (.entries (.swap _ _ _)))
  | trans before after beforeHypothesis afterHypothesis =>
      exact .trans beforeHypothesis afterHypothesis

end Reordered

namespace ProtocolParser

theorem yamlFiles_eq_flatMap
    (path : String)
    (entries : List DirEntry) :
    yamlFiles path entries = entries.flatMap (yamlFilesOf path) := by
  induction entries with
  | nil =>
      rfl
  | cons entry rest inductionHypothesis =>
      rw [yamlFiles, inductionHypothesis, List.flatMap_cons]

/-- Another order yields the same files. -/
theorem yamlFiles_perm
    {entries reordered : List DirEntry}
    (same : Reordered entries reordered)
    (path : String) :
    (yamlFiles path entries).Perm (yamlFiles path reordered) := by
  induction same generalizing path with
  | entries permutation =>
      rw [yamlFiles_eq_flatMap, yamlFiles_eq_flatMap]
      exact permutation.flatMap_right _
  | inside name rest inner inductionHypothesis =>
      simp only [yamlFiles, yamlFilesOf]
      exact (inductionHypothesis _).append_right _
  | trans before after beforeHypothesis afterHypothesis =>
      exact (beforeHypothesis path).trans (afterHypothesis path)

/-- Another order nests no deeper. -/
theorem nesting_eq_of_reordered
    {entries reordered : List DirEntry}
    (same : Reordered entries reordered) :
    nesting entries = nesting reordered := by
  induction same with
  | entries permutation =>
      induction permutation with
      | nil =>
          rfl
      | cons entry permutation inductionHypothesis =>
          rw [nesting, nesting, inductionHypothesis]
      | swap first second rest =>
          simp only [nesting]
          exact Nat.max_left_comm _ _ _
      | trans before after beforeHypothesis afterHypothesis =>
          exact beforeHypothesis.trans afterHypothesis
  | inside name rest inner inductionHypothesis =>
      simp only [nesting, nestingOf, inductionHypothesis]
  | trans before after beforeHypothesis afterHypothesis =>
      exact beforeHypothesis.trans afterHypothesis

/-- A file that can come first can do so in front of another entry, too. -/
theorem exists_reordered_cons
    {path : String}
    {entries : List DirEntry}
    {file : String × Option (List UInt8)}
    (entry : DirEntry)
    (toFront :
      ∃ reordered rest,
        Reordered entries reordered ∧
          yamlFiles path reordered = file :: rest) :
    ∃ reordered rest,
      Reordered (entry :: entries) reordered ∧
        yamlFiles path reordered = file :: rest := by
  obtain ⟨reordered, rest, same, isFirst⟩ := toFront
  refine ⟨reordered ++ [entry], rest ++ yamlFilesOf path entry,
    .trans (same.cons entry)
      (.entries (List.perm_append_singleton entry reordered).symm), ?_⟩
  rw [yamlFiles_eq_flatMap] at isFirst ⊢
  simp [isFirst]

/-- Every file can be the first one that is yielded. -/
theorem exists_reordered_to_front
    {path : String}
    {entries : List DirEntry}
    {file : String × Option (List UInt8)}
    (member : file ∈ yamlFiles path entries) :
    ∃ reordered rest,
      Reordered entries reordered ∧
        yamlFiles path reordered = file :: rest := by
  induction entries using DirEntry.entries_induction
    generalizing path with
  | nil =>
      simp [yamlFiles] at member
  | file name content rest inductionHypothesis =>
      rw [yamlFiles, List.mem_append] at member
      rcases member with here | later
      · have isFirst :
            yamlFilesOf path (.file name content) = [file] := by
          unfold yamlFilesOf at here ⊢
          split
          next other =>
            simp [other] at here
          next yaml =>
            simpa [yaml, eq_comm] using here
        refine ⟨_, yamlFiles path rest, .entries (.refl _), ?_⟩
        rw [yamlFiles, isFirst]
        rfl
      · exact exists_reordered_cons _ (inductionHypothesis later)
  | directory name inner rest innerHypothesis restHypothesis =>
      rw [yamlFiles, List.mem_append, yamlFilesOf] at member
      rcases member with here | later
      · obtain ⟨reordered, more, same, isFirst⟩ := innerHypothesis here
        refine ⟨.directory name reordered :: rest,
          more ++ yamlFiles path rest, .inside name rest same, ?_⟩
        rw [yamlFiles, yamlFilesOf, isFirst]
        rfl
      · exact exists_reordered_cons _ (restHypothesis later)
  | other name rest inductionHypothesis =>
      rw [yamlFiles, List.mem_append] at member
      rcases member with here | later
      · simp [yamlFilesOf] at here
      · exact exists_reordered_cons _ (inductionHypothesis later)

/-- What the files of a tree declare, in the order they are yielded. -/
def declaredInTree
    (loader : Loader)
    (basePath : String)
    (entries : List DirEntry) : List Protocol.Declarations :=
  declaredBy loader (yamlFiles basePath entries)

/-- No two files declare the same service. -/
def DistinctServices
    (loader : Loader)
    (basePath : String)
    (entries : List DirEntry) : Prop :=
  (((declaredInTree loader basePath entries).flatMap
    Protocol.Declarations.services).map ProtocolService.name).Nodup

/--
Files that declare variables of one qualified name declare the same one first,
and so with interfaces.
-/
def AgreeingFiles
    (loader : Loader)
    (basePath : String)
    (entries : List DirEntry) : Prop :=
  Database.Agreeing Var.name
      ((declaredInTree loader basePath entries).map
        Protocol.Declarations.vars) ∧
    Database.Agreeing ProtocolInterface.name
      ((declaredInTree loader basePath entries).map
        Protocol.Declarations.interfaces)

/-- The databases behind files that agree do not show their order. -/
theorem session_behind_perm
    {loader : Loader}
    {files reordered : List (String × Option (List UInt8))}
    (permutation : files.Perm reordered)
    (agreeingVars :
      Database.Agreeing Var.name
        ((declaredBy loader files).map Protocol.Declarations.vars))
    (agreeingInterfaces :
      Database.Agreeing ProtocolInterface.name
        ((declaredBy loader files).map Protocol.Declarations.interfaces))
    (agreeingServices :
      Database.Agreeing ProtocolService.name
        ((declaredBy loader files).map Protocol.Declarations.services))
    (parser : ProtocolParser) :
    (parser.behind loader reordered).session =
      (parser.behind loader files).session := by
  have declared :
      (declaredBy loader files).Perm (declaredBy loader reordered) :=
    permutation.filterMap _
  simp only [behind, Protocol.Declarations.addTo,
    Protocol.Declarations.merge, List.flatMap_def]
  rw [Database.addAll_flatten_perm agreeingVars (declared.map _),
    Database.addAll_flatten_perm agreeingInterfaces (declared.map _),
    Database.addAll_flatten_perm agreeingServices (declared.map _)]

/-- Every order has to load the same databases for the files to agree. -/
theorem agreeingFiles_of_every_order
    {loader : Loader}
    {basePath : String}
    {entries : List DirEntry}
    {session : Session}
    (everyOrder :
      ∀ reordered,
        Reordered entries reordered →
          ∃ other,
            parse loader basePath (some reordered) fresh =
                .ok (.success, other) ∧
              other.session = session) :
    AgreeingFiles loader basePath entries := by
  have fronts
      (document)
      (member : document ∈ declaredInTree loader basePath entries) :
      ∃ rest : List Protocol.Declarations,
        (Protocol.Declarations.merge (document :: rest)).addTo .empty =
          session := by
    obtain ⟨file, fileMember, declares⟩ := List.mem_filterMap.mp member
    obtain ⟨reordered, rest, same, isFirst⟩ :=
      exists_reordered_to_front fileMember
    obtain ⟨other, otherLoads, sameSession⟩ := everyOrder reordered same
    refine ⟨declaredBy loader rest, ?_⟩
    rw [← sameSession, (parse_eq_success_iff.mp otherLoads).1.walked_eq,
      isFirst]
    simp [behind, declaredBy, declares, fresh]
  refine ⟨Database.agreeing_of_fronts session.varDb ?_,
    Database.agreeing_of_fronts session.interfaceDb ?_⟩
  · intro vars member
    obtain ⟨document, documentMember, rfl⟩ := List.mem_map.mp member
    obtain ⟨rest, added⟩ := fronts document documentMember
    exact ⟨rest.flatMap Protocol.Declarations.vars,
      congrArg Session.varDb added⟩
  · intro interfaces member
    obtain ⟨document, documentMember, rfl⟩ := List.mem_map.mp member
    obtain ⟨rest, added⟩ := fronts document documentMember
    exact ⟨rest.flatMap Protocol.Declarations.interfaces,
      congrArg Session.interfaceDb added⟩

/--
A tree of distinct services that loads in one order loads with the same
databases in every order, exactly if its files agree on what they declare.
-/
theorem loads_in_every_order_iff
    {loader : Loader}
    {basePath : String}
    {entries : List DirEntry}
    {parser : ProtocolParser}
    (distinct : DistinctServices loader basePath entries)
    (loads :
      parse loader basePath (some entries) fresh =
        .ok (.success, parser)) :
    (∀ reordered,
        Reordered entries reordered →
          ∃ other,
            parse loader basePath (some reordered) fresh =
                .ok (.success, other) ∧
              other.session = parser.session) ↔
      AgreeingFiles loader basePath entries := by
  refine ⟨agreeingFiles_of_every_order, ?_⟩
  rintro ⟨agreeingVars, agreeingInterfaces⟩ reordered same
  obtain ⟨⟨fits, allLoad, rfl⟩, anyPath, anyService⟩ :=
    parse_eq_success_iff.mp loads
  have permutation := yamlFiles_perm same basePath
  have agreeingServices :
      Database.Agreeing ProtocolService.name
        ((declaredInTree loader basePath entries).map
          Protocol.Declarations.services) :=
    Database.agreeing_of_nodup (by rwa [← List.flatMap_def])
  have sameSession :=
    session_behind_perm permutation agreeingVars agreeingInterfaces
      agreeingServices fresh
  refine ⟨fresh.behind loader (yamlFiles basePath reordered),
    parse_eq_success_iff.mpr ⟨⟨?_, ?_, rfl⟩, ?_, ?_⟩, sameSession⟩
  · rw [← nesting_eq_of_reordered same]
    exact fits
  · intro file member
    exact allLoad file (permutation.mem_iff.mpr member)
  · intro noPath
    have noFile : yamlFiles basePath reordered = [] := by
      simpa [behind, fresh] using noPath
    rw [noFile] at permutation
    simp [behind, fresh, permutation.eq_nil] at anyPath
  · rw [sameSession]
    exact anyService

/-- The bytes of a text that needs no more than ASCII. -/
def asciiBytes
    (text : String) : List UInt8 :=
  text.toList.map fun letter => UInt8.ofNat letter.toNat

/-- A service with one variable, as text and as the library parses it. -/
def sampleText
    (service var size : String) : String :=
  "service: " ++ service ++ "\nvars:\n  - var: " ++ var ++
    "\n    size: " ++ size ++ "\n"

def sampleDocument
    (service var size : String) : Yaml :=
  .map [
    ("service", .scalar service),
    ("vars", .seq [
      .map [("var", .scalar var), ("size", .scalar size)]])]

/-- A loader that parses the sample files. -/
def sampleLoader : Loader where
  paging := { pageSize := 4096, positive := by decide }
  isNumber := fun text => text.toList.all Char.isDigit
  parseInArena := fun text =>
    if text = asciiBytes (sampleText "a" "b::c" "8") then
      some (sampleDocument "a" "b::c" "8")
    else if text = asciiBytes (sampleText "a::b" "c" "16") then
      some (sampleDocument "a::b" "c" "16")
    else if text = asciiBytes (sampleText "a" "d" "8") then
      some (sampleDocument "a" "d" "8")
    else
      none

/-- What a sample file declares. -/
def sampleDeclared
    (service var : String)
    (size : UInt32) : Protocol.Declarations where
  vars :=
    [{ name := service ++ "::" ++ var
       size := size
       expectedValues := []
       range := none
       mask := 0 }]
  interfaces := []
  services := [{ name := service, logicName := "" }]

/-- A directory of two sample files. -/
def sampleTree
    (first second : String) : List DirEntry :=
  [.file "first.yaml" (some (asciiBytes first)),
    .file "second.yaml" (some (asciiBytes second))]

/-- A directory of two files that declare something loads. -/
theorem sampleTree_loads
    {first second : String}
    {ofFirst ofSecond : Protocol.Declarations}
    (firstDeclares :
      Protocol.declaredByContent sampleLoader (some (asciiBytes first)) =
        some ofFirst)
    (secondDeclares :
      Protocol.declaredByContent sampleLoader (some (asciiBytes second)) =
        some ofSecond)
    {service : ProtocolService}
    (anyService :
      Database.firstNamed ProtocolService.name ofFirst.services
          service.name =
        some service) :
    declaredInTree sampleLoader "protocols" (sampleTree first second) =
        [ofFirst, ofSecond] ∧
      ∃ parser,
        parse sampleLoader "protocols" (some (sampleTree first second))
            fresh =
          .ok (.success, parser) := by
  have files :
      yamlFiles "protocols" (sampleTree first second) =
        [("protocols/first.yaml", some (asciiBytes first)),
          ("protocols/second.yaml", some (asciiBytes second))] :=
    rfl
  have declared :
      declaredBy sampleLoader
          (yamlFiles "protocols" (sampleTree first second)) =
        [ofFirst, ofSecond] := by
    simp [files, declaredBy, firstDeclares, secondDeclares]
  refine ⟨declared, _, parse_eq_success_iff.mpr
    ⟨⟨?_, ?_, rfl⟩, ?_, ?_⟩⟩
  · simp [sampleTree, nesting, nestingOf, fresh, maxCurrentDepthPath]
  · simp [AllLoad, files, firstDeclares, secondDeclares]
  · simp [behind, files]
  · have stored :
        (fresh.behind sampleLoader
            (yamlFiles "protocols" (sampleTree first second))
          ).session.serviceDb.getElement service.name =
          some service := by
      simp only [behind, declared, Protocol.Declarations.merge,
        Protocol.Declarations.addTo, Database.getElement_addAll,
        List.flatMap_cons, Database.firstNamed_append, anyService]
      rfl
    exact List.ne_nil_of_mem (Database.mem_of_getElement_eq_some stored)

theorem separatedService_declares :
    Protocol.declaredByContent sampleLoader
        (some (asciiBytes (sampleText "a::b" "c" "16"))) =
      some (sampleDeclared "a::b" "c" 16) := by
  rw [Protocol.declaredByContent_of_whole (by decide) (by decide) rfl]
  rfl

theorem plainService_declares :
    Protocol.declaredByContent sampleLoader
        (some (asciiBytes (sampleText "a" "d" "8"))) =
      some (sampleDeclared "a" "d" 8) := by
  rw [Protocol.declaredByContent_of_whole (by decide) (by decide) rfl]
  rfl

/-- A separator in the name of a service alone does not show the order. -/
theorem separated_service_loads_in_every_order :
    ∃ parser : ProtocolParser,
      ∀ reordered,
        Reordered
            (sampleTree (sampleText "a" "d" "8")
              (sampleText "a::b" "c" "16"))
            reordered →
          ∃ other,
            parse sampleLoader "protocols" (some reordered) fresh =
                .ok (.success, other) ∧
              other.session = parser.session := by
  obtain ⟨declared, parser, loads⟩ :=
    @sampleTree_loads _ _ _ _ plainService_declares
      separatedService_declares { name := "a", logicName := "" } (by decide)
  have distinct :
      DistinctServices sampleLoader "protocols"
        (sampleTree (sampleText "a" "d" "8")
          (sampleText "a::b" "c" "16")) := by
    rw [DistinctServices, declared]
    decide
  refine ⟨parser, (loads_in_every_order_iff distinct loads).mpr ?_⟩
  rw [AgreeingFiles, declared]
  exact ⟨Database.agreeing_of_nodup (by decide),
    Database.agreeing_of_nodup (by decide)⟩

/--
Variable `b::c` of service `a` and variable `c` of service `a::b` have one
qualified name, and the one that is yielded first stays.
-/
theorem separator_in_service_shows_order :
    ¬ ∀ (loader : Loader) (basePath : String)
        (entries reordered : List DirEntry) (parser : ProtocolParser),
      DistinctServices loader basePath entries →
        Reordered entries reordered →
          parse loader basePath (some entries) fresh =
              .ok (.success, parser) →
            ∃ other,
              parse loader basePath (some reordered) fresh =
                  .ok (.success, other) ∧
                other.session = parser.session := by
  intro allLoad
  have firstDeclares :
      Protocol.declaredByContent sampleLoader
          (some (asciiBytes (sampleText "a" "b::c" "8"))) =
        some (sampleDeclared "a" "b::c" 8) := by
    rw [Protocol.declaredByContent_of_whole (by decide) (by decide) rfl]
    rfl
  obtain ⟨declared, parser, loads⟩ :=
    @sampleTree_loads _ _ _ _ firstDeclares separatedService_declares
      { name := "a", logicName := "" } (by decide)
  have distinct :
      DistinctServices sampleLoader "protocols"
        (sampleTree (sampleText "a" "b::c" "8")
          (sampleText "a::b" "c" "16")) := by
    rw [DistinctServices, declared]
    decide
  have agreeing := agreeingFiles_of_every_order fun reordered same =>
    allLoad _ _ _ reordered parser distinct same loads
  rw [AgreeingFiles, declared] at agreeing
  have sameVar :=
    agreeing.1 _ List.mem_cons_self _
      (List.mem_cons_of_mem _ List.mem_cons_self) "a::b::c" _ _ rfl rfl
  cases sameVar

end ProtocolParser

end TsnGen
