import TsnGen.CommandLine

namespace TsnGen.CommandLine

open TextReplace

/-!
# Lists of interfaces

Lists of interfaces are separated by single colons, and the parts of a name by
double ones.  Splitting a list hides the double colons behind a placeholder and
restores them in each segment.  It is the inverse of joining as long as no part
of a name is empty or has a colon or the placeholder in it.
-/

/-- A part of a qualified name. -/
structure Component where
  letters : List Char
  present : letters ≠ []
  noColon : ':' ∉ letters
  noPlaceholder : '\x01' ∉ letters

/-- A name of at least one part. -/
structure QualifiedName where
  components : List Component
  present : components ≠ []

namespace QualifiedName

/-- The parts with something between them. -/
def joinedBy
    (separator : List Char)
    (name : QualifiedName) : List Char :=
  joined separator (name.components.map Component.letters)

/-- The name as it is written. -/
def text
    (name : QualifiedName) : String :=
  String.ofList (name.joinedBy doubleColon)

/-- A name starts with a letter that is no colon. -/
theorem head?_joinedBy
    (separator : List Char)
    (name : QualifiedName) :
    ∃ letter, (name.joinedBy separator).head? = some letter ∧
      letter ≠ ':' := by
  obtain ⟨first, rest, shape⟩ := List.exists_cons_of_ne_nil name.present
  obtain ⟨letter, others, letters⟩ :=
    List.exists_cons_of_ne_nil first.present
  have differs : letter ≠ ':' := by
    rintro rfl
    apply first.noColon
    rw [letters]
    exact List.mem_cons_self
  refine ⟨letter, ?_, differs⟩
  rw [joinedBy, shape]
  cases rest with
  | nil =>
      simp [joined, letters]
  | cons next later =>
      simp [joined, letters]

/-- In a name every double colon gives way to the placeholder. -/
theorem substitute_joinedBy
    (name : QualifiedName)
    (rest : List Char) :
    substitute doubleColon kSep (name.joinedBy doubleColon ++ rest) =
      name.joinedBy kSep ++ substitute doubleColon kSep rest := by
  refine substitute_joined ?_ kSep rest
  intro piece member
  obtain ⟨component, -, rfl⟩ := List.mem_map.mp member
  exact component.noColon

/-- With the placeholders restored a name is what it was. -/
theorem restore_joinedBy
    (name : QualifiedName) :
    replaceAll kSep doubleColon (name.joinedBy kSep) =
      name.joinedBy doubleColon := by
  have restored :=
    @substitute_joined _ _ _ '\x01' []
      (name.components.map Component.letters) (by
        intro piece member
        obtain ⟨component, -, rfl⟩ := List.mem_map.mp member
        exact component.noPlaceholder) doubleColon []
  rw [replaceAll_eq (by decide)]
  rw [List.append_nil, substitute, List.append_nil] at restored
  exact restored

/-- With placeholders there is no colon in a name. -/
theorem colon_not_mem_joinedBy
    (name : QualifiedName) :
    ':' ∉ name.joinedBy kSep := by
  intro member
  rcases mem_or_mem_of_mem_joined member with between | ⟨_, among, inside⟩
  · revert between
    decide
  · obtain ⟨component, -, rfl⟩ := List.mem_map.mp among
    exact component.noColon inside

end QualifiedName

/-- Names as one list for an option. -/
def listText
    (names : List QualifiedName) : String :=
  String.ofList
    (joined [':'] (names.map (QualifiedName.joinedBy doubleColon)))

/-- In a list only the double colons give way, and the single ones stay. -/
theorem substitute_joined_names
    (names : List QualifiedName) :
    substitute doubleColon kSep
        (joined [':'] (names.map (QualifiedName.joinedBy doubleColon))) =
      joined [':'] (names.map (QualifiedName.joinedBy kSep)) := by
  match names with
  | [] =>
      simp [joined, substitute]
  | [name] =>
      have whole := name.substitute_joinedBy []
      rw [List.append_nil, substitute, List.append_nil] at whole
      exact whole
  | name :: next :: later =>
      have others := substitute_joined_names (next :: later)
      rw [List.map_cons] at others
      have single :
          (joined [':'] (next.joinedBy doubleColon ::
            later.map (QualifiedName.joinedBy doubleColon))).head? ≠
              some ':' := by
        obtain ⟨letter, starts, differs⟩ :=
          next.head?_joinedBy doubleColon
        cases later with
        | nil =>
            simp [joined, starts, differs]
        | cons third rest =>
            simp [joined, starts, differs]
      simp only [List.map_cons, joined, List.append_assoc] at others ⊢
      rw [name.substitute_joinedBy, List.singleton_append,
        substitute_colon_cons single, others]
      rfl

/-- A segment without a colon is collected letter by letter. -/
theorem foldl_splitStep_of_not_mem
    {piece : List Char}
    (noColon : ':' ∉ piece)
    (seg : List Char)
    (target : List String) :
    piece.foldl splitStep (seg, target) = (seg ++ piece, target) := by
  induction piece generalizing seg with
  | nil =>
      simp
  | cons letter rest inductionHypothesis =>
      rw [List.mem_cons, not_or] at noColon
      rw [List.foldl_cons, splitStep, if_neg (Ne.symm noColon.1),
        inductionHypothesis noColon.2]
      simp

/-- The colon behind a name appends it to those before. -/
theorem foldl_splitStep_name
    (name : QualifiedName)
    (target : List String) :
    (name.joinedBy kSep ++ [':']).foldl splitStep ([], target) =
      ([], target ++ [name.text]) := by
  obtain ⟨letter, starts, -⟩ := name.head?_joinedBy doubleColon
  have present : (name.joinedBy doubleColon).isEmpty = false := by
    cases shape : name.joinedBy doubleColon with
    | nil =>
        rw [shape] at starts
        cases starts
    | cons =>
        rfl
  rw [List.foldl_append,
    foldl_splitStep_of_not_mem name.colon_not_mem_joinedBy]
  simp only [List.nil_append, List.foldl_cons, List.foldl_nil, splitStep,
    ↓reduceIte, name.restore_joinedBy, present]
  rfl

/-- Names are appended in order. -/
theorem foldl_splitStep_names
    (names : List QualifiedName)
    (target : List String) :
    (names.flatMap fun name => name.joinedBy kSep ++ [':']).foldl splitStep
        ([], target) =
      ([], target ++ names.map QualifiedName.text) := by
  induction names generalizing target with
  | nil =>
      simp
  | cons name later inductionHypothesis =>
      rw [List.flatMap_cons, List.foldl_append, foldl_splitStep_name,
        inductionHypothesis, List.map_cons, List.append_assoc,
        List.singleton_append]

/-- A list that is split gives back the names it was joined from. -/
theorem appendSpec_listText
    (names : List QualifiedName)
    (target : List String) :
    appendSpec (listText names) target =
      target ++ names.map QualifiedName.text := by
  by_cases empty : names = []
  · rw [empty]
    rw [List.map_nil, List.append_nil]
    exact appendSpec_empty target
  · have present : names.map (QualifiedName.joinedBy kSep) ≠ [] := by
      simpa using empty
    rw [appendSpec, listText, String.toList_ofList,
      replaceAll_eq (by decide), substitute_joined_names,
      joined_append_separator [':'] present, List.flatMap_map,
      foldl_splitStep_names]

/-- Lists given one after the other give back all of their names. -/
theorem flatMap_appendSpec_listText
    (lists : List (List QualifiedName)) :
    ((lists.map listText).flatMap fun spec => appendSpec spec []) =
      lists.flatten.map QualifiedName.text := by
  induction lists with
  | nil =>
      rfl
  | cons names later inductionHypothesis =>
      rw [List.map_cons, List.flatMap_cons, inductionHypothesis,
        appendSpec_listText, List.flatten_cons, List.map_append,
        List.nil_append]

/-- All options are known, none ends the program and no number throws. -/
structure ReadThrough
    (used : List Use) : Prop where
  noVersion : .version ∉ used
  noHelp : .help ∉ used
  known : .unknown ∉ used
  silent : ∀ use ∈ used, use.throws = false

/-- The interface of its own, where there is a list that it goes in front of. -/
def ownInterface
    (read : Args)
    (target : List String) : List String :=
  if read.iface ≠ "" ∧ target ≠ [] then [read.iface] else []

/-- At most one of the lists is there if one option for layers is. -/
theorem chain_or_stack_eq_nil
    {read : Args}
    (single : ¬ pipelineFlags read > 1) :
    read.chain = [] ∨ read.stack = [] := by
  by_contra both
  rw [not_or] at both
  apply single
  simp only [pipelineFlags, List.isEmpty_iff, both.1, both.2, ↓reduceIte]
  omega

/-- Arguments that are accepted keep the lists, behind the own interface. -/
theorem lists_of_finish
    {read final : Args}
    (accepts : finish read = (true, final)) :
    final.chain = ownInterface read read.chain ++ read.chain ∧
      final.stack = ownInterface read read.stack ++ read.stack := by
  unfold finish at accepts
  split at accepts
  · cases accepts
  · split at accepts
    · cases accepts
    · split at accepts
      · cases accepts
      next single =>
        split at accepts
        · cases accepts
        · have isFinal := (Prod.mk.inj accepts).2
          rw [← isFinal]
          by_cases unnamed : read.iface = ""
          · simp [prependToStack, prependToChain, ownInterface, unnamed]
          · rcases chain_or_stack_eq_nil single with noChain | noStack
            · by_cases noStack : read.stack = []
              · simp [prependToStack, prependToChain, ownInterface, noChain,
                  noStack]
              · simp [prependToStack, prependToChain, ownInterface, noChain,
                  noStack, unnamed]
            · by_cases noChain : read.chain = []
              · simp [prependToStack, prependToChain, ownInterface, noChain,
                  noStack]
              · simp [prependToStack, prependToChain, ownInterface, noChain,
                  noStack, unnamed]

/--
However names are distributed over lists for a chain and for a stack, and
whatever other options stand between them, the loop appends exactly these names
in order; accepted arguments keep them, behind an interface of its own.
-/
theorem lists_split_back
    (arguments : List String)
    (out : Args)
    (connects layers : List (List QualifiedName))
    (connected :
      valuesOf .connect (uses arguments) = connects.map listText)
    (stacked : valuesOf .stack (uses arguments) = layers.map listText)
    (through : ReadThrough (uses arguments)) :
    ∃ read,
      parseOptions arguments out = .ok (true, read) ∧
      read.chain =
        out.chain ++ connects.flatten.map QualifiedName.text ∧
      read.stack =
        out.stack ++ layers.flatten.map QualifiedName.text ∧
      parseArgs arguments out = .ok (finish read) ∧
      ∀ final, finish read = (true, final) →
        final.chain = ownInterface read read.chain ++ read.chain ∧
          final.stack = ownInterface read read.stack ++ read.stack := by
  have silent :
      ¬ ∃ use ∈ (uses arguments).takeWhile (· ≠ .unknown),
        use.throws = true := by
    rintro ⟨use, member, throws⟩
    have among := (List.takeWhile_prefix _).subset member
    rw [through.silent use among] at throws
    cases throws
  rcases readUses_cases through.noVersion through.noHelp out with
    ⟨throws, -⟩ | ⟨-, ⟨met, -⟩ | ⟨-, read, goesOn, ofUses⟩⟩
  · exact absurd throws silent
  · exact absurd met through.known
  · rw [← parseOptions_eq_readUses] at goesOn
    refine ⟨read, goesOn, ?_, ?_, ?_, fun final => lists_of_finish⟩
    · rw [ofUses.chain, connected, flatMap_appendSpec_listText]
    · rw [ofUses.stack, stacked, flatMap_appendSpec_listText]
    · simp [parseArgs, goesOn, bind, Except.bind, pure, Except.pure]

/-- A part of a name from its letters. -/
def componentOf
    (letters : List Char)
    (valid : letters ≠ [] ∧ ':' ∉ letters ∧ '\x01' ∉ letters) :
    Component where
  letters := letters
  present := valid.1
  noColon := valid.2.1
  noPlaceholder := valid.2.2

/-- Two names, of two parts and of one. -/
def sampleNames : List QualifiedName := [
  { components := [
      componentOf ['a'] (by decide),
      componentOf ['b', 'c'] (by decide)]
    present := by decide },
  { components := [componentOf ['d'] (by decide)]
    present := by decide }]

theorem lists_split_back_two_options :
    ∃ read,
      parseOptions
          ["--connect", "a::bc:d", "--decode", "--connect", "d"] {} =
        .ok (true, read) ∧
      read.chain = ["a::bc", "d", "d"] := by
  obtain ⟨read, goesOn, chain, -⟩ :=
    lists_split_back
      ["--connect", "a::bc:d", "--decode", "--connect", "d"] {}
      [sampleNames, sampleNames.drop 1] [] (by decide) (by decide)
      { noVersion := by decide
        noHelp := by decide
        known := by decide
        silent := by decide }
  exact ⟨read, goesOn, chain⟩

end TsnGen.CommandLine
