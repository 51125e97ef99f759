import TsnGen.CommandLine
import TsnGen.Literal

namespace TsnGen.CommandLine

open TextReplace

/-!
# Bad command lines

A missing value is read as an empty one, which an option for a number ignores
and which other options keep.  A number is what a conversion finds at the start
of a text, and the conversion throws where it finds none.  So a bad command line
is refused only if something else about it is wrong, and it may end the program
before that is seen.
-/

/-- An unsigned decimal integer that fits 64 bits. -/
def isDecimal
    (value : String) : Bool :=
  (Numeral.digits? 10 value.toList).isSome

/-- A use without its value, or with a value that is no number in its place. -/
def Use.malformed : Use → Bool
  | .missing _ => true
  | .given .count value => !isDecimal value
  | .given .seed value => !isDecimal value
  | _ => false

/-- Whether an option for a list names a layer. -/
def namesLayer
    (option : ValueOption)
    (used : List Use) : Bool :=
  (valuesOf option used).any fun spec => spec ≠ "" && spec ≠ ":"

/-- How many options for layers name one. -/
def layerSources
    (used : List Use) : Nat :=
  (if namesLayer .connect used then 1 else 0) +
    (if namesLayer .stack used then 1 else 0) +
      (if lastText .stackFile "" used = "" then 0 else 1)

/-- The uses are refused for a reason that their last values tell. -/
def Refused
    (used : List Use) : Prop :=
  .unknown ∈ used ∨
    lastText .logLevel "warn" used ∉ logLevels ∨
    lastText .yamlDir "" used = "" ∨
    1 < layerSources used ∨
    (.flag .listInterfaces ∉ used ∧ .flag .validate ∉ used ∧
      lastText .interface "" used = "" ∧ layerSources used = 0) ∨
    lastText .output "json" used ∉ ["hex", "json"]

instance
    (used : List Use) :
    Decidable (Refused used) :=
  inferInstanceAs (Decidable (_ ∨ _))

/-- Before an unknown option a number is given that the conversion throws at. -/
def Throws
    (used : List Use) : Prop :=
  ∃ use ∈ used.takeWhile (· ≠ .unknown), use.throws = true

instance
    (used : List Use) :
    Decidable (Throws used) :=
  inferInstanceAs (Decidable (∃ use ∈ _, _))

/-- No conversion throws at a number. -/
theorem malformed_of_throws
    {use : Use}
    (throws : use.throws = true) :
    use.malformed = true := by
  have converts :
      ∀ value, isDecimal value = true → (stoull value).isOk = true := by
    intro value decimal
    obtain ⟨number, read⟩ := Option.isSome_iff_exists.mp decimal
    obtain ⟨scanned, bounded⟩ := Numeral.scan_of_digits? read
    simp only [stoull, scanned, bounded, ↓reduceIte]
    rfl
  have fails :
      ∀ value, (value ≠ "" && !(stoull value).isOk) = true →
        isDecimal value = false := by
    intro value thrown
    by_contra decimal
    rw [converts value (by simpa using decimal)] at thrown
    simp at thrown
  cases use with
  | given option value =>
      cases option
      case count => simpa [Use.malformed] using fails value throws
      case seed => simpa [Use.malformed] using fails value throws
      all_goals cases throws
  | missing option => rfl
  | flag option => cases throws
  | version => cases throws
  | help => cases throws
  | unknown => cases throws

/-- A text with a letter is still one with its placeholders restored. -/
theorem replaceAll_ne_nil
    {seg : List Char}
    (present : seg ≠ []) :
    replaceAll kSep doubleColon seg ≠ [] := by
  obtain ⟨letter, rest, rfl⟩ := List.exists_cons_of_ne_nil present
  rw [replaceAll_eq (by decide), substitute]
  split
  · exact List.cons_ne_nil _ _
  · exact List.cons_ne_nil _ _

/-- A text with a letter other than a colon has a segment. -/
theorem segments_ne_nil
    {text : List Char}
    {seg : List Char}
    {target : List String}
    (present : seg ≠ [] ∨ target ≠ [] ∨ ∃ letter ∈ text, letter ≠ ':') :
    ((text ++ [':']).foldl splitStep (seg, target)).2 ≠ [] := by
  induction text generalizing seg target with
  | nil =>
      have shown : seg ≠ [] ∨ target ≠ [] := by
        simpa using present
      simp only [List.nil_append, List.foldl_cons, List.foldl_nil, splitStep,
        ↓reduceIte]
      split
      next empty =>
        rcases shown with some | some
        · exact absurd (List.isEmpty_iff.mp empty) (replaceAll_ne_nil some)
        · exact some
      next =>
        simp
  | cons letter rest inductionHypothesis =>
      rw [List.cons_append, List.foldl_cons, splitStep]
      by_cases colon : letter = ':'
      · rw [if_pos colon]
        refine inductionHypothesis ?_
        rcases present with some | some | ⟨other, member, differs⟩
        · right
          left
          rw [if_neg]
          · simp
          · rw [List.isEmpty_iff]
            exact replaceAll_ne_nil some
        · right
          left
          split
          · exact some
          · simp
        · rcases List.mem_cons.mp member with rfl | later
          · exact absurd colon differs
          · exact Or.inr (Or.inr ⟨other, later, differs⟩)
      · rw [if_neg colon]
        exact inductionHypothesis (Or.inl (by simp))

/-- Two letters or more leave one that is no colon. -/
theorem exists_ne_of_substitute
    (first second : Char)
    (rest : List Char) :
    ∃ letter ∈ substitute doubleColon kSep (first :: second :: rest),
      letter ≠ ':' := by
  by_cases firstColon : first = ':'
  · by_cases secondColon : second = ':'
    · rw [firstColon, secondColon]
      have replaced :=
        @substitute_append_pattern _ _ _ doubleColon (by decide) kSep rest
      refine ⟨'\x01', ?_, by decide⟩
      change _ ∈ substitute doubleColon kSep (doubleColon ++ rest)
      rw [replaced]
      exact List.mem_cons_self
    · rw [firstColon, substitute_colon_cons (by simpa using secondColon),
        substitute_cons_of_ne secondColon]
      exact ⟨second, by simp, secondColon⟩
  · rw [substitute_cons_of_ne firstColon]
    exact ⟨first, List.mem_cons_self, firstColon⟩

/-- A list names nothing if it is empty or a single colon. -/
theorem appendSpec_eq_nil_iff
    (spec : String) :
    appendSpec spec [] = [] ↔ spec = "" ∨ spec = ":" := by
  have named {letter : Char}
      (member : letter ∈ substitute doubleColon kSep spec.toList)
      (differs : letter ≠ ':') :
      appendSpec spec [] ≠ [] := by
    rw [appendSpec, replaceAll_eq (by decide)]
    exact segments_ne_nil (Or.inr (Or.inr ⟨letter, member, differs⟩))
  constructor
  · intro nothing
    rcases shape : spec.toList with _ | ⟨first, _ | ⟨second, rest⟩⟩
    · exact Or.inl (String.toList_inj.mp shape)
    · by_cases colon : first = ':'
      · right
        apply String.toList_inj.mp
        rw [shape, colon]
        rfl
      · refine absurd nothing (@named first ?_ colon)
        rw [shape, substitute_cons_of_ne colon]
        exact List.mem_cons_self
    · obtain ⟨letter, member, differs⟩ :=
        exists_ne_of_substitute first second rest
      rw [← shape] at member
      exact absurd nothing (named member differs)
  · rintro (rfl | rfl)
    · exact appendSpec_empty []
    · decide

/-- A chain or stack is empty exactly if no list names a layer. -/
theorem flatMap_appendSpec_eq_nil_iff
    (option : ValueOption)
    (used : List Use) :
    ((valuesOf option used).flatMap fun spec => appendSpec spec []) = [] ↔
      namesLayer option used = false := by
  rw [namesLayer, List.any_eq_false, List.flatMap_eq_nil_iff]
  refine forall₂_congr fun spec member => ?_
  rw [appendSpec_eq_nil_iff]
  simp only [Bool.and_eq_true, decide_eq_true_eq, ne_eq, not_and_or, not_not]

/-- The checks behind the loop pass exactly if none of them fails. -/
theorem finish_fst_iff
    (out : Args) :
    (finish out).1 = true ↔
      out.logLevel ∈ logLevels ∧ out.yamlDir ≠ "" ∧
        pipelineFlags out ≤ 1 ∧
        ¬ (out.listInterfaces = false ∧ out.validate = false ∧
          out.iface = "" ∧ out.chain = [] ∧ out.stack = [] ∧
            out.stackFile = "") ∧
        (out.output = "hex" ∨ out.output = "json") := by
  have kept :
      (prependToStack (prependToChain
        { out with decode := out.decode || out.hexInput ≠ "" })).output =
          out.output := by
    unfold prependToStack prependToChain
    split
    · split
      · rfl
      · rfl
    · split
      · rfl
      · rfl
  unfold finish
  split
  next unknown => simp [unknown]
  next known =>
    split
    next missing => simp [missing]
    next present =>
      split
      next many => simp [not_le.mpr many]
      next few =>
        split
        next nothing =>
          simp only [Bool.not_eq_true'] at nothing
          simp [nothing]
        next some =>
          simp only [Bool.not_eq_true'] at some
          have known' : out.logLevel ∈ logLevels := by simpa using known
          simp only [kept, decide_eq_true_eq, known', present, some,
            ne_eq, not_false_eq_true, true_and, not_lt.mp few]

/-- No option for layers was given if none of their fields is filled. -/
theorem pipelineFlags_eq_zero_iff
    (out : Args) :
    out.chain = [] ∧ out.stack = [] ∧ out.stackFile = "" ↔
      pipelineFlags out = 0 := by
  have single :
      ∀ (nothing : Prop) [Decidable nothing],
        (if nothing then 0 else 1) = 0 ↔ nothing := by
    intro nothing decision
    by_cases holds : nothing
    · simp [holds]
    · simp [holds]
  rw [pipelineFlags, Nat.add_eq_zero_iff, Nat.add_eq_zero_iff, single,
    single, single, List.isEmpty_iff, List.isEmpty_iff, and_assoc]

/-- What was read is refused exactly if the uses are. -/
theorem finish_fst_eq_false_iff
    {used : List Use}
    {read : Args}
    (known : .unknown ∉ used)
    (ofUses : ReadFrom used {} read) :
    (finish read).1 = false ↔ Refused used := by
  have logLevel : read.logLevel = lastText .logLevel "warn" used :=
    ofUses.text .logLevel (by decide)
  have yamlDir : read.yamlDir = lastText .yamlDir "" used :=
    ofUses.text .yamlDir (by decide)
  have iface : read.iface = lastText .interface "" used :=
    ofUses.text .interface (by decide)
  have output : read.output = lastText .output "json" used :=
    ofUses.text .output (by decide)
  have stackFile : read.stackFile = lastText .stackFile "" used :=
    ofUses.text .stackFile (by decide)
  have chain : read.chain = [] ↔ namesLayer .connect used = false := by
    rw [ofUses.chain, List.nil_append, flatMap_appendSpec_eq_nil_iff]
  have stack : read.stack = [] ↔ namesLayer .stack used = false := by
    rw [ofUses.stack, List.nil_append, flatMap_appendSpec_eq_nil_iff]
  have sources : pipelineFlags read = layerSources used := by
    rw [pipelineFlags, layerSources, stackFile]
    simp only [List.isEmpty_iff, chain, stack]
    cases namesLayer .connect used <;> cases namesLayer .stack used <;> rfl
  have noSource :
      read.chain = [] ∧ read.stack = [] ∧ read.stackFile = "" ↔
        layerSources used = 0 := by
    rw [← sources]
    exact pipelineFlags_eq_zero_iff read
  have listing :
      read.listInterfaces = false ↔ .flag .listInterfaces ∉ used := by
    rw [← Bool.not_eq_true, ofUses.listInterfaces]
    simp
  have validating : read.validate = false ↔ .flag .validate ∉ used := by
    rw [← Bool.not_eq_true, ofUses.validate]
    simp
  rw [← Bool.not_eq_true, finish_fst_iff, noSource, sources, listing,
    validating, logLevel, yamlDir, iface, output, Refused]
  simp only [known, false_or, List.mem_cons, List.not_mem_nil, or_false]
  simp only [not_and_or, not_or, not_not, not_le, ne_eq]

/-- An option that ends the program is among the arguments. -/
theorem mem_of_mem_uses
    {arguments : List String} :
    (.version ∈ uses arguments → "--version" ∈ arguments) ∧
      (.help ∈ uses arguments → "--help" ∈ arguments) := by
  have ofVersion {a : String} (isVersion : wordOf a = .version) :
      a = "--version" := by
    have listed := mem_words_of_wordOf isVersion (by decide)
    simpa [words] using listed
  have ofHelp {a : String} (isHelp : wordOf a = .help) : a = "--help" := by
    have listed := mem_words_of_wordOf isHelp (by decide)
    simpa [words] using listed
  induction arguments using uses.induct with
  | case1 =>
      simp [uses]
  | case2 a option isOption =>
      simp [uses, isOption]
  | case3 a option isOption value later inductionHypothesis =>
      simp only [uses, isOption, List.mem_cons, reduceCtorEq, false_or]
      exact ⟨fun member => Or.inr (Or.inr (inductionHypothesis.1 member)),
        fun member => Or.inr (Or.inr (inductionHypothesis.2 member))⟩
  | case4 a rest option isOption inductionHypothesis =>
      simp only [uses, isOption, List.mem_cons, reduceCtorEq, false_or]
      exact ⟨fun member => Or.inr (inductionHypothesis.1 member),
        fun member => Or.inr (inductionHypothesis.2 member)⟩
  | case5 a rest isOption inductionHypothesis =>
      simp only [uses, isOption, List.mem_cons, reduceCtorEq, false_or]
      exact ⟨fun _ => Or.inl (ofVersion isOption).symm,
        fun member => Or.inr (inductionHypothesis.2 member)⟩
  | case6 a rest isOption inductionHypothesis =>
      simp only [uses, isOption, List.mem_cons, reduceCtorEq, false_or]
      exact ⟨fun member => Or.inr (inductionHypothesis.1 member),
        fun _ => Or.inl (ofHelp isOption).symm⟩
  | case7 a rest isOption inductionHypothesis =>
      simp only [uses, isOption, List.mem_cons, reduceCtorEq, false_or]
      exact ⟨fun member => Or.inr (inductionHypothesis.1 member),
        fun member => Or.inr (inductionHypothesis.2 member)⟩

/--
The command line is read and, if a value is missing or no number in its place,
refused, exactly if there is no such use, or if no conversion throws and it is
refused for another reason.
-/
theorem malformed_refused_iff
    (arguments : List String)
    (noVersion : "--version" ∉ arguments)
    (noHelp : "--help" ∉ arguments) :
    ((∃ accepted read, parseArgs arguments {} = .ok (accepted, read)) ∧
        ((∃ use ∈ uses arguments, use.malformed = true) →
          ∃ read, parseArgs arguments {} = .ok (false, read))) ↔
      (¬ ∃ use ∈ uses arguments, use.malformed = true) ∨
        ¬ Throws (uses arguments) ∧ Refused (uses arguments) := by
  have cases :=
    readUses_cases (mt mem_of_mem_uses.1 noVersion)
      (mt mem_of_mem_uses.2 noHelp) {}
  rw [← parseOptions_eq_readUses] at cases
  rcases cases with
    ⟨throws, ending, ends⟩ |
      ⟨silent, ⟨met, read, stops⟩ | ⟨unmet, read, goesOn, ofUses⟩⟩
  · have failed : parseArgs arguments {} = .error ending := by
      simp [parseArgs, ends, bind, Except.bind]
    refine iff_of_false ?_ ?_
    · rintro ⟨⟨accepted, read, returned⟩, -⟩
      rw [failed] at returned
      cases returned
    · rintro (wellFormed | ⟨silent, -⟩)
      · obtain ⟨use, member, thrown⟩ := throws
        have among : use ∈ uses arguments :=
          (List.takeWhile_prefix _).subset member
        exact wellFormed ⟨use, among, malformed_of_throws thrown⟩
      · exact silent throws
  · have refused : parseArgs arguments {} = .ok (false, read) := by
      simp [parseArgs, stops, bind, Except.bind, pure, Except.pure]
    refine iff_of_true ⟨⟨false, read, refused⟩, fun _ => ⟨read, refused⟩⟩ ?_
    by_cases malformed : ∃ use ∈ uses arguments, use.malformed = true
    · exact Or.inr ⟨silent, Or.inl met⟩
    · exact Or.inl malformed
  · have returned : parseArgs arguments {} = .ok (finish read) := by
      simp [parseArgs, goesOn, bind, Except.bind, pure, Except.pure]
    have refuses :
        (∃ final, parseArgs arguments {} = .ok (false, final)) ↔
          Refused (uses arguments) := by
      rw [← finish_fst_eq_false_iff unmet ofUses, returned]
      constructor
      · rintro ⟨final, isFinal⟩
        rw [Except.ok.inj isFinal]
      · intro isFalse
        exact ⟨(finish read).2, by rw [← isFalse]⟩
    rw [refuses]
    constructor
    · rintro ⟨-, whenever⟩
      by_cases malformed : ∃ use ∈ uses arguments, use.malformed = true
      · exact Or.inr ⟨silent, whenever malformed⟩
      · exact Or.inl malformed
    · intro reasons
      refine ⟨⟨_, _, returned⟩, fun malformed => ?_⟩
      rcases reasons with none | ⟨-, refused⟩
      · exact absurd malformed none
      · exact refused

/-- A list without a directory is refused, whatever is missing. -/
theorem malformed_refused_iff_no_directory :
    (∃ accepted read,
        parseArgs ["--interface", "i", "--count"] {} =
          .ok (accepted, read)) ∧
      ((∃ use ∈ uses ["--interface", "i", "--count"],
          use.malformed = true) →
        ∃ read,
          parseArgs ["--interface", "i", "--count"] {} =
            .ok (false, read)) :=
  (malformed_refused_iff ["--interface", "i", "--count"] (by decide)
    (by decide)).mpr (Or.inr (by decide))

/-- One command line is accepted without its count, another one throws. -/
theorem missing_count_accepted :
    ¬ ∀ arguments : List String,
      "--version" ∉ arguments → "--help" ∉ arguments →
        (∃ accepted read, parseArgs arguments {} = .ok (accepted, read)) ∧
          ((∃ use ∈ uses arguments, use.malformed = true) →
            ∃ read, parseArgs arguments {} = .ok (false, read)) := by
  intro refused
  obtain ⟨read, isRead⟩ :=
    (refused ["--yaml-dir", "d", "--interface", "i", "--count"] (by decide)
      (by decide)).2 (by decide)
  have accepted :
      (parseArgs ["--yaml-dir", "d", "--interface", "i", "--count"]
        {}).toOption.map Prod.fst = some true := by
    decide
  rw [isRead] at accepted
  cases accepted

end TsnGen.CommandLine
