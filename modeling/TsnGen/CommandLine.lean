import TsnGen.TextReplace
import TsnGen.Yaml

namespace TsnGen

open TextReplace

/-!
# The command line

`parseArgs` reads the arguments with one cursor: an option that takes a value
consumes the argument behind it.  A missing value is reported and read as an
empty one.  Numbers are converted by a function that may throw, and two options
end the program, so reading arguments returns an `Except` over `Ending`.

The arguments are also taken apart into uses of options, without reading them;
what `parseArgs` returns is told by the uses.
-/

/-- Ways in which reading the arguments does not return. -/
inductive Ending where
  | version
  | help
  | invalidArgument
  | outOfRange
  deriving Repr, DecidableEq

/-- What the arguments say, with the defaults. -/
structure Args where
  yamlDir : String := ""
  iface : String := ""
  count : UInt64 := 1
  seed : UInt64 := 0
  seedSet : Bool := false
  output : String := "json"
  transport : String := "none"
  logLevel : String := "warn"
  listInterfaces : Bool := false
  validate : Bool := false
  decode : Bool := false
  hexInput : String := ""
  chain : List String := []
  stack : List String := []
  stackFile : String := ""
  deriving Repr, DecidableEq

/-- Options that take a value. -/
inductive ValueOption where
  | yamlDir
  | interface
  | count
  | seed
  | output
  | transport
  | stackFile
  | logLevel
  | hex
  | connect
  | stack
  deriving Repr, DecidableEq

/-- Options that stand alone. -/
inductive FlagOption where
  | listInterfaces
  | validate
  | decode
  deriving Repr, DecidableEq

/-- What an argument is where an option is expected. -/
inductive Word where
  | value (option : ValueOption)
  | flag (option : FlagOption)
  | version
  | help
  | unknown
  deriving Repr, DecidableEq

namespace CommandLine

/-- The options, in the order in which an argument is compared with them. -/
def words : List (String × Word) := [
  ("--yaml-dir", .value .yamlDir),
  ("--interface", .value .interface),
  ("--count", .value .count),
  ("--seed", .value .seed),
  ("--output", .value .output),
  ("--transport", .value .transport),
  ("--stack-file", .value .stackFile),
  ("--log-level", .value .logLevel),
  ("--list-interfaces", .flag .listInterfaces),
  ("--validate", .flag .validate),
  ("--decode", .flag .decode),
  ("--hex", .value .hex),
  ("--connect", .value .connect),
  ("--stack", .value .stack),
  ("--version", .version),
  ("--help", .help)]

/-- Compare an argument with the options. -/
def wordOf
    (a : String) : Word :=
  (words.lookup a).getD .unknown

/-- What an argument is taken for is listed with it. -/
theorem mem_words_of_wordOf
    {a : String}
    {word : Word}
    (isWord : wordOf a = word)
    (known : word ≠ .unknown) :
    (a, word) ∈ words := by
  unfold wordOf at isWord
  cases found : words.lookup a with
  | none =>
      rw [found] at isWord
      exact absurd isWord.symm known
  | some other =>
      rw [found, Option.getD_some] at isWord
      obtain ⟨before, behind, whole, -⟩ :=
        List.lookup_eq_some_iff.mp found
      rw [whole, isWord]
      simp

/-- `std::stoull` in base 10; what follows the digits is not looked at. -/
def stoull
    (text : String) : Except Ending UInt64 :=
  match Numeral.scan 10 text.toList with
  | none => .error .invalidArgument
  | some literal =>
      if literal.magnitude < 2 ^ 64 then
        let value := UInt64.ofNat literal.magnitude
        .ok (if literal.negative then 0 - value else value)
      else
        .error .outOfRange

/-- What stands between the parts of a qualified name. -/
def doubleColon : List Char :=
  [':', ':']

/-- The placeholder of `::` while a list is split at single colons. -/
def kSep : List Char :=
  ['\x01']

/-- One character of a list: a colon ends a segment. -/
def splitStep
    (state : List Char × List String)
    (c : Char) : List Char × List String :=
  if c = ':' then
    let seg := replaceAll kSep doubleColon state.1
    ([], if seg.isEmpty then state.2 else state.2 ++ [String.ofList seg])
  else
    (state.1 ++ [c], state.2)

/-- Append the names of a colon-separated list. -/
def appendSpec
    (spec : String)
    (target : List String) : List String :=
  let s := replaceAll doubleColon kSep spec.toList
  ((s ++ [':']).foldl splitStep ([], target)).2

/-- Store the value of an option; an empty number is ignored. -/
def setValue
    (option : ValueOption)
    (value : String)
    (out : Args) : Except Ending Args :=
  match option with
  | .yamlDir => .ok { out with yamlDir := value }
  | .interface => .ok { out with iface := value }
  | .count =>
      if value = "" then
        .ok out
      else
        (stoull value).map fun number => { out with count := number }
  | .seed =>
      if value = "" then
        .ok out
      else
        (stoull value).map fun number =>
          { out with seed := number, seedSet := true }
  | .output => .ok { out with output := value }
  | .transport => .ok { out with transport := value }
  | .stackFile => .ok { out with stackFile := value }
  | .logLevel => .ok { out with logLevel := value }
  | .hex => .ok { out with hexInput := value }
  | .connect => .ok { out with chain := appendSpec value out.chain }
  | .stack => .ok { out with stack := appendSpec value out.stack }

/-- Note an option that stands alone. -/
def setFlag
    (option : FlagOption)
    (out : Args) : Args :=
  match option with
  | .listInterfaces => { out with listInterfaces := true }
  | .validate => { out with validate := true }
  | .decode => { out with decode := true }

/-- The loop over the arguments behind the program's name. -/
def parseOptions : List String → Args → Except Ending (Bool × Args)
  | [], out => .ok (true, out)
  | a :: rest, out =>
      match wordOf a with
      | .value option =>
          match rest with
          | [] => (setValue option "" out).map fun read => (true, read)
          | value :: later => do
              let read ← setValue option value out
              parseOptions later read
      | .flag option => parseOptions rest (setFlag option out)
      | .version => .error .version
      | .help => .error .help
      | .unknown => .ok (false, out)

/-- Names of the levels that `setLogLevel` knows. -/
def logLevels : List String :=
  ["quiet", "error", "warn", "info", "debug"]

/-- How many of the options for layers were given. -/
def pipelineFlags
    (out : Args) : Nat :=
  (if out.chain.isEmpty then 0 else 1) +
    (if out.stack.isEmpty then 0 else 1) +
      (if out.stackFile = "" then 0 else 1)

/-- The interface of its own goes to the front of the chain. -/
def prependToChain
    (out : Args) : Args :=
  if out.iface ≠ "" ∧ out.chain ≠ [] then
    { out with chain := out.iface :: out.chain, iface := "" }
  else
    out

/-- The interface of its own goes to the front of the stack. -/
def prependToStack
    (out : Args) : Args :=
  if out.iface ≠ "" ∧ out.stack ≠ [] then
    { out with stack := out.iface :: out.stack, iface := "" }
  else
    out

/-- The checks behind the loop. -/
def finish
    (out : Args) : Bool × Args :=
  if out.logLevel ∉ logLevels then
    (false, out)
  else if out.yamlDir = "" then
    (false, out)
  else if pipelineFlags out > 1 then
    (false, out)
  else if !out.listInterfaces ∧ !out.validate ∧ out.iface = "" ∧
      out.chain = [] ∧ out.stack = [] ∧ out.stackFile = "" then
    (false, out)
  else
    let decoding :=
      { out with decode := out.decode || out.hexInput ≠ "" }
    let prepended := prependToStack (prependToChain decoding)
    (prepended.output = "hex" ∨ prepended.output = "json", prepended)

/-- Read the arguments behind the program's name. -/
def parseArgs
    (arguments : List String)
    (out : Args) : Except Ending (Bool × Args) := do
  let (goesOn, read) ← parseOptions arguments out
  return if goesOn then finish read else (false, read)

/-- A use of an option among the arguments. -/
inductive Use where
  | given (option : ValueOption) (value : String)
  | missing (option : ValueOption)
  | flag (option : FlagOption)
  | version
  | help
  | unknown
  deriving Repr, DecidableEq

/-- Take arguments apart into uses, with nothing read from them. -/
def uses : List String → List Use
  | [] => []
  | a :: rest =>
      match wordOf a with
      | .value option =>
          match rest with
          | [] => [.missing option]
          | value :: later => .given option value :: uses later
      | .flag option => .flag option :: uses rest
      | .version => .version :: uses rest
      | .help => .help :: uses rest
      | .unknown => .unknown :: uses rest

example :
    uses ["--validate", "--yaml-dir", "--count", "--seed"] =
      [.flag .validate, .given .yamlDir "--count", .missing .seed] := by
  decide

/-- What the loop makes of uses. -/
def readUses : List Use → Args → Except Ending (Bool × Args)
  | [], out => .ok (true, out)
  | .given option value :: later, out => do
      let read ← setValue option value out
      readUses later read
  | .missing option :: later, out => do
      let read ← setValue option "" out
      readUses later read
  | .flag option :: later, out => readUses later (setFlag option out)
  | .version :: _, _ => .error .version
  | .help :: _, _ => .error .help
  | .unknown :: _, out => .ok (false, out)

/-- The loop reads the uses that the arguments are taken apart into. -/
theorem parseOptions_eq_readUses
    (arguments : List String)
    (out : Args) :
    parseOptions arguments out = readUses (uses arguments) out := by
  induction arguments using uses.induct generalizing out with
  | case1 =>
      rfl
  | case2 a option isOption =>
      simp only [parseOptions, uses, isOption, readUses]
      cases setValue option "" out with
      | error ending =>
          rfl
      | ok read =>
          rfl
  | case3 a option isOption value later inductionHypothesis =>
      simp only [parseOptions, uses, isOption, readUses,
        inductionHypothesis]
  | case4 a rest option isOption inductionHypothesis =>
      simp only [parseOptions, uses, isOption, readUses,
        inductionHypothesis]
  | case5 a rest isOption inductionHypothesis =>
      simp only [parseOptions, uses, isOption, readUses]
  | case6 a rest isOption inductionHypothesis =>
      simp only [parseOptions, uses, isOption, readUses]
  | case7 a rest isOption inductionHypothesis =>
      simp only [parseOptions, uses, isOption, readUses]

/-- Options whose value is a text that is kept as it is. -/
def textOptions : List ValueOption :=
  [.yamlDir, .interface, .output, .transport, .stackFile, .logLevel, .hex]

/-- The text that an option has set. -/
def textOf
    (option : ValueOption)
    (out : Args) : String :=
  match option with
  | .yamlDir => out.yamlDir
  | .interface => out.iface
  | .output => out.output
  | .transport => out.transport
  | .stackFile => out.stackFile
  | .logLevel => out.logLevel
  | .hex => out.hexInput
  | _ => ""

/-- The last value of an option, which is empty if it is missing. -/
def lastText
    (option : ValueOption)
    (initial : String)
    (used : List Use) : String :=
  used.foldl
    (fun current use =>
      match use with
      | .given other value => if other = option then value else current
      | .missing other => if other = option then "" else current
      | _ => current)
    initial

/-- The values of an option, in order. -/
def valuesOf
    (option : ValueOption)
    (used : List Use) : List String :=
  used.filterMap fun use =>
    match use with
    | .given other value => if other = option then some value else none
    | _ => none

/-- What uses make of arguments read so far. -/
structure ReadFrom
    (used : List Use)
    (out read : Args) : Prop where
  text :
    ∀ option ∈ textOptions,
      textOf option read = lastText option (textOf option out) used
  chain :
    read.chain =
      out.chain ++
        (valuesOf .connect used).flatMap fun spec => appendSpec spec []
  stack :
    read.stack =
      out.stack ++
        (valuesOf .stack used).flatMap fun spec => appendSpec spec []
  listInterfaces :
    read.listInterfaces = true ↔
      out.listInterfaces = true ∨ .flag .listInterfaces ∈ used
  validate :
    read.validate = true ↔
      out.validate = true ∨ .flag .validate ∈ used

/-- A letter that is no colon is kept. -/
theorem substitute_cons_of_ne
    {letter : Char}
    (differs : letter ≠ ':')
    (rest : List Char) :
    substitute doubleColon kSep (letter :: rest) =
      letter :: substitute doubleColon kSep rest := by
  refine substitute_cons ?_ kSep
  intro starts
  exact differs (List.cons_prefix_cons.mp starts).1.symm

/-- A colon that no other one follows is kept. -/
theorem substitute_colon_cons
    {rest : List Char}
    (single : rest.head? ≠ some ':') :
    substitute doubleColon kSep (':' :: rest) =
      ':' :: substitute doubleColon kSep rest := by
  refine substitute_cons ?_ kSep
  intro starts
  obtain ⟨behind, shape⟩ := (List.cons_prefix_cons.mp starts).2
  rw [← shape] at single
  exact single rfl

/-- Segments are appended to those that are there. -/
theorem foldl_splitStep
    (text : List Char)
    (seg : List Char)
    (target : List String) :
    text.foldl splitStep (seg, target) =
      ((text.foldl splitStep (seg, [])).1,
        target ++ (text.foldl splitStep (seg, [])).2) := by
  induction text generalizing seg target with
  | nil =>
      simp
  | cons c rest inductionHypothesis =>
      simp only [List.foldl_cons, splitStep]
      split
      · rw [inductionHypothesis]
        split
        · rfl
        · rw [inductionHypothesis [] ([] ++ _)]
          simp only [List.nil_append, List.append_assoc]
      · exact inductionHypothesis _ _

theorem appendSpec_eq
    (spec : String)
    (target : List String) :
    appendSpec spec target = target ++ appendSpec spec [] := by
  simp only [appendSpec]
  rw [foldl_splitStep]

@[simp] theorem appendSpec_empty
    (target : List String) :
    appendSpec "" target = target :=
  rfl

@[simp] theorem lastText_append
    (option : ValueOption)
    (initial : String)
    (first second : List Use) :
    lastText option initial (first ++ second) =
      lastText option (lastText option initial first) second :=
  List.foldl_append

@[simp] theorem valuesOf_append
    (option : ValueOption)
    (first second : List Use) :
    valuesOf option (first ++ second) =
      valuesOf option first ++ valuesOf option second :=
  List.filterMap_append

/-- Nothing is read from no uses. -/
theorem ReadFrom.nil
    (out : Args) :
    ReadFrom [] out out where
  text := fun _ _ => rfl
  chain := by simp [valuesOf]
  stack := by simp [valuesOf]
  listInterfaces := by simp
  validate := by simp

/-- Uses are read one part after the other. -/
theorem ReadFrom.append
    {first second : List Use}
    {out between read : Args}
    (ofFirst : ReadFrom first out between)
    (ofSecond : ReadFrom second between read) :
    ReadFrom (first ++ second) out read where
  text := by
    intro option isText
    rw [ofSecond.text option isText, ofFirst.text option isText,
      lastText_append]
  chain := by
    rw [ofSecond.chain, ofFirst.chain, valuesOf_append, List.flatMap_append,
      List.append_assoc]
  stack := by
    rw [ofSecond.stack, ofFirst.stack, valuesOf_append, List.flatMap_append,
      List.append_assoc]
  listInterfaces := by
    rw [ofSecond.listInterfaces, ofFirst.listInterfaces, List.mem_append,
      or_assoc]
  validate := by
    rw [ofSecond.validate, ofFirst.validate, List.mem_append, or_assoc]

/-- Whether the value of a use makes its conversion throw. -/
def Use.throws : Use → Bool
  | .given .count value => value ≠ "" && !(stoull value).isOk
  | .given .seed value => value ≠ "" && !(stoull value).isOk
  | _ => false

/-- An empty number is ignored, and another one is stored as converted. -/
private theorem storeNumber_eq_ok_iff
    {value : String}
    {store : UInt64 → Args}
    {out read : Args} :
    ((if value = "" then .ok out else (stoull value).map store) :
        Except Ending Args) = .ok read ↔
      (value = "" ∧ read = out) ∨
        (value ≠ "" ∧ ∃ number, stoull value = .ok number ∧
          read = store number) := by
  by_cases empty : value = ""
  · simp [empty, eq_comm]
  · cases converted : stoull value with
    | error ending =>
        simp [empty, Except.map]
    | ok number =>
        simp [empty, Except.map, eq_comm]

/-- A number goes to the fields of numbers only. -/
theorem setValue_number
    {option : ValueOption}
    (isNumber : option = .count ∨ option = .seed)
    {value : String}
    {out read : Args}
    (stored : setValue option value out = .ok read) :
    ∃ count seed seedSet,
      read = { out with count := count, seed := seed, seedSet := seedSet } := by
  rcases isNumber with rfl | rfl
  · rcases storeNumber_eq_ok_iff.mp stored with
      ⟨-, rfl⟩ | ⟨-, number, -, rfl⟩
    · exact ⟨read.count, read.seed, read.seedSet, rfl⟩
    · exact ⟨number, out.seed, out.seedSet, rfl⟩
  · rcases storeNumber_eq_ok_iff.mp stored with
      ⟨-, rfl⟩ | ⟨-, number, -, rfl⟩
    · exact ⟨read.count, read.seed, read.seedSet, rfl⟩
    · exact ⟨out.count, number, true, rfl⟩

/-- A use that changes no text is one of another option. -/
theorem lastText_given
    (option other : ValueOption)
    (initial value : String) :
    lastText option initial [.given other value] =
      if other = option then value else initial :=
  rfl

theorem valuesOf_given
    (option other : ValueOption)
    (value : String) :
    valuesOf option [.given other value] =
      if other = option then [value] else [] := by
  by_cases same : other = option
  · simp [valuesOf, same]
  · simp [valuesOf, same]

/-- A value is stored in one field, which is the one that its use tells of. -/
theorem readFrom_setValue
    {option : ValueOption}
    {value : String}
    {out read : Args}
    (stored : setValue option value out = .ok read) :
    ReadFrom [.given option value] out read := by
  by_cases isNumber : option = .count ∨ option = .seed
  · obtain ⟨count, seed, seedSet, rfl⟩ := setValue_number isNumber stored
    constructor
    case text =>
      intro other isText
      have differ : option ≠ other := by
        rintro rfl
        rcases isNumber with rfl | rfl
        · revert isText
          decide
        · revert isText
          decide
      rw [lastText_given, if_neg differ]
      cases other <;> rfl
    all_goals
      rcases isNumber with rfl | rfl <;> simp [valuesOf_given]
  · cases option
    case count => exact absurd (Or.inl rfl) isNumber
    case seed => exact absurd (Or.inr rfl) isNumber
    all_goals
      cases stored
      constructor
      case text =>
        intro other isText
        rw [lastText_given]
        cases other <;> first | rfl | exact absurd isText (by decide)
      all_goals
        simp [valuesOf_given, ← appendSpec_eq]

/-- A value that is not there is read as an empty one. -/
theorem readFrom_missing
    {option : ValueOption}
    {out read : Args}
    (stored : setValue option "" out = .ok read) :
    ReadFrom [.missing option] out read := by
  have given := readFrom_setValue stored
  constructor
  case text =>
    exact given.text
  case chain =>
    have chain := given.chain
    rw [valuesOf_given] at chain
    rw [chain]
    split
    · simp [valuesOf]
    · simp [valuesOf]
  case stack =>
    have stack := given.stack
    rw [valuesOf_given] at stack
    rw [stack]
    split
    · simp [valuesOf]
    · simp [valuesOf]
  case listInterfaces =>
    simpa using given.listInterfaces
  case validate =>
    simpa using given.validate

/-- An option that stands alone sets its own field. -/
theorem readFrom_setFlag
    (option : FlagOption)
    (out : Args) :
    ReadFrom [.flag option] out (setFlag option out) := by
  cases option
  all_goals
    constructor
    case text =>
      intro other isText
      cases other <;> rfl
    all_goals
      simp [setFlag, valuesOf]

/-- A value is stored unless its conversion throws. -/
theorem exists_setValue_iff
    (option : ValueOption)
    (value : String)
    (out : Args) :
    (∃ read, setValue option value out = .ok read) ↔
      Use.throws (.given option value) = false := by
  have number {store : UInt64 → Args} :
      (∃ read, ((if value = "" then .ok out else (stoull value).map store) :
          Except Ending Args) = .ok read) ↔
        (value ≠ "" && !(stoull value).isOk) = false := by
    simp only [storeNumber_eq_ok_iff]
    by_cases empty : value = ""
    · simp [empty]
    · cases converted : stoull value with
      | error ending =>
          simp [empty, Except.isOk, Except.toBool]
      | ok number =>
          simp [empty, Except.isOk, Except.toBool]
  cases option
  case count => exact number
  case seed => exact number
  all_goals
    exact iff_of_true ⟨_, rfl⟩ rfl

/-- One use is read on its own, unless its conversion throws. -/
theorem readUses_cons
    {use : Use}
    (notVersion : use ≠ .version)
    (notHelp : use ≠ .help)
    (known : use ≠ .unknown)
    (out : Args) :
    (use.throws = true ∧
        ∀ later, ∃ ending, readUses (use :: later) out = .error ending) ∨
      (use.throws = false ∧
        ∃ between, ReadFrom [use] out between ∧
          ∀ later, readUses (use :: later) out = readUses later between) := by
  cases use with
  | given option value =>
      have stores := exists_setValue_iff option value out
      cases stored : setValue option value out with
      | error ending =>
          rw [stored] at stores
          refine Or.inl ⟨?_, fun later => ⟨ending, ?_⟩⟩
          · by_contra silent
            obtain ⟨read, isRead⟩ := stores.mpr (by simpa using silent)
            cases isRead
          · rw [readUses, stored]
            rfl
      | ok read =>
          refine Or.inr ⟨stores.mp ⟨read, stored⟩, read,
            readFrom_setValue stored, ?_⟩
          intro later
          rw [readUses, stored]
          rfl
  | missing option =>
      have silent : Use.throws (.given option "") = false := by
        cases option <;> rfl
      obtain ⟨read, stored⟩ := (exists_setValue_iff option "" out).mpr silent
      refine Or.inr ⟨rfl, read, readFrom_missing stored, ?_⟩
      intro later
      rw [readUses, stored]
      rfl
  | flag option =>
      exact Or.inr ⟨rfl, setFlag option out, readFrom_setFlag option out,
        fun later => rfl⟩
  | version => exact absurd rfl notVersion
  | help => exact absurd rfl notHelp
  | unknown => exact absurd rfl known

/--
Uses are read to their end, or up to an unknown option, or up to a value that
makes its conversion throw, whichever comes first.
-/
theorem readUses_cases
    {used : List Use}
    (noVersion : .version ∉ used)
    (noHelp : .help ∉ used)
    (out : Args) :
    (∃ use ∈ used.takeWhile (· ≠ .unknown), use.throws = true) ∧
        (∃ ending, readUses used out = .error ending) ∨
      (¬ ∃ use ∈ used.takeWhile (· ≠ .unknown), use.throws = true) ∧
        (.unknown ∈ used ∧ (∃ read, readUses used out = .ok (false, read)) ∨
          .unknown ∉ used ∧
            ∃ read, readUses used out = .ok (true, read) ∧
              ReadFrom used out read) := by
  induction used generalizing out with
  | nil =>
      exact Or.inr ⟨by simp, Or.inr ⟨by simp, out, rfl, ReadFrom.nil out⟩⟩
  | cons use later inductionHypothesis =>
      rw [List.mem_cons, not_or] at noVersion noHelp
      by_cases known : use = .unknown
      · rw [known]
        exact Or.inr ⟨by simp, Or.inl ⟨List.mem_cons_self, out, rfl⟩⟩
      · rw [List.takeWhile_cons_of_pos (by simpa using known)]
        simp only [List.mem_cons, Ne.symm known, false_or, exists_eq_or_imp]
        rcases readUses_cons (Ne.symm noVersion.1) (Ne.symm noHelp.1) known out
          with ⟨throws, ends⟩ | ⟨silent, between, ofUse, goesOn⟩
        · exact Or.inl ⟨Or.inl throws, ends later⟩
        · rw [goesOn later, silent]
          rcases inductionHypothesis noVersion.2 noHelp.2 between with
            ⟨throws, ends⟩ | ⟨none, ⟨met, stops⟩ | ⟨unmet, read, ends, others⟩⟩
          · exact Or.inl ⟨Or.inr throws, ends⟩
          · exact Or.inr ⟨by simpa using none, Or.inl ⟨met, stops⟩⟩
          · exact Or.inr ⟨by simpa using none,
              Or.inr ⟨unmet, read, ends, ofUse.append others⟩⟩

end CommandLine

end TsnGen
