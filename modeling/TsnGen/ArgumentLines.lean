import TsnGen.CommandLine

namespace TsnGen.CommandLine

/-!
# What is said about the arguments

`parseArgs` writes to the error output while it reads: a missing value is
reported and read as an empty one, an unknown option and a failed check are
reported before the arguments are refused.  The lines are those of the same
loop and of the same checks in the same order.
-/

/-- The lines of the loop; a value that throws ends them. -/
def optionLines : List String → Args → List String
  | [], _ => []
  | a :: rest, out =>
      match wordOf a with
      | .value option =>
          match rest with
          | [] => ["Missing value for " ++ a]
          | value :: later =>
              match setValue option value out with
              | .error _ => []
              | .ok read => optionLines later read
      | .flag option => optionLines rest (setFlag option out)
      | .version => []
      | .help => []
      | .unknown => ["Unknown option: " ++ a]

/-- What the checks behind the loop find fault with, if they do. -/
def complaint
    (out : Args) : Option String :=
  if out.logLevel ∉ logLevels then
    some "--log-level must be quiet|error|warn|info|debug"
  else if out.yamlDir = "" then
    some "--yaml-dir is required"
  else if pipelineFlags out > 1 then
    some "--connect, --stack and --stack-file are mutually exclusive"
  else if !out.listInterfaces ∧ !out.validate ∧ out.iface = "" ∧
      out.chain = [] ∧ out.stack = [] ∧ out.stackFile = "" then
    some "--interface (or --connect / --stack / --stack-file) is required"
  else if out.output ≠ "hex" ∧ out.output ≠ "json" then
    some "--output must be 'hex' or 'json'"
  else
    none

/-- All lines that `parseArgs` writes. -/
def lines
    (arguments : List String)
    (out : Args) : List String :=
  optionLines arguments out ++
    match parseOptions arguments out with
    | .ok (true, read) => (complaint read).toList
    | _ => []

/-- Putting the interface in front of a list keeps the output format. -/
theorem output_prepended
    (out : Args) :
    (prependToStack (prependToChain out)).output = out.output := by
  rw [prependToStack, prependToChain]
  split
  · split
    · rfl
    · rfl
  · split
    · rfl
    · rfl

/-- The checks accept exactly what they have no complaint about. -/
theorem finish_fst_eq_isNone
    (out : Args) :
    (finish out).1 = (complaint out).isNone := by
  rw [finish, complaint]
  split
  · rfl
  · split
    · rfl
    · split
      · rfl
      · split
        · rfl
        · simp only [output_prepended]
          split
          next bad =>
            simp [bad]
          next good =>
            by_cases hex : out.output = "hex"
            · simp [hex]
            · have json : out.output = "json" := by
                by_contra other
                exact good ⟨hex, other⟩
              simp [json]

/-- A loop that stops at an argument says which one it does not know. -/
theorem optionLines_of_stopped
    {arguments : List String}
    {out read : Args}
    (stops : parseOptions arguments out = .ok (false, read)) :
    ∃ a ∈ arguments,
      wordOf a = .unknown ∧
        optionLines arguments out = ["Unknown option: " ++ a] := by
  induction arguments using uses.induct generalizing out with
  | case1 =>
      cases stops
  | case2 a option isOption =>
      simp only [parseOptions, isOption] at stops
      cases stored : setValue option "" out with
      | error ending =>
          rw [stored] at stops
          cases stops
      | ok later =>
          rw [stored] at stops
          cases stops
  | case3 a option isOption value later inductionHypothesis =>
      simp only [parseOptions, isOption] at stops
      cases stored : setValue option value out with
      | error ending =>
          rw [stored] at stops
          cases stops
      | ok next =>
          rw [stored] at stops
          obtain ⟨word, member, unknown, said⟩ := inductionHypothesis stops
          refine ⟨word, by simp [member], unknown, ?_⟩
          simp only [optionLines, isOption, stored]
          exact said
  | case4 a rest option isOption inductionHypothesis =>
      simp only [parseOptions, isOption] at stops
      obtain ⟨word, member, unknown, said⟩ := inductionHypothesis stops
      refine ⟨word, by simp [member], unknown, ?_⟩
      simp only [optionLines, isOption]
      exact said
  | case5 a rest isOption =>
      simp only [parseOptions, isOption] at stops
      cases stops
  | case6 a rest isOption =>
      simp only [parseOptions, isOption] at stops
      cases stops
  | case7 a rest isOption =>
      exact ⟨a, by simp, isOption, by simp only [optionLines, isOption]⟩

/--
Arguments that are refused are told why: either one of them is unknown, or a
check complains about what was read.
-/
theorem lines_of_refused
    {arguments : List String}
    {out read : Args}
    (refused : parseArgs arguments out = .ok (false, read)) :
    (∃ a ∈ arguments,
        wordOf a = .unknown ∧
          lines arguments out = ["Unknown option: " ++ a]) ∨
      ∃ whole reason,
        parseOptions arguments out = .ok (true, whole) ∧
          complaint whole = some reason ∧
            lines arguments out = optionLines arguments out ++ [reason] := by
  cases loop : parseOptions arguments out with
  | error ending =>
      simp [parseArgs, loop, bind, Except.bind] at refused
  | ok result =>
      obtain ⟨goesOn, whole⟩ := result
      cases goesOn with
      | false =>
          obtain ⟨a, member, unknown, said⟩ := optionLines_of_stopped loop
          refine Or.inl ⟨a, member, unknown, ?_⟩
          simp only [lines, loop, said, List.append_nil]
      | true =>
          have finished : finish whole = (false, read) := by
            simpa [parseArgs, loop, bind, Except.bind, pure, Except.pure]
              using refused
          have complains := finish_fst_eq_isNone whole
          rw [finished] at complains
          cases faulted : complaint whole with
          | none =>
              rw [faulted] at complains
              cases complains
          | some reason =>
              refine Or.inr ⟨whole, reason, rfl, faulted, ?_⟩
              simp only [lines, loop, faulted, Option.toList_some]

end TsnGen.CommandLine
