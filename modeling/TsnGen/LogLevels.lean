import TsnGen.ArgumentErrors
import TsnGen.DecodingRuns

namespace TsnGen

/-!
# What a log level changes

The level decides which lines of the session are logged, and nothing else: a run
at any level is the run at the most detailed one with the lines filtered that
the level does not show.
-/

/-- The most detailed level shows what any level does. -/
theorem LogLevel.shows_debug
    {level severity : LogLevel}
    (shown : level.shows severity = true) :
    LogLevel.debug.shows severity = true := by
  cases severity with
  | quiet =>
      simp [LogLevel.shows] at shown
  | error =>
      rfl
  | warn =>
      rfl
  | info =>
      rfl
  | debug =>
      rfl

/-- An output with the logged lines that a level shows. -/
def Output.seenAt
    (level : LogLevel)
    (out : Output S R) : Output S R :=
  { out with
    logged := out.logged.filter fun entry => level.shows entry.1 }

namespace Output

variable (level : LogLevel)
variable (out : Output S R)

/-- A line of the program is no matter of the level. -/
theorem say_seenAt
    (texts : List String) :
    (out.seenAt level).say texts = (out.say texts).seenAt level :=
  rfl

/-- What is logged at a level is what is seen of the most detailed log. -/
theorem log_seenAt
    (entries : Log) :
    (out.seenAt level).log level entries =
      (out.log .debug entries).seenAt level := by
  have same :
      (entries.filter fun entry => LogLevel.debug.shows entry.1).filter
          (fun entry => level.shows entry.1) =
        entries.filter fun entry => level.shows entry.1 := by
    rw [List.filter_filter]
    refine List.filter_congr fun entry _ => ?_
    by_cases shown : level.shows entry.1 = true
    · simp [shown, LogLevel.shows_debug shown]
    · simp [shown]
  simp [log, seenAt, same]

/-- Where nothing was logged, every level shows the same. -/
theorem seenAt_of_silent
    {out : Output S R}
    (silent : out.logged = []) :
    out.seenAt level = out := by
  obtain ⟨stdout, stderr, logged, sender, receiver⟩ := out
  cases silent
  rfl

end Output

namespace PacketGen

variable {host : Host G S R}
variable (level : LogLevel)

/-- An exit and an output with the logged lines that a level shows. -/
def seenAt
    (result : Exit × Output S R) : Exit × Output S R :=
  (result.1, result.2.seenAt level)

/-- Carrying out an effect on what is seen. -/
theorem perform_seenAt
    (effect : Effect)
    (out : Output S R) :
    perform host level effect (out.seenAt level) =
      (perform host .debug effect out).map id (Output.seenAt level) := by
  cases effect with
  | log entries =>
      exact Prod.ext rfl (out.log_seenAt level entries)
  | print line =>
      rfl
  | send packet =>
      cases isSender : out.sender with
      | none =>
          simp [perform, Output.seenAt, isSender]
      | some sender =>
          simp [perform, Output.seenAt, isSender]

/-- Rounds on what is seen. -/
theorem generateRounds_seenAt
    (limit : Nat)
    (args : Args)
    (session : Session)
    (pipeline : Pipeline)
    (out : Output S R) :
    generateRounds host limit level args session pipeline
        (out.seenAt level) =
      seenAt level
        (generateRounds host limit .debug args session pipeline out) := by
  simp only [generateRounds, Rounds.run_map (perform_seenAt level)]
  generalize Rounds.run (perform host .debug)
    (round session host.rng (args.output = "json")) args.count.toNat limit 0
    (pipeline,
      host.seeded (if args.seedSet then args.seed else host.randomDevice))
    out = ran
  obtain ⟨verdict, later⟩ := ran
  cases verdict with
  | finished =>
      rfl
  | interrupted =>
      rfl
  | failed index =>
      exact Prod.ext rfl
        (congrArg (closeSender host)
          (later.say_seenAt level
            ["Send failed on round " ++ toString index]))

/-- A generation at a level. -/
theorem generate_seenAt
    (limit : Nat)
    (args : Args)
    (session : Session)
    (pipeline : Pipeline) :
    generate host limit level args session pipeline =
      seenAt level
        (generate host limit .debug args session pipeline) := by
  simp only [generate]
  split
  · rw [← generateRounds_seenAt, ← Output.say_seenAt]
    rfl
  next sender _ =>
    split
    · rw [← generateRounds_seenAt]
      rfl
    · exact Prod.ext rfl (Output.seenAt_of_silent level rfl).symm

/-- Decoding a packet at a level. -/
theorem consume_seenAt
    (session : Session)
    (jsonOut : Bool)
    (pkt : List UInt8)
    (state : Decoding S R) :
    Decoding.consume level session jsonOut pkt
        { state with out := state.out.seenAt level } =
      { Decoding.consume .debug session jsonOut pkt state with
        out :=
          (Decoding.consume .debug session jsonOut pkt
            state).out.seenAt level } := by
  simp only [Decoding.consume, Output.log_seenAt]
  rfl

/-- A decoding run at a level. -/
theorem decode_seenAt
    (limit : Nat)
    (args : Args)
    (session : Session)
    (pipeline : Pipeline) :
    decode host limit level args session pipeline =
      seenAt level
        (decode host limit .debug args session pipeline) := by
  by_cases given : args.hexInput ≠ ""
  · by_cases read : (Session.fromHex args.hexInput []).1 = true
    · have consumed :=
        consume_seenAt (S := S) (R := R) level session (args.output = "json")
          (Session.fromHex args.hexInput []).2
          { pipeline := pipeline, out := {} }
      simp only [decode, ne_eq, given, not_false_eq_true, ↓reduceIte, read]
      exact Prod.ext rfl (congrArg Decoding.out consumed)
    · simp only [decode, ne_eq, given, not_false_eq_true, ↓reduceIte, read,
        Bool.false_eq_true]
      exact Prod.ext rfl (Output.seenAt_of_silent level rfl).symm
  · have noHex := not_not.mp given
    cases made : (makeReceiver host args.transport).2 with
    | none =>
        simp only [decode, noHex, ne_eq, not_true_eq_false, ↓reduceIte, made]
        exact Prod.ext rfl (Output.seenAt_of_silent level rfl).symm
    | some receiver =>
        by_cases opens : (host.receiver.openReceiver receiver).1 = .ok ()
        · have drained :
              drainedBy host limit level args session pipeline
                  (host.receiver.openReceiver receiver).2 =
                (drainedBy host limit .debug args session pipeline
                  (host.receiver.openReceiver receiver).2).map id
                  (Prod.map
                    (fun state =>
                      { state with out := state.out.seenAt level }) id) :=
            Rounds.drain_map host.receiver.receive _ _ _ _
              (consume_seenAt level session (args.output = "json")) limit 0
              _ { pipeline := pipeline, out := {} }
          rw [decode_of_opens noHex made opens limit level session pipeline,
            decode_of_opens noHex made opens limit .debug session pipeline,
            drained]
          generalize drainedBy host limit .debug args session pipeline
            (host.receiver.openReceiver receiver).2 = ran
          obtain ⟨verdict, state, left⟩ := ran
          cases verdict with
          | done =>
              rfl
          | interrupted =>
              rfl
          | broken counted =>
              exact Prod.ext rfl
                (Output.say_seenAt level
                  { state.out with
                    receiver := some (host.receiver.close left) }
                  ["Receive error on packet " ++ toString counted])
        · rw [decode_of_unopened noHex made opens limit level session
            pipeline, decode_of_unopened noHex made opens limit .debug session
            pipeline]
          exact Prod.ext rfl (Output.seenAt_of_silent level rfl).symm

/-- A pipeline at a level. -/
theorem runPipeline_seenAt
    (limit : Nat)
    (args : Args)
    (session : Session)
    (pipeline : Pipeline) :
    runPipeline host limit level args session pipeline =
      seenAt level
        (runPipeline host limit .debug args session pipeline) := by
  rw [runPipeline, runPipeline]
  split
  · exact decode_seenAt level limit args session pipeline
  · exact generate_seenAt level limit args session pipeline

/-- A parsed directory at a level. -/
theorem runSession_seenAt
    (limit : Nat)
    (args : Args)
    (session : Session) :
    runSession host limit level args session =
      seenAt level (runSession host limit .debug args session) := by
  rw [runSession, runSession]
  split
  · rfl
  · split
    · split
      · rfl
      · exact runPipeline_seenAt level limit args session _
      · exact Prod.ext rfl (Output.seenAt_of_silent level rfl).symm
    · split
      · exact Prod.ext rfl (Output.seenAt_of_silent level rfl).symm
      · exact runPipeline_seenAt level limit args session _

/-- Validation logs nothing. -/
theorem validate_seenAt
    (args : Args) :
    validate host args = seenAt level (validate host args) := by
  have silent : (validate host args).2.logged = [] := by
    simp only [validate]
    split
    · rfl
    · split
      · rfl
      · rfl
  exact Prod.ext rfl (Output.seenAt_of_silent level silent).symm

/-- Arguments that were read, at a level. -/
theorem runArgs_seenAt
    (limit : Nat)
    (args : Args)
    {name : String}
    (named : LogLevel.ofName? name = some level) :
    runArgs host limit { args with logLevel := name } =
      seenAt level
        (runArgs host limit { args with logLevel := "debug" }) := by
  have isLevel : (LogLevel.ofName? name).getD .warn = level := by
    rw [named]
    rfl
  have isDebug : (LogLevel.ofName? "debug").getD .warn = .debug := by
    decide
  simp only [runArgs, isLevel, isDebug]
  split
  · exact validate_seenAt level { args with logLevel := name }
  · split
    · rfl
    · split
      · exact runSession_seenAt level limit { args with logLevel := name } _
      · exact Prod.ext rfl (Output.log_seenAt level {} _)

/--
Arguments that do not end in an option without its value are read up to their
end, and then what is behind them, or they end the reading.
-/
theorem parseOptions_append
    {arguments : List String}
    (complete :
      ∀ option, CommandLine.Use.missing option ∉ CommandLine.uses arguments)
    (out : Args) :
    (∃ read, ∀ behind,
        CommandLine.parseOptions (arguments ++ behind) out =
            CommandLine.parseOptions behind read ∧
          CommandLine.optionLines (arguments ++ behind) out =
            CommandLine.optionLines behind read) ∨
      (∀ read, CommandLine.parseOptions arguments out ≠ .ok (true, read)) ∧
        ∀ behind,
          CommandLine.parseOptions (arguments ++ behind) out =
              CommandLine.parseOptions arguments out ∧
            CommandLine.optionLines (arguments ++ behind) out =
              CommandLine.optionLines arguments out := by
  induction arguments using CommandLine.uses.induct generalizing out with
  | case1 =>
      exact Or.inl ⟨out, fun _ => ⟨rfl, rfl⟩⟩
  | case2 a option isOption =>
      exact absurd (by simp [CommandLine.uses, isOption]) (complete option)
  | case3 a option isOption value later inductionHypothesis =>
      have laterComplete :
          ∀ option,
            CommandLine.Use.missing option ∉ CommandLine.uses later := by
        intro other member
        exact complete other (by simp [CommandLine.uses, isOption, member])
      simp only [List.cons_append, CommandLine.parseOptions,
        CommandLine.optionLines, isOption]
      cases CommandLine.setValue option value out with
      | error ending =>
          exact Or.inr
            ⟨by simp [bind, Except.bind], fun _ => ⟨rfl, rfl⟩⟩
      | ok read =>
          exact inductionHypothesis laterComplete read
  | case4 a rest option isOption inductionHypothesis =>
      have restComplete :
          ∀ option,
            CommandLine.Use.missing option ∉ CommandLine.uses rest := by
        intro other member
        exact complete other (by simp [CommandLine.uses, isOption, member])
      simp only [List.cons_append, CommandLine.parseOptions,
        CommandLine.optionLines, isOption]
      exact inductionHypothesis restComplete (CommandLine.setFlag option out)
  | case5 a rest isOption =>
      simp only [List.cons_append, CommandLine.parseOptions,
        CommandLine.optionLines, isOption]
      exact Or.inr ⟨by simp, fun _ => ⟨trivial, trivial⟩⟩
  | case6 a rest isOption =>
      simp only [List.cons_append, CommandLine.parseOptions,
        CommandLine.optionLines, isOption]
      exact Or.inr ⟨by simp, fun _ => ⟨trivial, trivial⟩⟩
  | case7 a rest isOption =>
      simp only [List.cons_append, CommandLine.parseOptions,
        CommandLine.optionLines, isOption]
      exact Or.inr ⟨by simp, fun _ => ⟨trivial, trivial⟩⟩

/-- The checks ask of a level's name only that it is one. -/
theorem finish_level
    (args : Args)
    {name : String}
    (isLevel : name ∈ CommandLine.logLevels) :
    CommandLine.finish { args with logLevel := name } =
      ((CommandLine.finish { args with logLevel := "debug" }).1,
        { (CommandLine.finish { args with logLevel := "debug" }).2 with
          logLevel := name }) := by
  have isDebug : "debug" ∈ CommandLine.logLevels := by
    decide
  have flags :
      CommandLine.pipelineFlags { args with logLevel := name } =
        CommandLine.pipelineFlags { args with logLevel := "debug" } :=
    rfl
  simp only [CommandLine.finish, isLevel, isDebug, not_true_eq_false,
    ↓reduceIte, flags, CommandLine.prependToChain, CommandLine.prependToStack]
  split
  · rfl
  · split
    · rfl
    · split
      · rfl
      · split
        · split
          · rfl
          · rfl
        · split
          · rfl
          · rfl

/-- They complain about no level either. -/
theorem complaint_level
    (args : Args)
    {name : String}
    (isLevel : name ∈ CommandLine.logLevels) :
    CommandLine.complaint { args with logLevel := name } =
      CommandLine.complaint { args with logLevel := "debug" } := by
  have isDebug : "debug" ∈ CommandLine.logLevels := by
    decide
  have flags :
      CommandLine.pipelineFlags { args with logLevel := name } =
        CommandLine.pipelineFlags { args with logLevel := "debug" } :=
    rfl
  simp only [CommandLine.complaint, isLevel, isDebug, not_true_eq_false,
    ↓reduceIte, flags]

/-- Names that are levels. -/
theorem mem_logLevels_of_ofName?
    {name : String}
    {level : LogLevel}
    (named : LogLevel.ofName? name = some level) :
    name ∈ CommandLine.logLevels := by
  obtain ⟨before, behind, whole, -⟩ := List.lookup_eq_some_iff.mp named
  have member :
      (name, level) ∈
        [("quiet", .quiet), ("error", .error), ("warn", .warn),
          ("info", .info), ("debug", LogLevel.debug)] := by
    rw [whole]
    simp
  exact List.mem_map_of_mem (f := Prod.fst) member

section Appended

variable {host : Host G S R}
variable {arguments : List String}
variable {name : String}
variable {level : LogLevel}

/-- Behind arguments that are read, the level decides what is logged. -/
theorem main_at_level_of_read
    (limit : Nat)
    (named : LogLevel.ofName? name = some level)
    {read : Args}
    (reads :
      ∀ behind,
        CommandLine.parseOptions (arguments ++ behind) {} =
            CommandLine.parseOptions behind read ∧
          CommandLine.optionLines (arguments ++ behind) {} =
            CommandLine.optionLines behind read) :
    main host limit (arguments ++ ["--log-level", name]) =
      seenAt level
        (main host limit (arguments ++ ["--log-level", "debug"])) := by
  have isLevel := mem_logLevels_of_ofName? named
  have isDebug : "debug" ∈ CommandLine.logLevels := by
    decide
  have isParsed
      (name : String) :
      CommandLine.parseOptions (arguments ++ ["--log-level", name]) {} =
        .ok (true, { read with logLevel := name }) :=
    (reads ["--log-level", name]).1
  have isSaid
      (name : String) :
      CommandLine.optionLines (arguments ++ ["--log-level", name]) {} = [] :=
    (reads ["--log-level", name]).2
  have sameLines :
      CommandLine.lines (arguments ++ ["--log-level", name]) {} =
        CommandLine.lines (arguments ++ ["--log-level", "debug"]) {} := by
    simp only [CommandLine.lines, isParsed, isSaid,
      complaint_level read isLevel]
  have finished := finish_level read isLevel
  have kept := finish_level read isDebug
  cases passed : CommandLine.finish { read with logLevel := "debug" } with
  | mk goesOn args =>
      rw [passed] at finished kept
      have isKept : args = { args with logLevel := "debug" } :=
        congrArg Prod.snd kept
      simp only [main, CommandLine.parseArgs, isParsed, bind, Except.bind,
        pure, Except.pure, ↓reduceIte, finished, passed, afterReading,
        sameLines]
      cases goesOn with
      | false =>
          rfl
      | true =>
          have atLevel :
              runArgs host limit { args with logLevel := name } =
                seenAt level (runArgs host limit args) := by
            rw [runArgs_seenAt level limit args named, ← isKept]
          simp only [atLevel]
          rfl

/-- Behind arguments that end the reading, nothing is logged at any level. -/
theorem main_at_level_of_stopped
    (limit : Nat)
    (stops :
      ∀ read, CommandLine.parseOptions arguments {} ≠ .ok (true, read))
    (reads :
      ∀ behind,
        CommandLine.parseOptions (arguments ++ behind) {} =
            CommandLine.parseOptions arguments {} ∧
          CommandLine.optionLines (arguments ++ behind) {} =
            CommandLine.optionLines arguments {}) :
    main host limit (arguments ++ ["--log-level", name]) =
      seenAt level
        (main host limit (arguments ++ ["--log-level", "debug"])) := by
  have sameParse
      (name : String) :=
    (reads ["--log-level", name]).1
  have sameLines
      (name : String) :
      CommandLine.lines (arguments ++ ["--log-level", name]) {} =
        CommandLine.lines arguments {} := by
    simp only [CommandLine.lines, sameParse,
      (reads ["--log-level", name]).2]
  simp only [main, CommandLine.parseArgs, sameParse, afterReading, sameLines]
  cases parsed : CommandLine.parseOptions arguments {} with
  | error ending =>
      cases ending with
      | version =>
          rfl
      | help =>
          rfl
      | invalidArgument =>
          rfl
      | outOfRange =>
          rfl
  | ok result =>
      obtain ⟨goesOn, args⟩ := result
      cases goesOn with
      | false =>
          rfl
      | true =>
          exact absurd parsed (stops args)

end Appended

/--
A run at a level is the run at the most detailed one with the lines of the
session filtered: the exit, the standard output, the program's own lines and
every call of a transport are the same.
-/
theorem log_level_only_filters
    (host : Host G S R)
    (limit : Nat)
    {arguments : List String}
    (complete :
      ∀ option, CommandLine.Use.missing option ∉ CommandLine.uses arguments)
    {name : String}
    {level : LogLevel}
    (named : LogLevel.ofName? name = some level) :
    main host limit (arguments ++ ["--log-level", name]) =
      seenAt level
        (main host limit (arguments ++ ["--log-level", "debug"])) := by
  rcases parseOptions_append complete {} with
    ⟨read, reads⟩ | ⟨stops, reads⟩
  · exact main_at_level_of_read limit named reads
  · exact main_at_level_of_stopped limit stops reads

/-- A host on which no directory exists. -/
def missingHost :
    Host Unit Handed (List (Except ReceiverErr (List UInt8))) :=
  { failingHost with directory := fun _ => none }

theorem log_level_only_filters_missing :
    main missingHost 0
          ["--yaml-dir", "d", "--interface", "svc::mac::tx", "--log-level",
            "quiet"] =
        (.code 2, {}) ∧
      main missingHost 0
          ["--yaml-dir", "d", "--interface", "svc::mac::tx", "--log-level",
            "debug"] =
        (.code 2,
          { logged :=
              [(.error,
                "Session: parsing 'd' failed: " ++
                  "PPASER:ERR: INVALID INPUT\n")] }) := by
  have atDebug :
      main missingHost 0
          ["--yaml-dir", "d", "--interface", "svc::mac::tx", "--log-level",
            "debug"] =
        (.code 2,
          { logged :=
              [(.error,
                "Session: parsing 'd' failed: " ++
                  "PPASER:ERR: INVALID INPUT\n")] }) := by
    decide +kernel
  refine ⟨?_, atDebug⟩
  have complete :
      ∀ option,
        CommandLine.Use.missing option ∉
          CommandLine.uses
            ["--yaml-dir", "d", "--interface", "svc::mac::tx"] := by
    intro option
    cases option with
    | _ =>
        decide
  have filtered :
      LogLevel.ofName? "quiet" = some .quiet := by
    decide
  have atQuiet := log_level_only_filters missingHost 0 complete filtered
  simp only [List.cons_append, List.nil_append, atDebug] at atQuiet
  exact atQuiet

end PacketGen

end TsnGen
