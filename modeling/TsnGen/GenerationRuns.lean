import TsnGen.LoadedAsWritten
import TsnGen.LoadOrder
import TsnGen.PacketGen

namespace TsnGen

/-!
# Runs that generate

Arguments that reach a pipeline make the program work on it.  What a generating
run prints and hands over are the lines and the packets of an initial part of
its effects, which neither the transport nor the count has an influence on; the
exit code tells how far the run came.
-/

/-- A sender whose calls are counted by `send` alone. -/
structure ISender.Counting (sender : ISender S) : Prop where
  handed_open :
    ∀ state, sender.handed (sender.openSender state).2 = sender.handed state
  handed_close :
    ∀ state, sender.handed (sender.close state) = sender.handed state

namespace PacketGen

/-- The pipeline that arguments name in a parsed directory. -/
def pipelineOf
    (host : Host G S R)
    (args : Args)
    (session : Session) : Option Pipeline :=
  if args.stackFile ≠ "" then
    match loadStack host session args.stackFile with
    | .ok (.success, some stack) => some (.stackFile stack)
    | _ => none
  else
    (interfacePipeline args session).toOption

/-- Arguments make the program work on a pipeline. -/
structure Reaches
    (host : Host G S R)
    (arguments : List String)
    (args : Args)
    (session : Session)
    (pipeline : Pipeline) : Prop where
  read : CommandLine.parseArgs arguments {} = .ok (true, args)
  noValidation : args.validate = false
  noListing : args.listInterfaces = false
  parsed :
    ∃ parser,
      ProtocolParser.parse host.loader args.yamlDir
          (host.directory args.yamlDir) .fresh = .ok (.success, parser) ∧
        parser.session = session
  resolved : pipelineOf host args session = some pipeline

/-- The level that arguments set. -/
def levelOf
    (args : Args) : LogLevel :=
  (LogLevel.ofName? args.logLevel).getD .warn

/-- The engine that a generation starts with. -/
def engineOf
    (host : Host G S R)
    (args : Args) : G :=
  host.seeded (if args.seedSet then args.seed else host.randomDevice)

/-- The effects of a number of rounds. -/
def effectsOf
    (host : Host G S R)
    (args : Args)
    (session : Session)
    (pipeline : Pipeline)
    (rounds : Nat) : List Effect :=
  Rounds.actions (round session host.rng (args.output = "json")) rounds
    (pipeline, engineOf host args)

/-- How many rounds a generation has, unless a packet is refused. -/
def roundsOf
    (args : Args)
    (limit : Nat) : Nat :=
  Rounds.roundCount args.count.toNat limit

/-- The calls of the sender of a run, none without a sender. -/
def calls
    (host : Host G S R)
    (out : Output S R) : Handed :=
  (out.sender.map host.sender.handed).getD []

/-- Every call was accepted. -/
def AllAccepted
    (handed : Handed) : Prop :=
  ∀ call ∈ handed, call.2 = .success

/-- Every call but the last was accepted. -/
def LastRefused
    (handed : Handed) : Prop :=
  ∃ before packet code,
    handed = before ++ [(packet, code)] ∧ AllAccepted before ∧
      code ≠ .success

section Effects

variable {host : Host G S R}
variable {level : LogLevel}

/-- An effect keeps whether there is a sender. -/
theorem isSome_sender_perform
    (effect : Effect)
    (out : Output S R) :
    (perform host level effect out).2.sender.isSome =
      out.sender.isSome := by
  cases effect with
  | log entries =>
      rfl
  | print line =>
      rfl
  | send packet =>
      cases present : out.sender with
      | none =>
          simp [perform, present]
      | some sender =>
          simp [perform, present]

/-- An effect prints its lines. -/
theorem stdout_perform
    (effect : Effect)
    (out : Output S R) :
    (perform host level effect out).2.stdout =
      out.stdout ++ effect.lines := by
  cases effect with
  | log entries =>
      simp [perform, Effect.lines, Output.log]
  | print line =>
      simp [perform, Effect.lines, Output.print]
  | send packet =>
      cases present : out.sender with
      | none =>
          simp [perform, present, Effect.lines]
      | some sender =>
          simp [perform, present, Effect.lines]

/-- An effect hands over its packets, if there is a sender. -/
theorem packets_perform
    (effect : Effect)
    {out : Output S R}
    (present : out.sender.isSome = true) :
    (calls host (perform host level effect out).2).map Prod.fst =
      (calls host out).map Prod.fst ++ effect.packets := by
  obtain ⟨sender, isSender⟩ := Option.isSome_iff_exists.mp present
  cases effect with
  | log entries =>
      simp [perform, Effect.packets, calls, Output.log]
  | print line =>
      simp [perform, Effect.packets, calls, Output.print]
  | send packet =>
      simp [perform, isSender, Effect.packets, calls,
        host.sender.handed_send]

/-- A step that succeeds leaves accepted calls only. -/
theorem allAccepted_perform
    (effect : Effect)
    {out : Output S R}
    (succeeded : (perform host level effect out).1 = true)
    (accepted : AllAccepted (calls host out)) :
    AllAccepted (calls host (perform host level effect out).2) := by
  cases effect with
  | log entries =>
      exact accepted
  | print line =>
      exact accepted
  | send packet =>
      cases isSender : out.sender with
      | none =>
          simpa [perform, isSender] using accepted
      | some sender =>
          have sent : (host.sender.send packet sender).1 = .success := by
            simpa [perform, isSender] using succeeded
          have before : AllAccepted (host.sender.handed sender) := by
            simpa [calls, isSender] using accepted
          intro call member
          simp only [calls, perform, isSender, Option.map_some,
            Option.getD_some, host.sender.handed_send, List.mem_append,
            List.mem_singleton] at member
          rcases member with earlier | isLast
          · exact before call earlier
          · subst isLast
            exact sent

/-- A step that fails is a packet that is refused. -/
theorem lastRefused_perform
    (effect : Effect)
    {out : Output S R}
    (stopped : (perform host level effect out).1 = false)
    (accepted : AllAccepted (calls host out)) :
    LastRefused (calls host (perform host level effect out).2) := by
  cases effect with
  | log entries =>
      cases stopped
  | print line =>
      cases stopped
  | send packet =>
      cases isSender : out.sender with
      | none =>
          simp [perform, isSender] at stopped
      | some sender =>
          have refused : (host.sender.send packet sender).1 ≠ .success := by
            simpa [perform, isSender] using stopped
          have before : AllAccepted (host.sender.handed sender) := by
            simpa [calls, isSender] using accepted
          refine ⟨host.sender.handed sender, packet,
            (host.sender.send packet sender).1, ?_, before, refused⟩
          simp [calls, perform, isSender, host.sender.handed_send]

/-- Refusing the last call, a sender has not accepted all of them. -/
theorem LastRefused.not_allAccepted
    {handed : Handed}
    (refused : LastRefused handed) :
    ¬ AllAccepted handed := by
  obtain ⟨before, packet, code, rfl, -, notSuccess⟩ := refused
  intro accepted
  exact notSuccess (accepted (packet, code) (by simp))

end Effects

/-- What a generating run has done, and what its exit code says about it. -/
structure GenerationReport
    (host : Host G S R)
    (args : Args)
    (limit : Nat)
    (effects : List Effect)
    (result : Exit × Output S R) : Prop where
  carriedOut :
    ∃ done,
      done <+: effects ∧
        result.2.stdout = done.flatMap Effect.lines ∧
          (result.2.sender.isSome = true →
            (calls host result.2).map Prod.fst =
              done.flatMap Effect.packets) ∧
            (result.1 ≠ .code 2 → done = effects)
  succeeded :
    result.1 = .code 0 ↔
      AllAccepted (calls host result.2) ∧
        args.count ≠ 0 ∧ args.count.toNat < limit
  failed :
    result.1 = .code 2 ↔ LastRefused (calls host result.2)
  interrupted :
    result.1 = .interrupted ↔
      AllAccepted (calls host result.2) ∧
        (args.count = 0 ∨ limit ≤ args.count.toNat)

/-- Lines about the arguments are no matter of the report. -/
theorem GenerationReport.afterReading
    {host : Host G S R}
    {args : Args}
    {limit : Nat}
    {effects : List Effect}
    {result : Exit × Output S R}
    (report : GenerationReport host args limit effects result)
    (arguments : List String) :
    GenerationReport host args limit effects
      (PacketGen.afterReading arguments result) where
  carriedOut := report.carriedOut
  succeeded := report.succeeded
  failed := report.failed
  interrupted := report.interrupted

/-- Closing the sender changes neither the lines nor the calls. -/
theorem calls_closeSender
    {host : Host G S R}
    (counting : host.sender.Counting)
    (out : Output S R) :
    calls host (closeSender host out) = calls host out := by
  cases isSender : out.sender with
  | none =>
      simp [calls, closeSender, isSender]
  | some sender =>
      simp [calls, closeSender, isSender, counting.handed_close]

/--
The ways a generation ends: all effects were carried out and the count was
reached, or they were and the run was interrupted, or one of them failed.
-/
inductive Generation
    (host : Host G S R)
    (args : Args)
    (limit : Nat)
    (done : Bool × Output S R) :
    Exit × Output S R → Prop where
  | finished
      (all : done.1 = true)
      (ends : args.count ≠ 0 ∧ args.count.toNat < limit) :
      Generation host args limit done (.code 0, closeSender host done.2)
  | interrupted
      (all : done.1 = true)
      (endless : args.count = 0 ∨ limit ≤ args.count.toNat) :
      Generation host args limit done (.interrupted, done.2)
  | failed
      (stopped : done.1 = false)
      (line : String) :
      Generation host args limit done
        (.code 2, closeSender host (done.2.say [line]))

/-- A generation carries out the effects of its rounds. -/
theorem generation_generateRounds
    (host : Host G S R)
    (limit : Nat)
    (level : LogLevel)
    (args : Args)
    (session : Session)
    (pipeline : Pipeline)
    (out : Output S R) :
    Generation host args limit
      (Rounds.performAll (perform host level)
        (effectsOf host args session pipeline (roundsOf args limit)) out)
      (generateRounds host limit level args session pipeline out) := by
  obtain ⟨done, isDone⟩ :
      ∃ done,
        done =
          Rounds.performAll (perform host level)
            (effectsOf host args session pipeline (roundsOf args limit))
            out :=
    ⟨_, rfl⟩
  obtain ⟨ran, isRan⟩ :
      ∃ ran,
        ran =
          Rounds.run (perform host level)
            (round session host.rng (args.output = "json"))
            args.count.toNat limit 0
            (pipeline,
              host.seeded
                (if args.seedSet then args.seed else host.randomDevice))
            out :=
    ⟨_, rfl⟩
  have state : ran.2 = done.2 := by
    rw [isRan, isDone]
    exact Rounds.run_state _ _ _ _ _ _
  have finished := Rounds.run_finished_iff (perform host level)
    (round session host.rng (args.output = "json")) args.count.toNat limit
    (pipeline, engineOf host args) out
  have interrupted := Rounds.run_interrupted_iff (perform host level)
    (round session host.rng (args.output = "json")) args.count.toNat limit
    (pipeline, engineOf host args) out
  have failed := Rounds.run_failed_iff (perform host level)
    (round session host.rng (args.output = "json")) args.count.toNat limit
    (pipeline, engineOf host args) out
  have sameEffects :
      Rounds.performAll (perform host level)
          (Rounds.actions (round session host.rng (args.output = "json"))
            (Rounds.roundCount args.count.toNat limit)
            (pipeline, engineOf host args)) out = done :=
    isDone.symm
  have countZero : args.count.toNat = 0 ↔ args.count = 0 := by
    rw [← UInt64.toNat_inj]
    rfl
  rw [sameEffects, engineOf, ← isRan] at finished interrupted failed
  rw [ne_eq, countZero] at finished
  rw [countZero] at interrupted
  simp only [generateRounds, ← isRan]
  rw [← isDone]
  cases verdict : ran.1 with
  | finished =>
      obtain ⟨all, ends⟩ := finished.mp verdict
      rw [state]
      exact .finished all ends
  | interrupted =>
      obtain ⟨all, endless⟩ := interrupted.mp verdict
      rw [state]
      exact .interrupted all endless
  | failed index =>
      rw [state]
      exact .failed (failed.mp ⟨index, verdict⟩) _

/-- What effects leave behind on a sender that was not called before. -/
structure Performed
    (host : Host G S R)
    (effects done : List Effect)
    (result : Bool × Output S R) : Prop where
  isPrefix : done <+: effects
  whole : result.1 = true → done = effects
  lines : result.2.stdout = done.flatMap Effect.lines
  packets :
    result.2.sender.isSome = true →
      (calls host result.2).map Prod.fst = done.flatMap Effect.packets
  accepted : result.1 = true → AllAccepted (calls host result.2)
  refused : result.1 = false → LastRefused (calls host result.2)

section Performing

variable {host : Host G S R}
variable {level : LogLevel}
variable {out : Output S R}

/-- Effects keep whether there is a sender. -/
theorem isSome_sender_performAll
    (effects : List Effect) :
    (Rounds.performAll (perform host level) effects
      out).2.sender.isSome = out.sender.isSome :=
  Rounds.performAll_keeps
    (fun later : Output S R => later.sender.isSome = out.sender.isSome)
    (fun effect later same =>
      (isSome_sender_perform effect later).trans same) effects rfl

/-- Effects print the lines of those that were carried out. -/
theorem stdout_performAll
    (unprinted : out.stdout = [])
    (effects : List Effect) :
    (Rounds.performAll (perform host level) effects out).2.stdout =
      (Rounds.performed (perform host level) effects out).flatMap
        Effect.lines := by
  rw [Rounds.view_performAll (fun _ => True) Output.stdout
    (fun _ _ _ => trivial)
    (fun effect out _ => stdout_perform effect out) effects trivial,
    unprinted, List.nil_append]

variable (uncalled : calls host out = [])

include uncalled

/-- Effects hand over the packets of those that were carried out. -/
theorem packets_performAll
    (effects : List Effect)
    (present : out.sender.isSome = true) :
    (calls host
        (Rounds.performAll (perform host level) effects out).2).map
          Prod.fst =
      (Rounds.performed (perform host level) effects out).flatMap
        Effect.packets := by
  rw [Rounds.view_performAll
    (fun later : Output S R => later.sender.isSome = true)
    (fun later => (calls host later).map Prod.fst)
    (fun effect later present =>
      (isSome_sender_perform effect later).trans present)
    (fun effect later present => packets_perform effect present) effects
    present, uncalled]
  rfl

/-- Effects that all succeed leave accepted calls only. -/
theorem allAccepted_performAll
    {effects : List Effect}
    (all :
      (Rounds.performAll (perform host level) effects out).1 = true) :
    AllAccepted
      (calls host (Rounds.performAll (perform host level) effects out).2) := by
  have noCalls : AllAccepted (calls host out) := by
    rw [uncalled]
    intro call member
    cases member
  exact Rounds.performAll_keeps_succeeding
    (fun later => AllAccepted (calls host later))
    (fun effect later succeeded before =>
      allAccepted_perform effect succeeded before) all noCalls

/-- Effects that stop leave a refused call behind accepted ones. -/
theorem lastRefused_performAll
    {effects : List Effect}
    (stopped :
      (Rounds.performAll (perform host level) effects out).1 = false) :
    LastRefused
      (calls host (Rounds.performAll (perform host level) effects out).2) := by
  obtain ⟨before, failing, -, succeeded, last⟩ :=
    Rounds.exists_failing stopped
  rw [← last] at stopped ⊢
  exact lastRefused_perform failing stopped
    (allAccepted_performAll uncalled succeeded)

variable (level) in
/-- What is left behind is the work of the effects that were carried out. -/
theorem performed_performAll
    (unprinted : out.stdout = [])
    (effects : List Effect) :
    Performed host effects
      (Rounds.performed (perform host level) effects out)
      (Rounds.performAll (perform host level) effects out) where
  isPrefix := Rounds.performed_isPrefix effects out
  whole := Rounds.performed_eq
  lines := stdout_performAll unprinted effects
  packets := fun present =>
    packets_performAll uncalled effects
      (isSome_sender_performAll effects ▸ present)
  accepted := allAccepted_performAll uncalled
  refused := lastRefused_performAll uncalled

end Performing

section Reporting

variable {host : Host G S R}
variable {args : Args}
variable {limit : Nat}
variable {effects done : List Effect}
variable {result : Bool × Output S R}
variable (performed : Performed host effects done result)

include performed

/-- A generation that reaches its count has carried out everything. -/
theorem Performed.report_of_finished
    (counting : host.sender.Counting)
    (all : result.1 = true)
    (ends : args.count ≠ 0 ∧ args.count.toNat < limit) :
    GenerationReport host args limit effects
      (.code 0, closeSender host result.2) := by
  have accepted := performed.accepted all
  have endless : ¬ (args.count = 0 ∨ limit ≤ args.count.toNat) := by
    rintro (zero | less)
    · exact ends.1 zero
    · exact absurd ends.2 (Nat.not_lt.mpr less)
  refine ⟨⟨done, performed.isPrefix, performed.lines, ?_,
    fun _ => performed.whole all⟩, ?_, ?_, ?_⟩
  · intro present
    rw [calls_closeSender counting]
    exact performed.packets (by simpa [closeSender] using present)
  · simp only [calls_closeSender counting, true_iff]
    exact ⟨accepted, ends⟩
  · simp only [calls_closeSender counting, Exit.code.injEq,
      OfNat.zero_ne_ofNat, false_iff]
    exact fun last => last.not_allAccepted accepted
  · simp only [reduceCtorEq, false_iff, not_and]
    exact fun _ => endless

/-- A generation that is interrupted has carried out everything so far. -/
theorem Performed.report_of_interrupted
    (all : result.1 = true)
    (endless : args.count = 0 ∨ limit ≤ args.count.toNat) :
    GenerationReport host args limit effects (.interrupted, result.2) := by
  have accepted := performed.accepted all
  have notReached : ¬ (args.count ≠ 0 ∧ args.count.toNat < limit) := by
    rintro ⟨counted, less⟩
    rcases endless with zero | reached
    · exact counted zero
    · exact absurd less (Nat.not_lt.mpr reached)
  refine ⟨⟨done, performed.isPrefix, performed.lines, performed.packets,
    fun _ => performed.whole all⟩, ?_, ?_, ?_⟩
  · simp only [reduceCtorEq, false_iff, not_and]
    exact fun _ => not_and.mp notReached
  · simp only [reduceCtorEq, false_iff]
    exact fun last => last.not_allAccepted accepted
  · simp only [true_iff]
    exact ⟨accepted, endless⟩

/-- A generation whose packet is refused fails, whatever it says. -/
theorem Performed.report_of_failed
    (counting : host.sender.Counting)
    (stopped : result.1 = false)
    (line : String) :
    GenerationReport host args limit effects
      (.code 2, closeSender host (result.2.say [line])) := by
  have last := performed.refused stopped
  have sameCalls :
      calls host (closeSender host (result.2.say [line])) =
        calls host result.2 :=
    calls_closeSender counting _
  refine ⟨⟨done, performed.isPrefix, performed.lines, ?_, ?_⟩, ?_, ?_, ?_⟩
  · intro present
    rw [sameCalls]
    exact performed.packets
      (by simpa [closeSender, Output.say] using present)
  · intro notTwo
    exact absurd rfl notTwo
  · simp only [Exit.code.injEq, OfNat.ofNat_ne_zero, false_iff, not_and,
      sameCalls]
    exact fun all => absurd all last.not_allAccepted
  · simp only [sameCalls, true_iff]
    exact last
  · simp only [reduceCtorEq, false_iff, not_and, sameCalls]
    exact fun all => absurd all last.not_allAccepted

end Reporting

/-- Rounds on an open sender that was not called yet are reported. -/
theorem report_generateRounds
    {host : Host G S R}
    (counting : host.sender.Counting)
    (limit : Nat)
    (level : LogLevel)
    (args : Args)
    (session : Session)
    (pipeline : Pipeline)
    {out : Output S R}
    (unprinted : out.stdout = [])
    (uncalled : calls host out = []) :
    GenerationReport host args limit
      (effectsOf host args session pipeline (roundsOf args limit))
      (generateRounds host limit level args session pipeline out) := by
  have performed :=
    performed_performAll level uncalled unprinted
      (effectsOf host args session pipeline (roundsOf args limit))
  have generation :=
    generation_generateRounds host limit level args session pipeline out
  generalize generateRounds host limit level args session pipeline out =
    result at generation ⊢
  cases generation with
  | finished all ends =>
      exact performed.report_of_finished counting all ends
  | interrupted all endless =>
      exact performed.report_of_interrupted all endless
  | failed stopped line =>
      exact performed.report_of_failed counting stopped line

/-- Arguments that reach a pipeline make the program run on it. -/
theorem main_of_reaches
    {host : Host G S R}
    {arguments : List String}
    {args : Args}
    {session : Session}
    {pipeline : Pipeline}
    (reaches : Reaches host arguments args session pipeline)
    (limit : Nat) :
    main host limit arguments =
      afterReading arguments
        (runPipeline host limit (levelOf args) args session pipeline) := by
  obtain ⟨read, noValidation, noListing, ⟨parser, parsed, rfl⟩, resolved⟩ :=
    reaches
  rw [main, read]
  refine congrArg (afterReading arguments) ?_
  simp only [runArgs, noValidation, Bool.false_eq_true, ↓reduceIte, parsed,
    runSession, noListing]
  rw [pipelineOf] at resolved
  by_cases named : args.stackFile ≠ ""
  · rw [if_pos named] at resolved ⊢
    cases loaded : loadStack host parser.session args.stackFile with
    | error crash =>
        rw [loaded] at resolved
        cases resolved
    | ok result =>
        obtain ⟨code, stack⟩ := result
        rw [loaded] at resolved
        cases code with
        | success =>
            cases stack with
            | none =>
                cases resolved
            | some stack =>
                cases resolved
                rfl
        | _ =>
            cases resolved
  · rw [if_neg named] at resolved ⊢
    cases found : interfacePipeline args parser.session with
    | error name =>
        rw [found] at resolved
        cases resolved
    | ok pipeline =>
        rw [found] at resolved
        cases resolved
        rfl

/-- Without `--decode` the run generates. -/
theorem main_generating
    {host : Host G S R}
    {arguments : List String}
    {args : Args}
    {session : Session}
    {pipeline : Pipeline}
    (reaches : Reaches host arguments args session pipeline)
    (generating : args.decode = false)
    (limit : Nat) :
    main host limit arguments =
      afterReading arguments
        (generate host limit (levelOf args) args session pipeline) := by
  rw [main_of_reaches reaches limit, runPipeline, generating]
  rfl

/-- With `--decode` it decodes. -/
theorem main_decoding
    {host : Host G S R}
    {arguments : List String}
    {args : Args}
    {session : Session}
    {pipeline : Pipeline}
    (reaches : Reaches host arguments args session pipeline)
    (decoding : args.decode = true)
    (limit : Nat) :
    main host limit arguments =
      afterReading arguments
        (decode host limit (levelOf args) args session pipeline) := by
  rw [main_of_reaches reaches limit, runPipeline, decoding]
  rfl

/-- The arguments name a sender that cannot be opened. -/
def OpenFails
    (host : Host G S R)
    (args : Args) : Prop :=
  ∃ sender,
    (makeSender host args.transport).2 = some sender ∧
      (host.sender.openSender sender).1 ≠ .success

/-- Senders count calls of `send` only, and start with none. -/
structure Counting (host : Host G S R) : Prop where
  sender : host.sender.Counting
  fresh :
    ∀ kind param, host.sender.handed (host.newSender kind param) = []

/-- A sender that is made was not called yet. -/
theorem handed_makeSender
    {host : Host G S R}
    (counting : Counting host)
    {spec : String}
    {sender : S}
    (made : (makeSender host spec).2 = some sender) :
    host.sender.handed sender = [] := by
  unfold makeSender at made
  split at made
  · cases made
  · cases made
  next kind param _ =>
    cases made
    exact counting.fresh kind param

/-- A generation either fails to open its sender or is reported. -/
theorem generate_cases
    {host : Host G S R}
    (counting : Counting host)
    (limit : Nat)
    (args : Args)
    (session : Session)
    (pipeline : Pipeline) :
    let result := generate host limit (levelOf args) args session pipeline
    (OpenFails host args →
        result.1 = .code 2 ∧ result.2.stdout = [] ∧
          calls host result.2 = []) ∧
      (¬ OpenFails host args →
        GenerationReport host args limit
          (effectsOf host args session pipeline (roundsOf args limit))
          result) := by
  intro result
  have isResult :
      result = generate host limit (levelOf args) args session pipeline :=
    rfl
  rw [generate] at isResult
  cases made : (makeSender host args.transport).2 with
  | none =>
      rw [made] at isResult
      refine ⟨?_, fun _ => ?_⟩
      · rintro ⟨sender, isSender, -⟩
        rw [made] at isSender
        cases isSender
      · rw [isResult]
        exact report_generateRounds counting.sender limit _ args session
          pipeline rfl rfl
  | some sender =>
      have uncalled := handed_makeSender counting made
      have opened :
          host.sender.handed (host.sender.openSender sender).2 = [] := by
        rw [counting.sender.handed_open, uncalled]
      rw [made] at isResult
      by_cases success : (host.sender.openSender sender).1 = .success
      · simp only [success, ↓reduceIte] at isResult
        refine ⟨?_, fun _ => ?_⟩
        · rintro ⟨other, isOther, refused⟩
          rw [made, Option.some.injEq] at isOther
          rw [← isOther] at refused
          exact absurd success refused
        · rw [isResult]
          exact report_generateRounds counting.sender limit _ args session
            pipeline rfl opened
      · simp only [success, ↓reduceIte] at isResult
        refine ⟨fun _ => ?_, fun opens => absurd ⟨sender, made, success⟩ opens⟩
        rw [isResult]
        exact ⟨rfl, rfl, opened⟩

section Reached

variable {host : Host G S R}
variable (counting : Counting host)
variable {arguments : List String}
variable {args : Args}
variable {session : Session}
variable {pipeline : Pipeline}
variable (reaches : Reaches host arguments args session pipeline)
variable (generating : args.decode = false)
variable (limit : Nat)

include counting reaches generating

/-- A run whose sender does not open does nothing. -/
theorem nothing_of_openFails
    (fails : OpenFails host args) :
    let result := main host limit arguments
    result.1 = .code 2 ∧ result.2.stdout = [] ∧
      calls host result.2 = [] := by
  intro result
  simp only [result, main_generating reaches generating limit]
  exact (generate_cases counting limit args session pipeline).1 fails

/-- Any other run is reported by its effects. -/
theorem report_of_opens
    (opens : ¬ OpenFails host args) :
    GenerationReport host args limit
      (effectsOf host args session pipeline (roundsOf args limit))
      (main host limit arguments) := by
  rw [main_generating reaches generating limit]
  exact ((generate_cases counting limit args session pipeline).2
    opens).afterReading arguments

end Reached

section Sample

/-- The text of a directory's only file. -/
def soleText : List UInt8 :=
  [115, 118, 99]

/-- What the only file declares. -/
def soleDeclared : Protocol.Declarations where
  vars :=
    [{ name := "svc::x"
       size := 16
       expectedValues := [0x22F0, 7]
       range := some { min := 1, max := 0xFFFF }
       mask := 0 }]
  interfaces := [soleInterface]
  services := [{ name := "svc", logicName := "mac" }]

/-- A loader that finds one document in every file. -/
def soleLoader : Loader where
  paging := { pageSize := 512, positive := by decide }
  parseInArena := fun _ => some smallDocument
  isNumber := fun text => text.toList.all Char.isDigit

/-- A directory of one file, with transports of some kind. -/
def soleHost
    (sender : ISender S)
    (receiver : IReceiver R)
    (newSender : TransportKind → String → S)
    (newReceiver : TransportKind → String → R) : Host Unit S R where
  loader := soleLoader
  registry := .empty
  directory := fun _ => some [.file "one.yaml" (some soleText)]
  file := fun _ => none
  rng := Rng.constant 7
  seeded := fun _ => ()
  randomDevice := 0
  sender := sender
  receiver := receiver
  newSender := newSender
  newReceiver := newReceiver

/-- The databases behind the only file. -/
def soleSession : Session :=
  (Protocol.Declarations.merge [soleDeclared]).addTo .empty

/-- The only file declares a service with one interface. -/
theorem soleText_declares :
    Protocol.declaredByContent soleLoader (some soleText) =
      some soleDeclared := by
  rw [Protocol.declaredByContent_of_whole (by decide) (by decide) rfl]
  rfl

/-- A directory of one file loads what the file declares. -/
theorem soleFile_parses
    {loader : Loader}
    {declared : Protocol.Declarations}
    (declares :
      Protocol.declaredByContent loader (some soleText) = some declared)
    (service :
      ((Protocol.Declarations.merge [declared]).addTo
        .empty).serviceDb.entries ≠ []) :
    ∃ parser,
      ProtocolParser.parse loader "d"
          (some [.file "one.yaml" (some soleText)]) .fresh =
          .ok (.success, parser) ∧
        parser.session =
          (Protocol.Declarations.merge [declared]).addTo .empty := by
  have files :
      ProtocolParser.yamlFiles "d" [.file "one.yaml" (some soleText)] =
        [("d/one.yaml", some soleText)] :=
    rfl
  have isDeclared :
      ProtocolParser.declaredBy loader [("d/one.yaml", some soleText)] =
        [declared] := by
    simp [ProtocolParser.declaredBy, declares]
  refine ⟨_, ProtocolParser.parse_eq_success_iff.mpr
    ⟨⟨?_, ?_, rfl⟩, ?_, ?_⟩, ?_⟩
  · simp [ProtocolParser.nesting, ProtocolParser.nestingOf,
      ProtocolParser.fresh, ProtocolParser.maxCurrentDepthPath]
  · simp [ProtocolParser.AllLoad, files, declares]
  · simp [ProtocolParser.behind, files]
  · simp only [ProtocolParser.behind, files, isDeclared]
    exact service
  · simp only [ProtocolParser.behind, files, isDeclared]
    rfl

/-- The directory loads. -/
theorem soleText_parses :
    ∃ parser,
      ProtocolParser.parse soleLoader "d"
          (some [.file "one.yaml" (some soleText)]) .fresh =
          .ok (.success, parser) ∧
        parser.session = soleSession :=
  soleFile_parses soleText_declares (by decide)

/-- Arguments that name the only interface reach it. -/
theorem soleHost_reaches
    (sender : ISender S)
    (receiver : IReceiver R)
    (newSender : TransportKind → String → S)
    (newReceiver : TransportKind → String → R)
    (arguments : List String)
    (args : Args)
    (read : CommandLine.parseArgs arguments {} = .ok (true, args))
    (noValidation : args.validate = false)
    (noListing : args.listInterfaces = false)
    (directory : args.yamlDir = "d")
    (iface : args.iface = "svc::mac::tx")
    (noStackFile : args.stackFile = "")
    (noStack : args.stack = [])
    (noChain : args.chain = []) :
    Reaches (soleHost sender receiver newSender newReceiver) arguments args
      soleSession
      (.chain soleInterface []) where
  read := read
  noValidation := noValidation
  noListing := noListing
  parsed := by
    rw [directory]
    exact soleText_parses
  resolved := by
    have found :
        soleSession.interfaceDb.getElement "svc::mac::tx" =
          some soleInterface := by
      decide
    simp [pipelineOf, noStackFile, interfacePipeline, noStack, noChain, iface,
      found, Except.toOption]

/-- Senders that keep their calls and accept every second packet. -/
theorem counting_everySecond
    (receiver : IReceiver R)
    (newReceiver : TransportKind → String → R) :
    Counting
      (soleHost TrafficGenerator.everySecond receiver (fun _ _ => [])
        newReceiver) where
  sender :=
    { handed_open := fun _ => rfl
      handed_close := fun _ => rfl }
  fresh := fun _ _ => rfl

/-- A receiver of nothing. -/
def silence : IReceiver Unit where
  openReceiver _ := (.ok (), ())
  receive _ := (.error .eof, ())
  close _ := ()

end Sample

/--
Delivery of a whole run.  A run that cannot open its sender does nothing; any
other prints the lines and hands over the packets of one initial part of its
effects.  It exits with success exactly if it has an end, came to it and every
packet was accepted, and with a runtime error exactly if the last packet handed
over was refused, which is the only one.
-/
theorem generation_accounted
    {G S R : Type}
    {host : Host G S R}
    (counting : Counting host)
    {arguments : List String}
    {args : Args}
    {session : Session}
    {pipeline : Pipeline}
    (reaches : Reaches host arguments args session pipeline)
    (generating : args.decode = false)
    (limit : Nat) :
    let result := main host limit arguments
    (OpenFails host args →
        result.1 = .code 2 ∧ result.2.stdout = [] ∧
          calls host result.2 = []) ∧
      (¬ OpenFails host args →
        GenerationReport host args limit
          (effectsOf host args session pipeline (roundsOf args limit))
          result) := by
  exact ⟨nothing_of_openFails counting reaches generating limit,
    report_of_opens counting reaches generating limit⟩

theorem generation_accounted_refused :
    let host :=
      soleHost TrafficGenerator.everySecond silence (fun _ _ => [])
        fun _ _ => ()
    let args : Args :=
      { yamlDir := "d"
        iface := "svc::mac::tx"
        count := 3
        transport := "raw:eth0" }
    GenerationReport host args 9
      (effectsOf host args soleSession (.chain soleInterface [])
        (roundsOf args 9))
      (main host 9
        ["--yaml-dir", "d", "--interface", "svc::mac::tx", "--count", "3",
          "--transport", "raw:eth0"]) := by
  intro host args
  have reaches :=
    soleHost_reaches TrafficGenerator.everySecond silence (fun _ _ => [])
      (fun _ _ => ())
      ["--yaml-dir", "d", "--interface", "svc::mac::tx", "--count", "3",
        "--transport", "raw:eth0"] args rfl rfl rfl rfl rfl rfl rfl rfl
  refine (generation_accounted
    (counting_everySecond silence fun _ _ => ()) reaches rfl 9).2 ?_
  rintro ⟨sender, -, refused⟩
  exact refused rfl

/-- More rounds have the effects of fewer ones and then others. -/
theorem effectsOf_isPrefix
    (host : Host G S R)
    (args : Args)
    (session : Session)
    (pipeline : Pipeline)
    {fewer more : Nat}
    (le : fewer ≤ more) :
    effectsOf host args session pipeline fewer <+:
      effectsOf host args session pipeline more :=
  Rounds.actions_isPrefix le _

/-- What a run printed is that of an initial part of more effects. -/
theorem exists_done
    {host : Host G S R}
    (counting : Counting host)
    {arguments : List String}
    {args : Args}
    {session : Session}
    {pipeline : Pipeline}
    (reaches : Reaches host arguments args session pipeline)
    (generating : args.decode = false)
    {limit rounds : Nat}
    (le : roundsOf args limit ≤ rounds) :
    let result := main host limit arguments
    ∃ done,
      done <+: effectsOf host args session pipeline rounds ∧
        result.2.stdout = done.flatMap Effect.lines ∧
          (¬ OpenFails host args → result.1 ≠ .code 2 →
            done =
              effectsOf host args session pipeline
                (roundsOf args limit)) := by
  intro result
  by_cases fails : OpenFails host args
  · obtain ⟨-, noLine, -⟩ :=
      nothing_of_openFails counting reaches generating limit fails
    exact ⟨[], List.nil_prefix, noLine, fun opens => absurd fails opens⟩
  · obtain ⟨done, initial, lines, -, complete⟩ :=
      (report_of_opens counting reaches generating limit fails).carriedOut
    exact ⟨done,
      initial.trans (effectsOf_isPrefix host args session pipeline le), lines,
      fun _ => complete⟩

/--
Seeds reproduce.  Two runs on one pipeline with one seed and output format, on
whatever hosts, transports and counts, print lines of which one list begins
with the other.  A run that is not cut short by a refusal prints at least what
a run of no more rounds does, and with as many rounds both print the same.
-/
theorem seeded_runs_agree
    {G S R S' R' : Type}
    {host : Host G S R}
    {host' : Host G S' R'}
    (sameRng : host'.rng = host.rng)
    (sameSeeding : host'.seeded = host.seeded)
    (counting : Counting host)
    (counting' : Counting host')
    {arguments arguments' : List String}
    {args args' : Args}
    {session : Session}
    {pipeline : Pipeline}
    (reaches : Reaches host arguments args session pipeline)
    (reaches' : Reaches host' arguments' args' session pipeline)
    (generating : args.decode = false)
    (generating' : args'.decode = false)
    (seeded : args.seedSet = true)
    (seeded' : args'.seedSet = true)
    (sameSeed : args'.seed = args.seed)
    (sameOutput : args'.output = args.output)
    (limit limit' : Nat) :
    let result := main host limit arguments
    let result' := main host' limit' arguments'
    (result.2.stdout <+: result'.2.stdout ∨
        result'.2.stdout <+: result.2.stdout) ∧
      (¬ OpenFails host args → result.1 ≠ .code 2 →
        roundsOf args' limit' ≤ roundsOf args limit →
          result'.2.stdout <+: result.2.stdout ∧
            (¬ OpenFails host' args' → result'.1 ≠ .code 2 →
              roundsOf args' limit' = roundsOf args limit →
                result'.2.stdout = result.2.stdout)) := by
  intro result result'
  have sameEffects
      (rounds : Nat) :
      effectsOf host' args' session pipeline rounds =
        effectsOf host args session pipeline rounds := by
    simp only [effectsOf, engineOf, sameRng, sameSeeding, seeded, seeded',
      sameSeed, sameOutput, ↓reduceIte]
  obtain ⟨rounds, fits, fits'⟩ :
      ∃ rounds, roundsOf args limit ≤ rounds ∧ roundsOf args' limit' ≤ rounds :=
    ⟨max (roundsOf args limit) (roundsOf args' limit'), le_max_left _ _,
      le_max_right _ _⟩
  obtain ⟨done, initial, lines, complete⟩ :=
    exists_done counting reaches generating fits
  obtain ⟨done', initial', lines', complete'⟩ :=
    exists_done counting' reaches' generating' fits'
  rw [sameEffects] at initial' complete'
  simp only [result, result', lines, lines']
  refine ⟨?_, fun opens finished fewer => ⟨?_, fun opens' finished' same => ?_⟩⟩
  · exact (List.prefix_or_prefix_of_prefix initial initial').imp
      (fun first => first.flatMap Effect.lines)
      (fun second => second.flatMap Effect.lines)
  · obtain ⟨done'', initial'', lines'', -⟩ :=
      exists_done counting' reaches' generating' (Nat.le_refl _)
    rw [sameEffects] at initial''
    rw [lines'] at lines''
    rw [lines'', complete opens finished]
    exact (initial''.trans
      (effectsOf_isPrefix host args session pipeline fewer)).flatMap
        Effect.lines
  · rw [complete opens finished, complete' opens' finished', same]

theorem seeded_runs_agree_refused :
    let host :=
      soleHost TrafficGenerator.everySecond silence (fun _ _ => [])
        fun _ _ => ()
    let shorter :=
      (main host 9
        ["--yaml-dir", "d", "--interface", "svc::mac::tx", "--count", "5",
          "--seed", "4", "--transport", "raw:eth0"]).2.stdout
    let longer :=
      (main host 9
        ["--yaml-dir", "d", "--interface", "svc::mac::tx", "--count", "6",
          "--seed", "4"]).2.stdout
    longer <+: shorter ∨ shorter <+: longer := by
  intro host shorter longer
  have counting := counting_everySecond silence fun _ _ => ()
  have reaches :=
    soleHost_reaches TrafficGenerator.everySecond silence (fun _ _ => [])
      (fun _ _ => ())
      ["--yaml-dir", "d", "--interface", "svc::mac::tx", "--count", "6",
        "--seed", "4"]
      { yamlDir := "d"
        iface := "svc::mac::tx"
        count := 6
        seed := 4
        seedSet := true } rfl rfl rfl rfl rfl rfl rfl rfl
  have reaches' :=
    soleHost_reaches TrafficGenerator.everySecond silence (fun _ _ => [])
      (fun _ _ => ())
      ["--yaml-dir", "d", "--interface", "svc::mac::tx", "--count", "5",
        "--seed", "4", "--transport", "raw:eth0"]
      { yamlDir := "d"
        iface := "svc::mac::tx"
        count := 5
        seed := 4
        seedSet := true
        transport := "raw:eth0" } rfl rfl rfl rfl rfl rfl rfl rfl
  have sameRng : host.rng = host.rng :=
    rfl
  have sameSeeding : host.seeded = host.seeded :=
    rfl
  have agree :=
    seeded_runs_agree sameRng sameSeeding counting counting reaches reaches'
      rfl rfl rfl rfl rfl rfl 9 9
  exact agree.1

end PacketGen

end TsnGen
