import TsnGen.DecodingRuns

namespace TsnGen

/-!
# How the program uses its transports

The calls that a transport sees are recorded beside it.  Whatever the arguments
and the environment are, the program opens a transport before anything else,
uses it only while all uses succeed, closes it exactly once unless it was never
open or the program is interrupted, and then returns what the calls came to.
-/

/-- How the use of a transport turned out. -/
inductive Outcome where
  | done
  | ended
  | failed
  deriving Repr, DecidableEq

/-- A call of a transport. -/
inductive TransportCall where
  | opened (success : Bool)
  | used (outcome : Outcome)
  | closed
  deriving Repr, DecidableEq

/-- Where a transport is in its life. -/
inductive TransportPhase where
  | made
  | unopened
  | ready
  | spent (outcome : Outcome)
  | closed (outcome : Outcome)
  deriving Repr, DecidableEq

namespace TransportPhase

/-- The calls that are allowed in a phase. -/
def next :
    TransportPhase → TransportCall → Option TransportPhase
  | .made, .opened true => some .ready
  | .made, .opened false => some .unopened
  | .ready, .used .done => some .ready
  | .ready, .used outcome => some (.spent outcome)
  | .ready, .closed => some (.closed .done)
  | .spent outcome, .closed => some (.closed outcome)
  | _, _ => none

/-- The phase behind calls, if each of them was allowed. -/
def after
    (calls : List TransportCall) : Option TransportPhase :=
  calls.foldlM next .made

/-- A call leads on from the phase behind the earlier ones. -/
theorem after_append
    {calls : List TransportCall}
    {phase : TransportPhase}
    (reached : after calls = some phase)
    (call : TransportCall) :
    after (calls ++ [call]) = phase.next call := by
  rw [after, List.foldlM_append, ← after, reached]
  simp

/-- What the program returns with a transport in a phase. -/
def Concludes :
    TransportPhase → Exit → Prop
  | .unopened, exit => exit = .code 2
  | .ready, exit => exit = .interrupted
  | .closed .failed, exit => exit = .code 2
  | .closed _, exit => exit = .code 0
  | _, _ => False

end TransportPhase

open TransportPhase

/-- A transport and the calls that it saw. -/
abbrev Traced (T : Type) := T × List TransportCall

/-- A sender whose calls are recorded. -/
def ISender.traced
    (sender : ISender S) : ISender (Traced S) where
  openSender state :=
    let opened := sender.openSender state.1
    (opened.1, opened.2, state.2 ++ [.opened (opened.1 = .success)])
  send packet state :=
    let sent := sender.send packet state.1
    (sent.1, sent.2,
      state.2 ++ [.used (if sent.1 = .success then .done else .failed)])
  close state := (sender.close state.1, state.2 ++ [.closed])
  handed state := sender.handed state.1
  handed_send packet state := sender.handed_send packet state.1

/-- A receiver whose calls are recorded. -/
def IReceiver.traced
    (receiver : IReceiver R) : IReceiver (Traced R) where
  openReceiver state :=
    let opened := receiver.openReceiver state.1
    (opened.1, opened.2,
      state.2 ++ [.opened (match opened.1 with | .ok _ => true | _ => false)])
  receive state :=
    let received := receiver.receive state.1
    (received.1, received.2,
      state.2 ++
        [.used
          (match received.1 with
          | .ok _ => .done
          | .error .eof => .ended
          | .error _ => .failed)])
  close state := (receiver.close state.1, state.2 ++ [.closed])

/-- A host whose transports are recorded. -/
def Host.traced
    (host : Host G S R) : Host G (Traced S) (Traced R) :=
  { host with
    sender := host.sender.traced
    receiver := host.receiver.traced
    newSender := fun kind param => (host.newSender kind param, [])
    newReceiver := fun kind param => (host.newReceiver kind param, []) }

namespace PacketGen

/-- The sender of a run, if there is one, is in a phase. -/
def SenderIn
    (phase : TransportPhase)
    (out : Output (Traced S) (Traced R)) : Prop :=
  ∀ sender, out.sender = some sender → after sender.2 = some phase

section Generating

variable {host : Host G S R}
variable {level : LogLevel}

/-- An effect that succeeds leaves an open sender ready. -/
theorem senderIn_ready_perform
    (effect : Effect)
    {out : Output (Traced S) (Traced R)}
    (succeeded : (perform host.traced level effect out).1 = true)
    (ready : SenderIn .ready out) :
    SenderIn .ready (perform host.traced level effect out).2 := by
  cases effect with
  | log entries =>
      exact ready
  | print line =>
      exact ready
  | send packet =>
      cases isSender : out.sender with
      | none =>
          simpa [perform, isSender] using ready
      | some sender =>
          rw [perform, isSender] at succeeded
          have sent : (host.sender.send packet sender.1).1 = .success :=
            of_decide_eq_true succeeded
          intro later isLater
          simp only [perform, isSender, Host.traced, ISender.traced,
            Option.some.injEq] at isLater
          rw [← isLater, after_append (ready sender isSender), sent]
          rfl

/-- An effect that fails is a refused use of the sender. -/
theorem senderIn_over_perform
    (effect : Effect)
    {out : Output (Traced S) (Traced R)}
    (stopped : (perform host.traced level effect out).1 = false)
    (ready : SenderIn .ready out) :
    SenderIn (.spent .failed) (perform host.traced level effect out).2 := by
  cases effect with
  | log entries =>
      cases stopped
  | print line =>
      cases stopped
  | send packet =>
      cases isSender : out.sender with
      | none =>
          simp [perform, isSender] at stopped
      | some sender =>
          rw [perform, isSender] at stopped
          have refused : (host.sender.send packet sender.1).1 ≠ .success :=
            of_decide_eq_false stopped
          intro later isLater
          simp only [perform, isSender, Host.traced, ISender.traced,
            Option.some.injEq] at isLater
          rw [← isLater, after_append (ready sender isSender),
            if_neg refused]
          rfl

/-- Effects make no receiver. -/
theorem receiver_perform
    (effect : Effect)
    (out : Output (Traced S) (Traced R)) :
    (perform host.traced level effect out).2.receiver = out.receiver := by
  cases effect with
  | log entries =>
      rfl
  | print line =>
      rfl
  | send packet =>
      cases isSender : out.sender with
      | none =>
          simp [perform, isSender]
      | some sender =>
          simp [perform, isSender]

/-- Closing leads on from the phase of the sender. -/
theorem senderIn_closeSender
    {phase later : TransportPhase}
    (closes : phase.next .closed = some later)
    {out : Output (Traced S) (Traced R)}
    (isIn : SenderIn phase out) :
    SenderIn later (closeSender host.traced out) := by
  intro sender isSender
  cases before : out.sender with
  | none =>
      simp [closeSender, before] at isSender
  | some opened =>
      simp only [closeSender, before, Host.traced, ISender.traced,
        Option.map_some, Option.some.injEq] at isSender
      rw [← isSender, after_append (isIn opened before), closes]

/-- Rounds on a ready sender conclude. -/
theorem generateRounds_concludes
    (limit : Nat)
    (args : Args)
    (session : Session)
    (pipeline : Pipeline)
    {out : Output (Traced S) (Traced R)}
    (ready : SenderIn .ready out)
    (noReceiver : out.receiver = none) :
    let result :=
      generateRounds host.traced limit level args session pipeline out
    result.2.receiver = none ∧
      ∀ sender, result.2.sender = some sender →
        ∃ phase,
          after sender.2 = some phase ∧ phase.Concludes result.1 := by
  have stillNone :
      (Rounds.performAll (perform host.traced level)
        (effectsOf host.traced args session pipeline (roundsOf args limit))
        out).2.receiver = none :=
    Rounds.performAll_keeps
      (fun later : Output (Traced S) (Traced R) => later.receiver = none)
      (fun effect later noReceiver =>
        (receiver_perform effect later).trans noReceiver)
      _ noReceiver
  have keptReady
      {effects : List Effect}
      (all :
        (Rounds.performAll (perform host.traced level) effects out).1 =
          true) :
      SenderIn .ready
        (Rounds.performAll (perform host.traced level) effects out).2 :=
    Rounds.performAll_keeps_succeeding (SenderIn .ready)
      (fun effect later => senderIn_ready_perform effect) all ready
  have generation :=
    generation_generateRounds host.traced limit level args session pipeline
      out
  generalize generateRounds host.traced limit level args session pipeline
    out = result at generation ⊢
  cases generation with
  | finished all ends =>
      refine ⟨stillNone, fun sender isSender => ?_⟩
      exact ⟨.closed .done, senderIn_closeSender rfl (keptReady all) sender
        isSender, rfl⟩
  | interrupted all endless =>
      refine ⟨stillNone, fun sender isSender => ?_⟩
      exact ⟨.ready, keptReady all sender isSender, rfl⟩
  | failed stopped line =>
      refine ⟨stillNone, fun sender isSender => ?_⟩
      obtain ⟨before, failing, -, succeeded, last⟩ :=
        Rounds.exists_failing stopped
      have spent := senderIn_over_perform failing (last ▸ stopped)
        (keptReady succeeded)
      rw [last] at spent
      exact ⟨.closed .failed,
        senderIn_closeSender rfl spent sender isSender, rfl⟩

/-- A generation makes no receiver, and its sender concludes it. -/
theorem generate_concludes
    (limit : Nat)
    (args : Args)
    (session : Session)
    (pipeline : Pipeline) :
    let result := generate host.traced limit level args session pipeline
    result.2.receiver = none ∧
      ∀ sender, result.2.sender = some sender →
        ∃ phase,
          after sender.2 = some phase ∧ phase.Concludes result.1 := by
  have fresh :
      ∀ sender,
        (makeSender host.traced args.transport).2 = some sender →
          sender.2 = [] := by
    intro sender isMade
    unfold makeSender at isMade
    split at isMade
    · cases isMade
    · cases isMade
    · cases isMade
      rfl
  intro result
  have isResult :
      result = generate host.traced limit level args session pipeline :=
    rfl
  rw [generate] at isResult
  cases made : (makeSender host.traced args.transport).2 with
  | none =>
      rw [made] at isResult
      rw [isResult]
      refine generateRounds_concludes limit args session pipeline ?_ rfl
      intro sender isSender
      cases isSender
  | some sender =>
      have unused := fresh sender made
      rw [made] at isResult
      by_cases success : (host.sender.openSender sender.1).1 = .success
      · have opened :
            (host.traced.sender.openSender sender).1 = .success :=
          success
        simp only [opened, ↓reduceIte] at isResult
        rw [isResult]
        refine generateRounds_concludes limit args session pipeline ?_ rfl
        intro later isLater
        cases isLater
        simp only [Host.traced, ISender.traced, unused, success]
        rfl
      · have unopened :
            (host.traced.sender.openSender sender).1 ≠ .success :=
          success
        simp only [unopened, ↓reduceIte] at isResult
        rw [isResult]
        refine ⟨rfl, fun later isLater => ⟨.unopened, ?_, rfl⟩⟩
        cases isLater
        simp only [Host.traced, ISender.traced, unused, success]
        rfl

end Generating

section Decoding

variable {host : Host G S R}

/-- A receiver that was opened is left as draining it ended. -/
theorem drainedBy_concludes
    (limit : Nat)
    (level : LogLevel)
    (args : Args)
    (session : Session)
    (pipeline : Pipeline)
    {receiver : Traced R}
    (ready : after receiver.2 = some .ready) :
    let drained :=
      drainedBy host.traced limit level args session pipeline receiver
    match drained.1 with
    | .done =>
        after drained.2.2.2 = some .ready ∨
          after drained.2.2.2 = some (.spent .ended)
    | .broken _ => after drained.2.2.2 = some (.spent .failed)
    | .interrupted => after drained.2.2.2 = some .ready := by
  refine Rounds.drain_leaves host.traced.receiver.receive _ _ _ _
    (fun receiver : Traced R => after receiver.2 = some .ready)
    (fun receiver => after receiver.2 = some (.spent .ended))
    (fun receiver => after receiver.2 = some (.spent .failed)) ?_ ?_ limit 0
    _ ready
  · intro source item isItem isReady
    have isItem' : (host.receiver.receive source.1).1 = .ok item :=
      isItem
    simp only [Host.traced, IReceiver.traced]
    rw [after_append isReady, isItem']
    rfl
  · intro source code isCode isReady
    have isCode' : (host.receiver.receive source.1).1 = .error code :=
      isCode
    simp only [Host.traced, IReceiver.traced]
    rw [after_append isReady, isCode']
    cases code with
    | eof =>
        rfl
    | unknown =>
        rfl
    | openFailed =>
        rfl
    | recvFailed =>
        rfl
    | notOpen =>
        rfl

/-- Consuming packets makes no transports. -/
theorem transports_foldl_consume
    (level : LogLevel)
    (session : Session)
    (jsonOut : Bool)
    (packets : List (List UInt8))
    (state : Decoding S R) :
    let consumed :=
      packets.foldl
        (fun state pkt => Decoding.consume level session jsonOut pkt state)
        state
    consumed.out.sender = state.out.sender ∧
      consumed.out.receiver = state.out.receiver := by
  induction packets generalizing state with
  | nil =>
      exact ⟨rfl, rfl⟩
  | cons pkt rest inductionHypothesis =>
      exact inductionHypothesis _

/-- A receiver that was just made was not called. -/
theorem calls_makeReceiver
    {spec : String}
    {receiver : Traced R}
    (made : (makeReceiver host.traced spec).2 = some receiver) :
    receiver.2 = [] := by
  unfold makeReceiver at made
  split at made
  · cases made
  · cases made
  · cases made
    rfl

/-- Draining a receiver makes no sender. -/
theorem sender_drainedBy
    (host : Host G S R)
    (limit : Nat)
    (level : LogLevel)
    (args : Args)
    (session : Session)
    (pipeline : Pipeline)
    (receiver : R) :
    (drainedBy host limit level args session pipeline
      receiver).2.1.out.sender = none := by
  obtain ⟨received, ending, -, -, state, -⟩ :=
    Rounds.drain_accounted host.receiver.receive
      (fun code => decide (code = ReceiverErr.eof))
      (fun pkt => !pkt.isEmpty)
      (Decoding.consume (S := S) (R := R) level session
        (args.output = "json"))
      args.count.toNat limit receiver { pipeline := pipeline, out := {} }
  rw [drainedBy, state]
  exact (transports_foldl_consume level session _ _ _).1

section Received

variable {args : Args}
variable (noHex : args.hexInput = "")
variable {receiver : Traced R}
variable (made : (makeReceiver host.traced args.transport).2 = some receiver)
variable (limit : Nat)
variable (level : LogLevel)
variable (session : Session)
variable (pipeline : Pipeline)

include noHex made

/-- A receiver that opens concludes the run, which makes no sender. -/
theorem decode_concludes_of_opens
    (opens : (host.receiver.openReceiver receiver.1).1 = .ok ()) :
    let result := decode host.traced limit level args session pipeline
    result.2.sender = none ∧
      ∀ receiver, result.2.receiver = some receiver →
        ∃ phase,
          after receiver.2 = some phase ∧ phase.Concludes result.1 := by
  intro result
  have ready :
      after (host.traced.receiver.openReceiver receiver).2.2 =
        some .ready := by
    simp only [Host.traced, IReceiver.traced, calls_makeReceiver made, opens]
    rfl
  have left :=
    @drainedBy_concludes G S R host limit level args session pipeline _ ready
  have noSender :=
    sender_drainedBy host.traced limit level args session pipeline
      (host.traced.receiver.openReceiver receiver).2
  have isResult :=
    decode_of_opens noHex made opens limit level session pipeline
  simp only [result, isResult]
  generalize drainedBy host.traced limit level args session pipeline
    (host.traced.receiver.openReceiver receiver).2 = drained
    at left noSender ⊢
  dsimp only at left
  cases verdict : drained.1 with
  | done =>
      rw [verdict] at left
      refine ⟨noSender, fun later isLater => ?_⟩
      cases isLater
      rcases left with wasReady | hasEnded
      · exact ⟨.closed .done, after_append wasReady _, rfl⟩
      · exact ⟨.closed .ended, after_append hasEnded _, rfl⟩
  | broken counted =>
      rw [verdict] at left
      refine ⟨noSender, fun later isLater => ?_⟩
      cases isLater
      exact ⟨.closed .failed, after_append left _, rfl⟩
  | interrupted =>
      rw [verdict] at left
      refine ⟨noSender, fun later isLater => ?_⟩
      cases isLater
      exact ⟨.ready, left, rfl⟩

/-- So does one that does not open. -/
theorem decode_concludes_of_unopened
    (unopened : (host.receiver.openReceiver receiver.1).1 ≠ .ok ()) :
    let result := decode host.traced limit level args session pipeline
    result.2.sender = none ∧
      ∀ receiver, result.2.receiver = some receiver →
        ∃ phase,
          after receiver.2 = some phase ∧ phase.Concludes result.1 := by
  intro result
  have isResult :=
    decode_of_unopened noHex made unopened limit level session pipeline
  simp only [result, isResult]
  refine ⟨rfl, fun later isLater => ⟨.unopened, ?_, rfl⟩⟩
  cases isLater
  simp only [Host.traced, IReceiver.traced, calls_makeReceiver made]
  split
  next isOpened =>
    exact absurd isOpened unopened
  next =>
    rfl

end Received

/-- A decoding run makes no sender, and its receiver concludes it. -/
theorem decode_concludes
    (limit : Nat)
    (level : LogLevel)
    (args : Args)
    (session : Session)
    (pipeline : Pipeline) :
    let result := decode host.traced limit level args session pipeline
    result.2.sender = none ∧
      ∀ receiver, result.2.receiver = some receiver →
        ∃ phase,
          after receiver.2 = some phase ∧ phase.Concludes result.1 := by
  intro result
  by_cases given :
      args.hexInput ≠ "" ∨ (makeReceiver host.traced args.transport).2 = none
  · obtain ⟨noSender, noReceiver⟩ :=
      decode_of_unmade given limit level session pipeline
    refine ⟨noSender, fun receiver isReceiver => ?_⟩
    cases noReceiver.symm.trans isReceiver
  · obtain ⟨hexGiven, isMade⟩ := not_or.mp given
    have noHex := not_not.mp hexGiven
    obtain ⟨receiver, made⟩ := Option.ne_none_iff_exists'.mp isMade
    by_cases opens : (host.receiver.openReceiver receiver.1).1 = .ok ()
    · exact decode_concludes_of_opens noHex made limit level session pipeline
        opens
    · exact decode_concludes_of_unopened noHex made limit level session
        pipeline opens

end Decoding

/-- Without a pipeline a run makes no transport. -/
theorem main_cases
    (host : Host G S R)
    (limit : Nat)
    (arguments : List String) :
    ((main host limit arguments).2.sender = none ∧
        (main host limit arguments).2.receiver = none) ∨
      ∃ level args session pipeline,
        main host limit arguments =
          afterReading arguments
            (runPipeline host limit level args session pipeline) := by
  have validates
      (args : Args) :
      (validate host args).2.sender = none ∧
        (validate host args).2.receiver = none := by
    simp only [validate]
    split
    · exact ⟨rfl, rfl⟩
    · split
      · exact ⟨rfl, rfl⟩
      · exact ⟨rfl, rfl⟩
  have runs
      (level : LogLevel)
      (args : Args)
      (session : Session) :
      ((runSession host limit level args session).2.sender = none ∧
          (runSession host limit level args session).2.receiver = none) ∨
        ∃ pipeline,
          runSession host limit level args session =
            runPipeline host limit level args session pipeline := by
    rw [runSession]
    split
    · exact .inl ⟨rfl, rfl⟩
    · split
      · split
        · exact .inl ⟨rfl, rfl⟩
        · exact .inr ⟨_, rfl⟩
        · exact .inl ⟨rfl, rfl⟩
      · split
        · exact .inl ⟨rfl, rfl⟩
        · exact .inr ⟨_, rfl⟩
  rw [main]
  split
  · exact .inl ⟨rfl, rfl⟩
  · exact .inl ⟨rfl, rfl⟩
  · exact .inl ⟨rfl, rfl⟩
  · exact .inl ⟨rfl, rfl⟩
  next args _ =>
    rw [runArgs]
    split
    · exact .inl (validates args)
    · split
      · exact .inl ⟨rfl, rfl⟩
      next parser _ =>
        split
        · rcases runs _ args parser.session with neither | ⟨pipeline, run⟩
          · exact .inl neither
          · exact .inr ⟨_, args, parser.session, pipeline,
              congrArg (afterReading arguments) run⟩
        · exact .inl ⟨rfl, rfl⟩

/--
The program follows the protocol of its transports, whatever the arguments, the
files, the transports and the number of rounds are.  It makes a sender or a
receiver, but never both.  The calls of either are allowed in the phase that the
earlier calls led to, and the exit code is the conclusion of the last phase: no
transport is left open unless the run is interrupted, none is closed twice, and
none is used after a failure.
-/
theorem transports_follow_protocol
    {G S R : Type}
    (host : Host G S R)
    (limit : Nat)
    (arguments : List String) :
    let result := main host.traced limit arguments
    (∀ sender, result.2.sender = some sender →
        ∃ phase,
          after sender.2 = some phase ∧ phase.Concludes result.1) ∧
      (∀ receiver, result.2.receiver = some receiver →
        ∃ phase,
          after receiver.2 = some phase ∧ phase.Concludes result.1) ∧
      (result.2.sender = none ∨ result.2.receiver = none) := by
  intro result
  rcases main_cases host.traced limit arguments with
    ⟨noSender, noReceiver⟩ | ⟨level, args, session, pipeline, run⟩
  · refine ⟨fun sender isSender => ?_, fun receiver isReceiver => ?_,
      .inl noSender⟩
    · cases noSender.symm.trans isSender
    · cases noReceiver.symm.trans isReceiver
  · simp only [result, run, afterReading_fst, sender_afterReading,
      receiver_afterReading, runPipeline]
    by_cases decoding : args.decode = true
    · rw [if_pos decoding]
      obtain ⟨noSender, concludes⟩ :=
        @decode_concludes G S R host limit level args session pipeline
      refine ⟨fun sender isSender => ?_, concludes, .inl noSender⟩
      cases noSender.symm.trans isSender
    · rw [if_neg decoding]
      obtain ⟨noReceiver, concludes⟩ :=
        @generate_concludes G S R host level limit args session pipeline
      refine ⟨concludes, fun receiver isReceiver => ?_, .inr noReceiver⟩
      cases noReceiver.symm.trans isReceiver

end PacketGen

end TsnGen
