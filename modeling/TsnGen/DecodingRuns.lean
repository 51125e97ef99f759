import TsnGen.Endpoints

namespace TsnGen.PacketGen

/-!
# Runs that decode

A decoding run prints one line for every packet that it received before the
first error, the empty packets aside, in order and until enough were counted.
Its exit code tells how receiving ended.
-/

/-- The lines printed for packets, one behind the other. -/
def decodedLines
    (session : Session)
    (jsonOut : Bool) :
    Pipeline → List (List UInt8) → List String
  | _, [] => []
  | pipeline, pkt :: rest =>
      let decoded := decodeLine session jsonOut pipeline pkt
      decoded.2.1 :: decodedLines session jsonOut decoded.2.2 rest

/-- Consuming packets prints their lines. -/
theorem stdout_foldl_consume
    (level : LogLevel)
    (session : Session)
    (jsonOut : Bool)
    (packets : List (List UInt8))
    (state : Decoding S R) :
    (packets.foldl
        (fun state pkt => Decoding.consume level session jsonOut pkt state)
        state).out.stdout =
      state.out.stdout ++
        decodedLines session jsonOut state.pipeline packets := by
  induction packets generalizing state with
  | nil =>
      simp [decodedLines]
  | cons pkt rest inductionHypothesis =>
      rw [List.foldl_cons, inductionHypothesis]
      simp [Decoding.consume, decodedLines, Output.print, Output.log]

section Decoding

variable {host : Host G S R}
variable {args : Args}
variable {receiver : R}

/-- What draining an opened receiver comes to. -/
def drainedBy
    (host : Host G S R)
    (limit : Nat)
    (level : LogLevel)
    (args : Args)
    (session : Session)
    (pipeline : Pipeline)
    (receiver : R) : Rounds.Ended × Decoding S R × R :=
  Rounds.drain host.receiver.receive
    (fun code => decide (code = ReceiverErr.eof))
    (fun pkt => !pkt.isEmpty)
    (Decoding.consume level session (args.output = "json"))
    args.count.toNat limit 0 receiver { pipeline := pipeline, out := {} }

/-- A decoding run on a receiver that opens drains it. -/
theorem decode_of_opens
    (noHex : args.hexInput = "")
    (made : (makeReceiver host args.transport).2 = some receiver)
    (opens : (host.receiver.openReceiver receiver).1 = .ok ())
    (limit : Nat)
    (level : LogLevel)
    (session : Session)
    (pipeline : Pipeline) :
    let drained :=
      drainedBy host limit level args session pipeline
        (host.receiver.openReceiver receiver).2
    decode host limit level args session pipeline =
      match drained.1 with
      | .done =>
          (.code 0,
            { drained.2.1.out with
              receiver := some (host.receiver.close drained.2.2) })
      | .broken counted =>
          (.code 2,
            ({ drained.2.1.out with
              receiver := some (host.receiver.close drained.2.2) }).say
              ["Receive error on packet " ++ toString counted])
      | .interrupted =>
          (.interrupted,
            { drained.2.1.out with receiver := some drained.2.2 }) := by
  simp only [decode, noHex, ne_eq, not_true_eq_false, ↓reduceIte, made, opens]
  rfl

/-- Draining decides the lines and the exit code of a decoding run. -/
theorem lines_of_opens
    (noHex : args.hexInput = "")
    (made : (makeReceiver host args.transport).2 = some receiver)
    (opens : (host.receiver.openReceiver receiver).1 = .ok ())
    (limit : Nat)
    (level : LogLevel)
    (session : Session)
    (pipeline : Pipeline) :
    let drained :=
      drainedBy host limit level args session pipeline
        (host.receiver.openReceiver receiver).2
    let result := decode host limit level args session pipeline
    result.2.stdout = drained.2.1.out.stdout ∧
      result.1 =
        match drained.1 with
        | .done => .code 0
        | .broken _ => .code 2
        | .interrupted => .interrupted := by
  intro drained result
  have isResult :=
    decode_of_opens noHex made opens limit level session pipeline
  simp only [result, isResult]
  cases drained.1 with
  | done =>
      exact ⟨rfl, rfl⟩
  | broken counted =>
      exact ⟨rfl, rfl⟩
  | interrupted =>
      exact ⟨rfl, rfl⟩

/-- A receiver that cannot be opened ends the run. -/
theorem decode_of_unopened
    (noHex : args.hexInput = "")
    (made : (makeReceiver host args.transport).2 = some receiver)
    (unopened : (host.receiver.openReceiver receiver).1 ≠ .ok ())
    (limit : Nat)
    (level : LogLevel)
    (session : Session)
    (pipeline : Pipeline) :
    decode host limit level args session pipeline =
      (.code 2,
        ({ receiver := some (host.receiver.openReceiver receiver).2 } :
          Output S R).say
          ["Failed to open receiver: " ++ args.transport]) := by
  cases opened : (host.receiver.openReceiver receiver).1 with
  | error code =>
      simp [decode, noHex, made, opened]
  | ok nothing =>
      exact absurd opened unopened

/-- Without a receiver to read from, the run ends without transports. -/
theorem decode_of_unmade
    (given :
      args.hexInput ≠ "" ∨ (makeReceiver host args.transport).2 = none)
    (limit : Nat)
    (level : LogLevel)
    (session : Session)
    (pipeline : Pipeline) :
    let result := decode host limit level args session pipeline
    result.2.sender = none ∧ result.2.receiver = none := by
  intro result
  by_cases isHex : args.hexInput ≠ ""
  · by_cases read : (Session.fromHex args.hexInput []).1 = true
    · simp [result, decode, isHex, read, Decoding.consume, Output.print,
        Output.log]
    · simp [result, decode, isHex, read, Output.say]
  · have unmade := given.resolve_left isHex
    simp only [ne_eq, not_not] at isHex
    simp [result, decode, isHex, unmade, Output.say]

/-- A receiver that yields packets and then ends is decoded of them. -/
theorem decode_of_yields
    (noHex : args.hexInput = "")
    (made : (makeReceiver host args.transport).2 = some receiver)
    (opens : (host.receiver.openReceiver receiver).1 = .ok ())
    {packets : List (List UInt8)}
    (yields :
      ∀ calls,
        FramedStream.receiveTimes host.receiver.receive calls
            (host.receiver.openReceiver receiver).2 =
          (packets.map Except.ok ++
            List.replicate calls (Except.error ReceiverErr.eof)).take calls)
    {limit : Nat}
    (enough : packets.length < limit)
    (level : LogLevel)
    (session : Session)
    (pipeline : Pipeline) :
    let result := decode host limit level args session pipeline
    result.1 = .code 0 ∧
      result.2.stdout =
        decodedLines session (args.output = "json") pipeline
          (Rounds.consumed (fun pkt => !pkt.isEmpty) args.count.toNat
            packets) := by
  obtain ⟨lines, exit⟩ :=
    lines_of_opens noHex made opens limit level session pipeline
  obtain ⟨verdict, state⟩ :=
    Rounds.drain_eq host.receiver.receive
      (fun code => decide (code = ReceiverErr.eof))
      (fun pkt => !pkt.isEmpty)
      (Decoding.consume (S := S) (R := R) level session
        (args.output = "json"))
      args.count.toNat (decide_eq_true rfl) enough yields
      { pipeline := pipeline, out := {} }
  rw [drainedBy] at lines exit
  refine ⟨exit.trans ?_, lines.trans ?_⟩
  · rw [verdict]
  · rw [state, stdout_foldl_consume, List.nil_append]

end Decoding

/-- A receiver that answers what it was given, and then ends. -/
def scripted : IReceiver (List (Except ReceiverErr (List UInt8))) where
  openReceiver script := (.ok (), script)
  receive script := (script.headD (.error .eof), script.tail)
  close script := script

/-- A host whose receivers yield a packet and nothing, and then fail. -/
def failingHost :
    Host Unit Handed (List (Except ReceiverErr (List UInt8))) :=
  soleHost TrafficGenerator.everySecond scripted (fun _ _ => [])
    fun _ _ => [.ok [0x22, 0xF0], .ok [], .error .recvFailed]

end TsnGen.PacketGen
