import TsnGen.VerilatorTransport

namespace TsnGen

/-!
# The SystemC bridge

`AxisBridge` as a machine that moves at rising clock edges.  Its two threads
keep their protocol state in where they wait; a program counter per `wait` and
per blocking read makes it explicit.  Ports hold what was last written to them,
and an edge samples the values from before it.

Packets enter the transmit queue between edges.  A thread that is blocked on
the empty queue is woken by the write itself, so it drives the first beat
before the next edge comes; a thread at a `wait` only moves at edges.
-/

/-- The signals of one AXI-Stream port. -/
structure AxisSignals where
  tvalid : Bool
  tdata : UInt64
  tkeep : UInt8
  tlast : Bool
  deriving Repr, DecidableEq

/-- The beat that signals carry. -/
def AxisSignals.beat
    (signals : AxisSignals) : AxiStreamBeat where
  tdata := signals.tdata
  tkeep := signals.tkeep
  tlast := if signals.tlast then 1 else 0

/-- The last beat of a packet is on the port. -/
def AxisSignals.endsPacket
    (signals : AxisSignals) : Bool :=
  signals.tvalid && signals.tlast

namespace AxisBridge

/-- Where the transmit thread waits. -/
inductive TxCounter where
  /-- At the `wait` behind the reset of the outputs. -/
  | start
  /-- In the blocking read of the queue. -/
  | reading
  /-- At the `wait` of a beat, with the bytes from this beat on. -/
  | beat (remaining : List UInt8)
  /-- At the `wait` of the idle cycle behind a packet. -/
  | idle
  deriving Repr, DecidableEq

/-- The transmit side: thread, master port and queue. -/
structure Tx where
  counter : TxCounter
  port : AxisSignals
  txFifo : List (List UInt8)
  deriving Repr, DecidableEq

/-- Packets that the queue holds. -/
def fifoDepth : Nat :=
  4

/-- The transmit side when the simulation starts. -/
def Tx.initial : Tx where
  counter := .start
  port := { tvalid := false, tdata := 0, tkeep := 0, tlast := false }
  txFifo := []

/--
The loop over the beats of a packet, up to the `wait` it stops at: the next beat
is driven, or the idle cycle starts.
-/
def Tx.sendFrom
    (remaining : List UInt8)
    (tx : Tx) : Tx :=
  if remaining.isEmpty then
    { tx with
      counter := .idle
      port := { tx.port with tvalid := false, tlast := false } }
  else
    let beat :=
      AxiStreamBeat.ofChunk (remaining.take AxiStreamBeat.tdataBytes)
        (remaining.length ≤ AxiStreamBeat.tdataBytes)
    { tx with
      counter := .beat remaining
      port :=
        { tvalid := true
          tdata := beat.tdata
          tkeep := beat.tkeep
          tlast := remaining.length ≤ AxiStreamBeat.tdataBytes } }

/-- The blocking read of the queue and what follows it. -/
def Tx.readFifo
    (tx : Tx) : Tx :=
  match tx.txFifo with
  | [] => { tx with counter := .reading }
  | packet :: rest => Tx.sendFrom packet { tx with txFifo := rest }

/-- A blocked read returns as soon as there is a packet. -/
def Tx.settle
    (tx : Tx) : Tx :=
  match tx.counter with
  | .reading => tx.readFifo
  | _ => tx

/-- What the thread does at a rising edge, with the sampled TREADY. -/
def Tx.edge
    (tready : Bool)
    (tx : Tx) : Tx :=
  match tx.counter with
  | .start => tx.readFifo
  | .reading => tx
  | .beat remaining =>
      if tready then
        Tx.sendFrom (remaining.drop AxiStreamBeat.tdataBytes) tx
      else
        tx
  | .idle => tx.readFifo

/-- `push_tx_packet`: whether the packet was accepted, and the queue. -/
def Tx.pushTxPacket
    (packet : List UInt8)
    (tx : Tx) : Bool × Tx :=
  if tx.txFifo.length < fifoDepth then
    (true, { tx with txFifo := tx.txFifo ++ [packet] })
  else
    (false, tx)

/-- What can happen to the transmit side. -/
inductive TxEvent where
  | push (packet : List UInt8)
  | settle
  | edge (tready : Bool)
  deriving Repr, DecidableEq

/-- The transmit side with what went in and what came out of it. -/
structure TxRun where
  tx : Tx
  pushed : List (List UInt8)
  transferred : List AxiStreamBeat
  deriving Repr, DecidableEq

/-- A run that has not started. -/
def TxRun.initial : TxRun where
  tx := Tx.initial
  pushed := []
  transferred := []

/-- The master port as an edge samples it: everything before has settled. -/
def TxRun.sampled
    (run : TxRun) : AxisSignals :=
  run.tx.settle.port

/-- The beat that an edge transfers, if it does. -/
def transfer
    (signals : AxisSignals)
    (tready : Bool) : List AxiStreamBeat :=
  if signals.tvalid && tready then [signals.beat] else []

/-- One event. -/
def TxRun.step
    (run : TxRun) :
    TxEvent → TxRun
  | .push packet =>
      let result := Tx.pushTxPacket packet run.tx
      { run with
        tx := result.2
        pushed := if result.1 then run.pushed ++ [packet] else run.pushed }
  | .settle => { run with tx := run.tx.settle }
  | .edge tready =>
      { run with
        tx := Tx.edge tready run.tx.settle
        transferred := run.transferred ++ transfer run.sampled tready }

/-- The run after a list of events. -/
def TxRun.after
    (events : List TxEvent) : TxRun :=
  events.foldl TxRun.step TxRun.initial

/-- Where the receive thread waits. -/
inductive RxCounter where
  /-- At the `wait` behind raising TREADY. -/
  | start
  /-- Waiting for the first beat of a packet. -/
  | packet
  /-- At the `wait` behind a beat, with its TLAST. -/
  | beat (bytes : List UInt8) (last : Bool)
  /-- Waiting for the next beat of a packet. -/
  | more (bytes : List UInt8)
  deriving Repr, DecidableEq

/-- Take a beat into a packet if there is one, else go on waiting. -/
def RxCounter.sample
    (bytes : List UInt8)
    (waiting : RxCounter)
    (signals : AxisSignals) : RxCounter :=
  if signals.tvalid then
    .beat (bytes ++ signals.beat.payload) signals.tlast
  else
    waiting

/--
What the receive thread does at a rising edge, with the sampled slave port: the
packet it hands to `on_rx`, if it does, and where it waits next.
-/
def rxEdge
    (signals : AxisSignals) :
    RxCounter → Option (List UInt8) × RxCounter
  | .start => (none, RxCounter.sample [] .packet signals)
  | .packet => (none, RxCounter.sample [] .packet signals)
  | .beat bytes true => (some bytes, RxCounter.sample [] .packet signals)
  | .beat bytes false =>
      (none, RxCounter.sample bytes (.more bytes) signals)
  | .more bytes => (none, RxCounter.sample bytes (.more bytes) signals)

/-- What is handed to `on_rx` at each edge of a waveform. -/
def rxOutputs
    (counter : RxCounter) :
    List AxisSignals → List (Option (List UInt8))
  | [] => []
  | signals :: later =>
      (rxEdge signals counter).1 ::
        rxOutputs (rxEdge signals counter).2 later

/-- Beats of accepted packets that were not transferred yet. -/
def Tx.outstanding
    (tx : Tx) : List AxiStreamBeat :=
  (match tx.counter with
    | .beat remaining => AxiStreamBeat.framing remaining
    | _ => []) ++
    tx.txFifo.flatMap AxiStreamBeat.framing

/--
The port shows what the thread waits for: the first beat of the remaining bytes
while it waits for one to be accepted, and nothing valid elsewhere.
-/
def Tx.Driven
    (tx : Tx) : Prop :=
  match tx.counter with
  | .beat remaining =>
      tx.port.tvalid = true ∧
        AxiStreamBeat.framing remaining =
          tx.port.beat :: AxiStreamBeat.framing (remaining.drop 8)
  | _ => tx.port.tvalid = false

theorem Tx.sendFrom_nil
    (tx : Tx) :
    Tx.sendFrom [] tx =
      { tx with
        counter := .idle
        port := { tx.port with tvalid := false, tlast := false } } :=
  rfl

/-- Driving a beat keeps the queue and shows the first of the beats. -/
theorem Tx.sendFrom_spec
    (remaining : List UInt8)
    (tx : Tx) :
    (Tx.sendFrom remaining tx).Driven ∧
      (Tx.sendFrom remaining tx).outstanding =
        AxiStreamBeat.framing remaining ++
          tx.txFifo.flatMap AxiStreamBeat.framing := by
  cases remaining with
  | nil =>
      rw [Tx.sendFrom_nil]
      simp [Tx.Driven, Tx.outstanding]
  | cons first rest =>
      refine ⟨⟨rfl, ?_⟩, rfl⟩
      rw [AxiStreamBeat.framing_cons]
      simp [Tx.sendFrom, AxisSignals.beat, AxiStreamBeat.ofChunk,
        AxiStreamBeat.tdataBytes]

/-- Reading the queue keeps all outstanding beats. -/
theorem Tx.readFifo_spec
    {tx : Tx}
    (quiet : tx.port.tvalid = false) :
    tx.readFifo.Driven ∧
      tx.readFifo.outstanding =
        tx.txFifo.flatMap AxiStreamBeat.framing := by
  unfold Tx.readFifo
  cases queue : tx.txFifo with
  | nil =>
      simp [Tx.Driven, Tx.outstanding, quiet]
  | cons packet rest =>
      exact Tx.sendFrom_spec packet { tx with txFifo := rest }

/-- A woken read keeps all outstanding beats. -/
theorem Tx.settle_spec
    {tx : Tx}
    (driven : tx.Driven) :
    tx.settle.Driven ∧ tx.settle.outstanding = tx.outstanding := by
  unfold Tx.settle
  cases counter : tx.counter with
  | reading =>
      have quiet : tx.port.tvalid = false := by
        simpa [Tx.Driven, counter] using driven
      obtain ⟨readDriven, readOutstanding⟩ := Tx.readFifo_spec quiet
      refine ⟨readDriven, ?_⟩
      simpa [Tx.outstanding, counter] using readOutstanding
  | start =>
      exact ⟨driven, rfl⟩
  | beat remaining =>
      exact ⟨driven, rfl⟩
  | idle =>
      exact ⟨driven, rfl⟩

/-- An edge takes off the outstanding beats what it transfers. -/
theorem Tx.edge_spec
    {tx : Tx}
    (driven : tx.Driven)
    (tready : Bool) :
    (Tx.edge tready tx).Driven ∧
      transfer tx.port tready ++ (Tx.edge tready tx).outstanding =
        tx.outstanding := by
  have betweenPackets
      (quiet : tx.port.tvalid = false)
      (queued :
        tx.outstanding = tx.txFifo.flatMap AxiStreamBeat.framing) :
      tx.readFifo.Driven ∧
        transfer tx.port tready ++ tx.readFifo.outstanding =
          tx.outstanding := by
    obtain ⟨readDriven, readOutstanding⟩ := Tx.readFifo_spec quiet
    refine ⟨readDriven, ?_⟩
    rw [readOutstanding, queued]
    simp [transfer, quiet]
  unfold Tx.edge
  cases counter : tx.counter with
  | start =>
      refine betweenPackets ?_ (by simp [Tx.outstanding, counter])
      simpa [Tx.Driven, counter] using driven
  | idle =>
      refine betweenPackets ?_ (by simp [Tx.outstanding, counter])
      simpa [Tx.Driven, counter] using driven
  | reading =>
      have quiet : tx.port.tvalid = false := by
        simpa [Tx.Driven, counter] using driven
      refine ⟨driven, ?_⟩
      simp [transfer, quiet]
  | beat remaining =>
      obtain ⟨valid, framed⟩ :
          tx.port.tvalid = true ∧
            AxiStreamBeat.framing remaining =
              tx.port.beat ::
                AxiStreamBeat.framing (remaining.drop 8) := by
        simpa [Tx.Driven, counter] using driven
      cases tready with
      | false =>
          refine ⟨driven, ?_⟩
          simp [transfer]
      | true =>
          obtain ⟨sentDriven, sentOutstanding⟩ :=
            Tx.sendFrom_spec (remaining.drop AxiStreamBeat.tdataBytes) tx
          refine ⟨sentDriven, ?_⟩
          dsimp only
          rw [if_pos rfl, sentOutstanding]
          simp [transfer, valid, Tx.outstanding, counter, framed,
            AxiStreamBeat.tdataBytes]

/-- A run neither loses nor invents a beat. -/
structure TxRun.Conserving
    (run : TxRun) : Prop where
  driven : run.tx.Driven
  conserved :
    run.transferred ++ run.tx.outstanding =
      run.pushed.flatMap AxiStreamBeat.framing

/-- Every event conserves the beats. -/
theorem TxRun.Conserving.step
    {run : TxRun}
    (conserving : run.Conserving)
    (event : TxEvent) :
    (run.step event).Conserving := by
  obtain ⟨driven, conserved⟩ := conserving
  cases event with
  | push packet =>
      unfold TxRun.step Tx.pushTxPacket
      by_cases free : run.tx.txFifo.length < fifoDepth
      · refine ⟨?_, ?_⟩
        · simpa [free, Tx.Driven] using driven
        · simp only [free, ↓reduceIte, List.flatMap_append,
            ← conserved]
          simp [Tx.outstanding]
      · refine ⟨?_, ?_⟩
        · simpa [free] using driven
        · simpa [free] using conserved
  | settle =>
      obtain ⟨settledDriven, settledOutstanding⟩ := Tx.settle_spec driven
      refine ⟨settledDriven, ?_⟩
      simp only [TxRun.step, settledOutstanding, conserved]
  | edge tready =>
      obtain ⟨settledDriven, settledOutstanding⟩ := Tx.settle_spec driven
      obtain ⟨movedDriven, moved⟩ := Tx.edge_spec settledDriven tready
      refine ⟨movedDriven, ?_⟩
      simp only [TxRun.step, TxRun.sampled]
      rw [List.append_assoc, moved, settledOutstanding, conserved]

/-- Whatever happens, the beats are conserved. -/
theorem TxRun.conserving_foldl
    {run : TxRun}
    (conserving : run.Conserving)
    (events : List TxEvent) :
    (events.foldl TxRun.step run).Conserving := by
  induction events generalizing run with
  | nil =>
      exact conserving
  | cons event later inductionHypothesis =>
      exact inductionHypothesis (conserving.step event)

theorem TxRun.conserving_after
    (events : List TxEvent) :
    (TxRun.after events).Conserving := by
  have fresh : TxRun.initial.Conserving := ⟨rfl, rfl⟩
  exact TxRun.conserving_foldl fresh events

/-- Nothing but an edge moves a thread that waits for a beat to be accepted. -/
theorem TxRun.held_between_edges
    {run : TxRun}
    {remaining : List UInt8}
    (waits : run.tx.counter = .beat remaining)
    {between : List TxEvent}
    (noEdge : ∀ event ∈ between, ∀ tready, event ≠ .edge tready) :
    (between.foldl TxRun.step run).sampled = run.tx.port := by
  induction between generalizing run with
  | nil =>
      simp [TxRun.sampled, Tx.settle, waits]
  | cons event later inductionHypothesis =>
      have laterNoEdge := fun other member =>
        noEdge other (List.mem_cons_of_mem event member)
      have held :
          (run.step event).tx.counter = .beat remaining ∧
            (run.step event).tx.port = run.tx.port := by
        cases event with
        | push packet =>
            unfold TxRun.step Tx.pushTxPacket
            by_cases free : run.tx.txFifo.length < fifoDepth
            · simp [free, waits]
            · simp [free, waits]
        | settle =>
            simp [TxRun.step, Tx.settle, waits]
        | edge tready =>
            exact absurd rfl (noEdge _ List.mem_cons_self tready)
      rw [List.foldl_cons, inductionHypothesis held.1 laterNoEdge, held.2]

/-- A beat that is not accepted is shown again at the next edge. -/
theorem TxRun.stable_under_backpressure
    {run : TxRun}
    (conserving : run.Conserving)
    (valid : run.sampled.tvalid = true)
    {between : List TxEvent}
    (noEdge : ∀ event ∈ between, ∀ tready, event ≠ .edge tready) :
    (between.foldl TxRun.step (run.step (.edge false))).sampled =
      run.sampled := by
  obtain ⟨settledDriven, -⟩ := Tx.settle_spec conserving.driven
  unfold TxRun.sampled at valid
  cases counter : run.tx.settle.counter with
  | beat remaining =>
      have stays : (run.step (.edge false)).tx = run.tx.settle := by
        simp [TxRun.step, Tx.edge, counter]
      have waits : (run.step (.edge false)).tx.counter = .beat remaining := by
        rw [stays, counter]
      rw [TxRun.held_between_edges waits noEdge, stays]
      rfl
  | start =>
      simp [Tx.Driven, counter, valid] at settledDriven
  | reading =>
      simp [Tx.Driven, counter, valid] at settledDriven
  | idle =>
      simp [Tx.Driven, counter, valid] at settledDriven

/-- The packets that beats make up, split behind the marked ones. -/
def reassemble
    (bytes : List UInt8) :
    List AxiStreamBeat → List (List UInt8)
  | [] => []
  | beat :: later =>
      if beat.tlast ≠ 0 then
        (bytes ++ beat.payload) :: reassemble [] later
      else
        reassemble (bytes ++ beat.payload) later

/-- The beats of a waveform: one for every edge with TVALID. -/
def validBeats
    (waveform : List AxisSignals) : List AxiStreamBeat :=
  (waveform.filter AxisSignals.tvalid).map AxisSignals.beat

/-- The packet that each edge of a waveform completes, if it does. -/
def completions
    (bytes : List UInt8) :
    List AxisSignals → List (Option (List UInt8))
  | [] => []
  | signals :: later =>
      if signals.tvalid then
        if signals.tlast then
          some (bytes ++ signals.beat.payload) :: completions [] later
        else
          none :: completions (bytes ++ signals.beat.payload) later
      else
        none :: completions bytes later

/-- The packet that one edge completes, if it does, and what it leaves begun. -/
def takenIn
    (bytes : List UInt8)
    (signals : AxisSignals) : Option (List UInt8) × List UInt8 :=
  if signals.tvalid then
    if signals.tlast then
      (some (bytes ++ signals.beat.payload), [])
    else
      (none, bytes ++ signals.beat.payload)
  else
    (none, bytes)

/-- One edge completes at most a packet and leaves what has begun behind. -/
theorem completions_cons
    (bytes : List UInt8)
    (signals : AxisSignals)
    (later : List AxisSignals) :
    completions bytes (signals :: later) =
      (takenIn bytes signals).1 ::
        completions (takenIn bytes signals).2 later := by
  rw [completions, takenIn]
  cases signals.tvalid with
  | false =>
      rfl
  | true =>
      cases signals.tlast with
      | false =>
          rfl
      | true =>
          rfl

/-- An edge completes a packet exactly when it samples a marked valid beat. -/
theorem isSome_takenIn
    (bytes : List UInt8)
    (signals : AxisSignals) :
    (takenIn bytes signals).1.isSome = signals.endsPacket := by
  unfold takenIn AxisSignals.endsPacket
  cases signals.tvalid with
  | false =>
      rfl
  | true =>
      cases signals.tlast with
      | false =>
          rfl
      | true =>
          rfl

/-- What the thread hands out at the next edge, and what it has begun. -/
def RxCounter.pending :
    RxCounter → Option (List UInt8) × List UInt8
  | .start => (none, [])
  | .packet => (none, [])
  | .beat bytes true => (some bytes, [])
  | .beat bytes false => (none, bytes)
  | .more bytes => (none, bytes)

/-- Sampling takes the beat of an edge in. -/
theorem pending_sample
    {waiting : RxCounter}
    {bytes : List UInt8}
    (isWaiting : waiting.pending = (none, bytes))
    (signals : AxisSignals) :
    (RxCounter.sample bytes waiting signals).pending =
      takenIn bytes signals := by
  unfold RxCounter.sample takenIn
  cases signals.tvalid with
  | false =>
      simpa using isWaiting
  | true =>
      cases signals.tlast with
      | false =>
          rfl
      | true =>
          rfl

/-- An edge hands out what is pending and takes the sampled beat in. -/
theorem rxEdge_spec
    (signals : AxisSignals)
    (counter : RxCounter)
    (later : List AxisSignals) :
    (rxEdge signals counter).1 = counter.pending.1 ∧
      completions counter.pending.2 (signals :: later) =
        (rxEdge signals counter).2.pending.1 ::
          completions (rxEdge signals counter).2.pending.2 later := by
  have sampled (bytes : List UInt8) (waiting : RxCounter)
      (isWaiting : waiting.pending = (none, bytes)) :
      completions bytes (signals :: later) =
        (RxCounter.sample bytes waiting signals).pending.1 ::
          completions (RxCounter.sample bytes waiting signals).pending.2
            later := by
    rw [completions_cons, pending_sample isWaiting]
  cases counter with
  | start =>
      exact ⟨rfl, sampled [] .packet rfl⟩
  | packet =>
      exact ⟨rfl, sampled [] .packet rfl⟩
  | beat bytes last =>
      cases last with
      | false =>
          exact ⟨rfl, sampled bytes (.more bytes) rfl⟩
      | true =>
          exact ⟨rfl, sampled [] .packet rfl⟩
  | more bytes =>
      exact ⟨rfl, sampled bytes (.more bytes) rfl⟩

/-- Packets are handed out one edge after they are complete. -/
theorem rxOutputs_eq
    (counter : RxCounter)
    (waveform : List AxisSignals) :
    rxOutputs counter waveform =
      (counter.pending.1 ::
        completions counter.pending.2 waveform).take waveform.length := by
  induction waveform generalizing counter with
  | nil =>
      rfl
  | cons signals later inductionHypothesis =>
      obtain ⟨handed, taken⟩ := rxEdge_spec signals counter later
      rw [rxOutputs, inductionHypothesis, handed, taken, List.length_cons,
        List.take_succ_cons]

/-- The completed packets are the reassembled beats. -/
theorem filterMap_completions
    (bytes : List UInt8)
    (waveform : List AxisSignals) :
    (completions bytes waveform).filterMap id =
      reassemble bytes (validBeats waveform) := by
  induction waveform generalizing bytes with
  | nil =>
      rfl
  | cons signals later inductionHypothesis =>
      rw [completions_cons]
      cases valid : signals.tvalid with
      | false =>
          simpa [takenIn, valid, validBeats] using inductionHypothesis bytes
      | true =>
          have beats :
              validBeats (signals :: later) =
                signals.beat :: validBeats later := by
            simp [validBeats, valid]
          rw [beats, reassemble]
          cases last : signals.tlast with
          | false =>
              simpa [takenIn, valid, AxisSignals.beat, last] using
                inductionHypothesis (bytes ++ signals.beat.payload)
          | true =>
              simpa [takenIn, valid, AxisSignals.beat, last] using
                inductionHypothesis []

theorem completions_take
    (bytes : List UInt8)
    (waveform : List AxisSignals)
    (count : Nat) :
    (completions bytes waveform).take count =
      completions bytes (waveform.take count) := by
  induction waveform generalizing bytes count with
  | nil =>
      simp [completions]
  | cons signals later inductionHypothesis =>
      cases count with
      | zero =>
          rfl
      | succ count =>
          rw [List.take_succ_cons, completions_cons, completions_cons,
            List.take_succ_cons, inductionHypothesis]

/-- The edges that complete a packet are those that end one. -/
theorem isSome_completions
    (bytes : List UInt8)
    (waveform : List AxisSignals) :
    (completions bytes waveform).map Option.isSome =
      waveform.map AxisSignals.endsPacket := by
  induction waveform generalizing bytes with
  | nil =>
      rfl
  | cons signals later inductionHypothesis =>
      rw [completions_cons, List.map_cons, List.map_cons, isSome_takenIn,
        inductionHypothesis]

/-- What `on_rx` gets is what the beats before the last edge make up. -/
theorem filterMap_rxOutputs
    (waveform : List AxisSignals) :
    (rxOutputs .start waveform).filterMap id =
      reassemble [] (validBeats waveform.dropLast) := by
  cases waveform with
  | nil =>
      rfl
  | cons signals later =>
      rw [rxOutputs_eq, List.length_cons, List.take_succ_cons,
        completions_take, List.dropLast_eq_take, List.length_cons,
        ← filterMap_completions]
      rfl

/-- A packet is handed out at the edge behind the one of its last beat. -/
theorem isSome_rxOutputs
    (waveform : List AxisSignals) :
    (rxOutputs .start waveform).map Option.isSome =
      (false :: waveform.map AxisSignals.endsPacket).dropLast := by
  rw [rxOutputs_eq, List.map_take, List.map_cons, isSome_completions,
    List.dropLast_eq_take]
  simp [RxCounter.pending]

/-- The beats of a packet are put together again. -/
theorem reassemble_framing_append
    {packet : List UInt8}
    (present : packet ≠ [])
    (bytes : List UInt8)
    (later : List AxiStreamBeat) :
    reassemble bytes (AxiStreamBeat.framing packet ++ later) =
      (bytes ++ packet) :: reassemble [] later := by
  induction packet, present using AxiStreamBeat.framing_induction
    generalizing bytes with
  | short packet present fits =>
      rw [AxiStreamBeat.framing_of_short present fits,
        List.singleton_append, reassemble,
        AxiStreamBeat.payload_ofChunk fits]
      simp [AxiStreamBeat.ofChunk]
  | long packet _ long _ inductionHypothesis =>
      have fits : (packet.take 8).length ≤ 8 := by
        rw [List.length_take]
        omega
      have unmarked :
          ¬ (AxiStreamBeat.ofChunk (packet.take 8) false).tlast ≠ 0 := by
        simp [AxiStreamBeat.ofChunk]
      rw [AxiStreamBeat.framing_of_long long, List.cons_append,
        reassemble, if_neg unmarked, AxiStreamBeat.payload_ofChunk fits,
        inductionHypothesis, List.append_assoc, List.take_append_drop]

/-- The beats of packets are put together to those that have any. -/
theorem reassemble_flatMap_framing
    (packets : List (List UInt8)) :
    reassemble [] (packets.flatMap AxiStreamBeat.framing) =
      nonEmpty packets := by
  induction packets with
  | nil =>
      rfl
  | cons packet rest inductionHypothesis =>
      rw [List.flatMap_cons]
      by_cases empty : packet = []
      · simpa [empty, nonEmpty] using inductionHypothesis
      · rw [reassemble_framing_append empty, inductionHypothesis]
        simp [nonEmpty, empty]

/-- More beats only add packets behind those there are. -/
theorem reassemble_isPrefix
    (bytes : List UInt8)
    (beats later : List AxiStreamBeat) :
    reassemble bytes beats <+: reassemble bytes (beats ++ later) := by
  induction beats generalizing bytes with
  | nil =>
      exact List.nil_prefix
  | cons beat rest inductionHypothesis =>
      rw [List.cons_append, reassemble, reassemble]
      by_cases last : beat.tlast ≠ 0
      · rw [if_pos last, if_pos last]
        exact List.cons_prefix_cons.mpr ⟨rfl, inductionHypothesis []⟩
      · rw [if_neg last, if_neg last]
        exact inductionHypothesis _

/--
Two bridges back to back: the packets that a receiver makes of the transferred
beats are the accepted ones in order, but for the empty ones and those still
under way.
-/
theorem link_delivers_in_order
    (events : List TxEvent) :
    reassemble [] (TxRun.after events).transferred <+:
      nonEmpty (TxRun.after events).pushed := by
  have conserved := (TxRun.conserving_after events).conserved
  rw [← reassemble_flatMap_framing, ← conserved]
  exact reassemble_isPrefix [] _ _

/--
The bridge under any backpressure.  What crossed the master port so far is a
prefix of the framings of the accepted packets, and a beat that meets a low
TREADY is shown again at the next edge.  On the slave port every valid beat goes
into one packet, and a packet is handed out one edge after its last beat.
-/
theorem bridge_keeps_beats
    (events : List TxEvent)
    (waveform : List AxisSignals) :
    ((TxRun.after events).transferred <+:
        (TxRun.after events).pushed.flatMap AxiStreamBeat.framing) ∧
      (∀ between : List TxEvent,
        (TxRun.after events).sampled.tvalid = true →
          (∀ event ∈ between, ∀ tready, event ≠ .edge tready) →
            (TxRun.after (events ++ .edge false :: between)).sampled =
              (TxRun.after events).sampled) ∧
      (rxOutputs .start waveform).filterMap id =
        reassemble [] (validBeats waveform.dropLast) ∧
      (rxOutputs .start waveform).map Option.isSome =
        (false :: waveform.map AxisSignals.endsPacket).dropLast := by
  have conserving := TxRun.conserving_after events
  refine ⟨⟨_, conserving.conserved⟩, ?_, filterMap_rxOutputs waveform,
    isSome_rxOutputs waveform⟩
  intro between valid noEdge
  have later :
      TxRun.after (events ++ .edge false :: between) =
        between.foldl TxRun.step
          ((TxRun.after events).step (.edge false)) := by
    simp [TxRun.after]
  rw [later]
  exact TxRun.stable_under_backpressure conserving valid noEdge

/-- The second beat of a packet of nine bytes meets a low TREADY. -/
theorem bridge_keeps_beats_stalled :
    (TxRun.after [.push [1, 2, 3, 4, 5, 6, 7, 8, 9], .edge true,
        .edge true]).sampled =
        { tvalid := true, tdata := 9, tkeep := 1, tlast := true } ∧
      (TxRun.after [.push [1, 2, 3, 4, 5, 6, 7, 8, 9], .edge true,
        .edge true, .edge false, .push [0]]).sampled =
        (TxRun.after [.push [1, 2, 3, 4, 5, 6, 7, 8, 9], .edge true,
          .edge true]).sampled :=
  ⟨by decide,
    (bridge_keeps_beats [.push [1, 2, 3, 4, 5, 6, 7, 8, 9], .edge true,
      .edge true] []).2.1 [.push [0]] (by decide) (by simp)⟩

end AxisBridge

end TsnGen
