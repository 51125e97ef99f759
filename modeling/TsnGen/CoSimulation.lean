import TsnGen.AxisBridge

namespace TsnGen

/-!
# The co-simulation

A network device of the simulator in front of the bridge.  Sending pushes into
the transmit queue; a packet that the receive thread completes is not delivered
at once but scheduled, and the simulator runs what is scheduled in order.

The device under test is whatever drives the two ports of the bridge: an edge
comes with the TREADY and the slave port that it samples.  Sends, edges,
deliveries and registrations may come in any order.
-/

open AxisBridge

/-- A packet of the simulator, whose size is a number of 32 bits. -/
structure Packet where
  bytes : List UInt8
  bounded : bytes.length < 2 ^ 32
  deriving Repr, DecidableEq

namespace Packet

/-- `Create` from a buffer whose size is cast to 32 bits. -/
def create
    (buffer : List UInt8) : Packet where
  bytes := buffer.take (buffer.length % 2 ^ 32)
  bounded :=
    lt_of_le_of_lt (List.length_take_le _ _) (Nat.mod_lt _ (by decide))

/-- A packet is created again from its bytes. -/
@[simp] theorem create_bytes
    (packet : Packet) :
    create packet.bytes = packet := by
  obtain ⟨bytes, bounded⟩ := packet
  have whole : bytes.take (bytes.length % 2 ^ 32) = bytes := by
    rw [Nat.mod_eq_of_lt bounded, List.take_length]
  simp only [create, whole]

end Packet

/-- The device, and the deliveries that the simulator has scheduled for it. -/
structure VerilatorNetDevice where
  /-- Whether the bridge's `on_rx` is registered. -/
  onRx : Bool
  /-- Whether `m_rxCallback` is set. -/
  rxCallback : Bool
  scheduled : List (List UInt8)
  deriving Repr, DecidableEq

namespace VerilatorNetDevice

/-- A device that nothing is registered at. -/
def fresh : VerilatorNetDevice where
  onRx := false
  rxCallback := false
  scheduled := []

/-- `SetupRx`: register at the bridge. -/
def setupRx
    (device : VerilatorNetDevice) : VerilatorNetDevice :=
  { device with onRx := true }

/-- `SetReceiveCallback`; the callback may be a null one. -/
def setReceiveCallback
    (present : Bool)
    (device : VerilatorNetDevice) : VerilatorNetDevice :=
  { device with rxCallback := present }

/-- `Send`, which `SendFrom` calls: whether it was accepted, and a warning. -/
def send
    (packet : Packet)
    (tx : Tx) : Bool × List String × Tx :=
  let pushed := Tx.pushTxPacket packet.bytes tx
  if pushed.1 then
    (true, [], pushed.2)
  else
    (false, ["VerilatorNetDevice: TX FIFO full, packet dropped"], pushed.2)

/-- The bridge hands a packet out, if anything is registered there. -/
def handOut
    (bytes : List UInt8)
    (device : VerilatorNetDevice) : VerilatorNetDevice :=
  if device.onRx then
    { device with scheduled := device.scheduled ++ [bytes] }
  else
    device

/-- `DeliverPacket`: what the callback gets. -/
def deliverPacket
    (bytes : List UInt8)
    (device : VerilatorNetDevice) : List Packet :=
  if device.rxCallback then [Packet.create bytes] else []

end VerilatorNetDevice

namespace CoSimulation

/-- What can happen next. -/
inductive Event where
  | setupRx
  | setReceiveCallback (present : Bool)
  | send (packet : Packet)
  | settle
  /-- A rising edge, with what the device under test drives. -/
  | edge (tready : Bool) (slave : AxisSignals)
  /-- The simulator runs the first scheduled delivery. -/
  | deliver
  deriving Repr, DecidableEq

/-- The system, and what has crossed its boundaries. -/
structure Run where
  device : VerilatorNetDevice
  tx : TxRun
  rx : RxCounter
  accepted : List Packet
  waveform : List AxisSignals
  handed : List (List UInt8)
  delivered : List Packet

namespace Run

/-- A system before the simulation starts. -/
def initial : Run where
  device := .fresh
  tx := .initial
  rx := .start
  accepted := []
  waveform := []
  handed := []
  delivered := []

variable (run : Run)

/-- The simulator sends a packet. -/
def send
    (packet : Packet) : Run :=
  let sent := VerilatorNetDevice.send packet run.tx.tx
  { run with
    tx :=
      { run.tx with
        tx := sent.2.2
        pushed :=
          if sent.1 then run.tx.pushed ++ [packet.bytes] else run.tx.pushed }
    accepted :=
      if sent.1 then run.accepted ++ [packet] else run.accepted }

/-- An edge moves both threads of the bridge. -/
def edge
    (tready : Bool)
    (slave : AxisSignals) : Run :=
  let sampled := rxEdge slave run.rx
  { run with
    device :=
      sampled.1.toList.foldl (fun device bytes => device.handOut bytes)
        run.device
    tx := run.tx.step (.edge tready)
    rx := sampled.2
    waveform := run.waveform ++ [slave]
    handed := run.handed ++ sampled.1.toList }

/-- The simulator runs what was scheduled first. -/
def deliver : Run :=
  match run.device.scheduled with
  | [] => run
  | bytes :: rest =>
      { run with
        device := { run.device with scheduled := rest }
        delivered := run.delivered ++ run.device.deliverPacket bytes }

/-- One event. -/
def step : Event → Run
  | .setupRx => { run with device := run.device.setupRx }
  | .setReceiveCallback present =>
      { run with device := run.device.setReceiveCallback present }
  | .send packet => run.send packet
  | .settle => { run with tx := run.tx.step .settle }
  | .edge tready slave => run.edge tready slave
  | .deliver => run.deliver

/-- The system after events. -/
def after
    (events : List Event) : Run :=
  events.foldl step initial

variable {run : Run}

/-- Where the receive thread waits behind a waveform. -/
def rxAfter
    (waveform : List AxisSignals) : RxCounter :=
  waveform.foldl (fun counter signals => (rxEdge signals counter).2) .start

/-- A further edge hands out what its counter says. -/
theorem rxOutputs_append
    (counter : RxCounter)
    (waveform : List AxisSignals)
    (signals : AxisSignals) :
    rxOutputs counter (waveform ++ [signals]) =
      rxOutputs counter waveform ++
        [(rxEdge signals
          (waveform.foldl (fun counter signals => (rxEdge signals counter).2)
            counter)).1] := by
  induction waveform generalizing counter with
  | nil =>
      rfl
  | cons first rest inductionHypothesis =>
      simp only [List.cons_append, rxOutputs, List.foldl_cons,
        inductionHypothesis]

/-- Sending pushes the packet's bytes. -/
theorem send_tx
    (packet : Packet) :
    (run.send packet).tx = run.tx.step (.push packet.bytes) ∧
      (run.send packet).accepted =
        (if (Tx.pushTxPacket packet.bytes run.tx.tx).1 then
          run.accepted ++ [packet]
        else
          run.accepted) := by
  simp only [Run.send, VerilatorNetDevice.send, TxRun.step]
  by_cases free : (Tx.pushTxPacket packet.bytes run.tx.tx).1 = true
  · simp only [free, ↓reduceIte, and_self]
  · simp only [free, Bool.false_eq_true, ↓reduceIte, and_self]

/--
What holds in every state: the bridge conserves the beats of the accepted
packets and hands out what the sampled beats make up, and what is delivered and
scheduled was handed out before, in this order and each once.
-/
structure Accounted
    (run : Run) : Prop where
  bridge : run.tx.Conserving
  accepted : run.tx.pushed = run.accepted.map Packet.bytes
  rx : run.rx = rxAfter run.waveform
  handed : run.handed = (rxOutputs .start run.waveform).filterMap id
  delivered :
    (run.delivered ++ run.device.scheduled.map Packet.create).Sublist
      (run.handed.map Packet.create)

/-- The device is registered, and nothing that was handed out is missing. -/
structure Registered
    (run : Run) : Prop where
  onRx : run.device.onRx = true
  rxCallback : run.device.rxCallback = true
  delivered :
    run.delivered ++ run.device.scheduled.map Packet.create =
      run.handed.map Packet.create

/-- Nothing has happened before the start. -/
theorem accounted_initial :
    Run.initial.Accounted where
  bridge := TxRun.conserving_after []
  accepted := rfl
  rx := rfl
  handed := rfl
  delivered := List.Sublist.refl []

/-- A sent packet changes the transmit side only. -/
theorem Accounted.send
    (accounted : run.Accounted)
    (packet : Packet) :
    (run.send packet).Accounted where
  bridge := by
    rw [(send_tx packet).1]
    exact accounted.bridge.step _
  accepted := by
    rw [(send_tx packet).1, (send_tx packet).2]
    simp only [TxRun.step]
    split
    · rw [List.map_append, ← accounted.accepted]
      rfl
    · exact accounted.accepted
  rx := accounted.rx
  handed := accounted.handed
  delivered := accounted.delivered

/-- What an edge hands out is scheduled, if the device is registered. -/
theorem scheduled_edge
    (tready : Bool)
    (slave : AxisSignals) :
    (run.edge tready slave).device.onRx = run.device.onRx ∧
      (run.edge tready slave).device.rxCallback = run.device.rxCallback ∧
      (run.edge tready slave).device.scheduled =
        run.device.scheduled ++
          (if run.device.onRx then (rxEdge slave run.rx).1.toList else []) := by
  simp only [Run.edge]
  cases (rxEdge slave run.rx).1 with
  | none =>
      simp
  | some bytes =>
      by_cases registered : run.device.onRx = true
      · simp [VerilatorNetDevice.handOut, registered]
      · simp [VerilatorNetDevice.handOut, registered]

/-- An edge hands out what the waveform makes up so far. -/
theorem handed_edge
    (accounted : run.Accounted)
    (tready : Bool)
    (slave : AxisSignals) :
    (run.edge tready slave).handed =
      (rxOutputs .start (run.waveform ++ [slave])).filterMap id := by
  rw [rxOutputs_append, List.filterMap_append, ← accounted.handed]
  have counter : run.rx = rxAfter run.waveform := accounted.rx
  simp only [Run.edge, counter, rxAfter]
  cases (rxEdge slave _).1 with
  | none =>
      rfl
  | some bytes =>
      rfl

/-- An edge keeps the account. -/
theorem Accounted.edge
    (accounted : run.Accounted)
    (tready : Bool)
    (slave : AxisSignals) :
    (run.edge tready slave).Accounted where
  bridge := accounted.bridge.step (.edge tready)
  accepted := accounted.accepted
  rx := by
    simp only [Run.edge, accounted.rx, rxAfter, List.foldl_append,
      List.foldl_cons, List.foldl_nil]
  handed := handed_edge accounted tready slave
  delivered := by
    rw [(scheduled_edge tready slave).2.2]
    simp only [Run.edge, List.map_append, ← List.append_assoc]
    refine accounted.delivered.append ?_
    split
    · exact List.Sublist.refl _
    · exact List.nil_sublist _

/-- A delivery takes off the schedule what it may deliver. -/
theorem Accounted.deliver
    (accounted : run.Accounted) :
    run.deliver.Accounted := by
  obtain ⟨bridge, accepted, rx, handed, delivered⟩ := accounted
  rw [Run.deliver]
  cases scheduled : run.device.scheduled with
  | nil =>
      exact ⟨bridge, accepted, rx, handed, delivered⟩
  | cons bytes rest =>
      refine ⟨bridge, accepted, rx, handed, ?_⟩
      rw [scheduled, List.map_cons, List.append_cons] at delivered
      refine ((List.Sublist.refl _).append ?_ |>.append_right _).trans delivered
      rw [VerilatorNetDevice.deliverPacket]
      split
      · exact List.Sublist.refl _
      · exact List.nil_sublist _

/-- Every event keeps the account. -/
theorem Accounted.step
    (accounted : run.Accounted)
    (event : Event) :
    (run.step event).Accounted := by
  cases event with
  | setupRx =>
      exact { accounted with }
  | setReceiveCallback present =>
      exact { accounted with }
  | send packet =>
      exact accounted.send packet
  | settle =>
      exact { accounted with bridge := accounted.bridge.step .settle }
  | edge tready slave =>
      exact accounted.edge tready slave
  | deliver =>
      exact accounted.deliver

/-- Whatever happens, the account is kept. -/
theorem accounted_foldl
    (accounted : run.Accounted)
    (events : List Event) :
    (events.foldl Run.step run).Accounted := by
  induction events generalizing run with
  | nil =>
      exact accounted
  | cons event later inductionHypothesis =>
      exact inductionHypothesis (accounted.step event)

theorem accounted_after
    (events : List Event) :
    (Run.after events).Accounted :=
  accounted_foldl accounted_initial events

/-- A registered device stays registered unless its callback is taken away. -/
theorem Registered.step
    (registered : run.Registered)
    {event : Event}
    (keeps : event ≠ .setReceiveCallback false) :
    (run.step event).Registered := by
  obtain ⟨onRx, rxCallback, delivered⟩ := registered
  cases event with
  | setupRx =>
      exact ⟨rfl, rxCallback, delivered⟩
  | setReceiveCallback present =>
      cases present with
      | false =>
          exact absurd rfl keeps
      | true =>
          exact ⟨onRx, rfl, delivered⟩
  | send packet =>
      exact ⟨onRx, rxCallback, delivered⟩
  | settle =>
      exact ⟨onRx, rxCallback, delivered⟩
  | edge tready slave =>
      obtain ⟨sameOnRx, sameCallback, scheduled⟩ :=
        @scheduled_edge run tready slave
      refine ⟨sameOnRx.trans onRx, sameCallback.trans rxCallback, ?_⟩
      rw [Run.step, scheduled, onRx, if_pos rfl, List.map_append,
        ← List.append_assoc]
      simp only [Run.edge, delivered, List.map_append]
  | deliver =>
      rw [Run.step, Run.deliver]
      cases scheduled : run.device.scheduled with
      | nil =>
          exact ⟨onRx, rxCallback, delivered⟩
      | cons bytes rest =>
          refine ⟨onRx, rxCallback, ?_⟩
          rw [scheduled, List.map_cons, List.append_cons] at delivered
          simpa only [VerilatorNetDevice.deliverPacket, rxCallback, if_true]
            using delivered

theorem registered_foldl
    (registered : run.Registered)
    {events : List Event}
    (keeps : .setReceiveCallback false ∉ events) :
    (events.foldl Run.step run).Registered := by
  induction events generalizing run with
  | nil =>
      exact registered
  | cons event later inductionHypothesis =>
      rw [List.mem_cons, not_or] at keeps
      exact inductionHypothesis (registered.step (Ne.symm keeps.1)) keeps.2

/-- Registered before anything else, the device stays so. -/
theorem registered_after
    {later : List Event}
    (keeps : .setReceiveCallback false ∉ later) :
    (Run.after
      (.setupRx :: .setReceiveCallback true :: later)).Registered := by
  have start :
      ((Run.initial.step .setupRx).step
        (.setReceiveCallback true)).Registered :=
    ⟨rfl, rfl, rfl⟩
  exact registered_foldl start keeps

end Run

/-- The packets that the beats before the last edge make up. -/
def packetsOf
    (waveform : List AxisSignals) : List Packet :=
  (reassemble [] (validBeats waveform.dropLast)).map Packet.create

/-- What was handed out is what the waveform makes up. -/
theorem map_handed
    {run : Run}
    (accounted : run.Accounted) :
    run.handed.map Packet.create = packetsOf run.waveform := by
  rw [accounted.handed, filterMap_rxOutputs, packetsOf]

section Sample

/-- A packet of nine bytes, which takes two beats. -/
def nineBytes : Packet where
  bytes := [1, 2, 3, 4, 5, 6, 7, 8, 9]
  bounded := by decide

/-- A slave port with nothing on it. -/
def idlePort : AxisSignals where
  tvalid := false
  tdata := 0
  tkeep := 0
  tlast := false

/-- The second beat of the packet on a port. -/
def secondBeat : AxisSignals where
  tvalid := true
  tdata := 9
  tkeep := 1
  tlast := true

/-- The first beat of the packet on a port. -/
def firstBeat : AxisSignals where
  tvalid := true
  tdata := 0x0807060504030201
  tkeep := 0xFF
  tlast := false

/-- A device that hands every beat on, and stalls on the second one. -/
def stalledEvents : List Event :=
  [.send nineBytes, .edge true idlePort, .edge true firstBeat,
    .edge false idlePort, .edge true secondBeat, .edge true idlePort,
    .deliver]

end Sample

/--
Any device under test, and events in any order.  The callback gets packets that
the device's beats make up, in their order and each at most once.  If the device
and the callback are registered before anything else and stay so, it gets every
one of them, but for those whose delivery is still scheduled.
-/
theorem device_packets_delivered
    (events : List Event) :
    (Run.after events).delivered.Sublist
        (packetsOf (Run.after events).waveform) ∧
      ∀ later,
        events = .setupRx :: .setReceiveCallback true :: later →
        .setReceiveCallback false ∉ later →
          (Run.after events).delivered ++
              (Run.after events).device.scheduled.map Packet.create =
            packetsOf (Run.after events).waveform := by
  have accounted := Run.accounted_after events
  rw [← map_handed accounted]
  refine ⟨(List.sublist_append_left _ _).trans accounted.delivered, ?_⟩
  intro later isFirst keeps
  subst isFirst
  exact (Run.registered_after keeps).delivered

theorem device_packets_delivered_stalled :
    let run :=
      Run.after (.setupRx :: .setReceiveCallback true :: stalledEvents)
    run.delivered ++ run.device.scheduled.map Packet.create =
        packetsOf run.waveform ∧
      run.delivered = [nineBytes] :=
  ⟨(device_packets_delivered _).2 stalledEvents rfl (by decide),
    by decide +kernel⟩

/-- The device under test has put out a first part of the beats it took in. -/
def Forwards
    (run : Run) : Prop :=
  validBeats run.waveform <+: run.tx.transferred

/-- Packets that have any bytes. -/
def present
    (packets : List Packet) : List Packet :=
  packets.filter fun packet => !packet.bytes.isEmpty

/-- Packets are created again from the bytes of those that have any. -/
theorem map_create_nonEmpty
    (packets : List Packet) :
    (nonEmpty (packets.map Packet.bytes)).map Packet.create =
      present packets := by
  rw [nonEmpty, List.filter_map, List.map_map]
  have same : Packet.create ∘ Packet.bytes = id :=
    funext Packet.create_bytes
  rw [same, List.map_id]
  rfl

/-- The beats of all accepted packets are put together to those packets. -/
theorem packets_of_accepted
    {run : Run}
    (accounted : run.Accounted) :
    (reassemble []
        (run.tx.pushed.flatMap AxiStreamBeat.framing)).map Packet.create =
      present run.accepted := by
  rw [reassemble_flatMap_framing, accounted.accepted, map_create_nonEmpty]

/-- Fewer beats make up the first of the packets. -/
theorem reassemble_of_isPrefix
    {beats more : List AxiStreamBeat}
    (initial : beats <+: more) :
    (reassemble [] beats).map Packet.create <+:
      (reassemble [] more).map Packet.create := by
  obtain ⟨later, rfl⟩ := initial
  exact (reassemble_isPrefix [] beats later).map _

/-- A forwarding device makes up the first of the accepted packets. -/
theorem packetsOf_isPrefix
    {run : Run}
    (accounted : run.Accounted)
    (forwards : Forwards run) :
    packetsOf run.waveform <+: present run.accepted := by
  have sampled :
      validBeats run.waveform.dropLast <+: validBeats run.waveform :=
    ((List.dropLast_prefix run.waveform).filter _).map _
  have transferred :
      run.tx.transferred <+: run.tx.pushed.flatMap AxiStreamBeat.framing :=
    ⟨_, accounted.bridge.conserved⟩
  rw [← packets_of_accepted accounted]
  exact reassemble_of_isPrefix ((sampled.trans forwards).trans transferred)

/-- Nothing is under way in the bridge, the device and the simulator. -/
structure AtRest
    (run : Run) : Prop where
  bridge : run.tx.tx.outstanding = []
  device : validBeats run.waveform.dropLast = run.tx.transferred
  simulator : run.device.scheduled = []

/--
A device that forwards beats in order, between a registered network device and
itself.  Whatever the backpressure and the order of sends, edges and deliveries,
the callback gets the first of the accepted packets that have any bytes, in
their order, unchanged and each once; when nothing is under way, all of them.
-/
theorem accepted_packets_come_back
    {later : List Event}
    (keeps : .setReceiveCallback false ∉ later)
    (forwards :
      Forwards
        (Run.after (.setupRx :: .setReceiveCallback true :: later))) :
    let run := Run.after (.setupRx :: .setReceiveCallback true :: later)
    run.delivered <+: present run.accepted ∧
      (AtRest run → run.delivered = present run.accepted) := by
  intro run
  have accounted : run.Accounted := Run.accounted_after _
  have delivered := (Run.registered_after keeps).delivered
  rw [map_handed accounted] at delivered
  refine ⟨?_, fun rest => ?_⟩
  · have initial : run.delivered <+: packetsOf run.waveform :=
      ⟨_, delivered⟩
    exact initial.trans (packetsOf_isPrefix accounted forwards)
  · have conserved := accounted.bridge.conserved
    rw [rest.bridge, List.append_nil] at conserved
    rw [rest.simulator, List.map_nil, List.append_nil] at delivered
    rw [delivered, packetsOf, rest.device, conserved,
      packets_of_accepted accounted]

theorem accepted_packets_come_back_stalled :
    (Run.after
        (.setupRx :: .setReceiveCallback true :: stalledEvents)).delivered =
      [nineBytes] := by
  have back :=
    accepted_packets_come_back (show .setReceiveCallback false ∉ stalledEvents
      by decide) (by unfold Forwards; decide +kernel)
  have rest :
      AtRest
        (Run.after
          (.setupRx :: .setReceiveCallback true :: stalledEvents)) :=
    ⟨by decide +kernel, by decide +kernel, by decide +kernel⟩
  rw [back.2 rest]
  decide +kernel

section Backlog

/--
The edges with a high TREADY that it takes until everything has crossed the
port: one a beat, and one for each packet that is not through, or for the start.
-/
def edgesLeft
    (tx : Tx) : Nat :=
  tx.outstanding.length + tx.txFifo.length +
    (if tx.counter = .reading then 0 else 1)

/-- Driving a beat leaves a thread that waits for an edge. -/
theorem edgesLeft_sendFrom
    (remaining : List UInt8)
    (tx : Tx) :
    edgesLeft (Tx.sendFrom remaining tx) =
      (AxiStreamBeat.framing remaining).length +
        (tx.txFifo.flatMap AxiStreamBeat.framing).length +
          (tx.txFifo.length + 1) := by
  have moved :
      (Tx.sendFrom remaining tx).counter ≠ .reading ∧
        (Tx.sendFrom remaining tx).txFifo = tx.txFifo := by
    cases remaining with
    | nil =>
        exact ⟨by simp [Tx.sendFrom_nil], rfl⟩
    | cons first rest =>
        exact ⟨by simp [Tx.sendFrom], rfl⟩
  rw [edgesLeft, (Tx.sendFrom_spec remaining tx).2, moved.2, if_neg moved.1,
    List.length_append, Nat.add_assoc]

/-- Reading takes no edge, and blocks only if nothing is left. -/
theorem edgesLeft_readFifo
    {tx : Tx}
    (quiet : tx.port.tvalid = false) :
    edgesLeft tx.readFifo =
        (tx.txFifo.flatMap AxiStreamBeat.framing).length +
          tx.txFifo.length ∧
      (tx.readFifo.counter = .reading → edgesLeft tx.readFifo = 0) := by
  cases queue : tx.txFifo with
  | nil =>
      have nothingLeft : edgesLeft tx.readFifo = 0 := by
        rw [edgesLeft, (Tx.readFifo_spec quiet).2, Tx.readFifo, queue]
        rfl
      exact ⟨nothingLeft, fun _ => nothingLeft⟩
  | cons packet rest =>
      have reads :
          tx.readFifo = Tx.sendFrom packet { tx with txFifo := rest } := by
        rw [Tx.readFifo, queue]
      have left := edgesLeft_sendFrom packet { tx with txFifo := rest }
      rw [← reads] at left
      refine ⟨?_, fun blocks => ?_⟩
      · rw [left, List.flatMap_cons, List.length_append, List.length_cons]
      · cases packet with
        | nil =>
            rw [reads, Tx.sendFrom_nil] at blocks
            cases blocks
        | cons first bytes =>
            rw [reads, Tx.sendFrom] at blocks
            cases blocks

/-- Nor does waking a blocked read. -/
theorem edgesLeft_settle
    {tx : Tx}
    (driven : tx.Driven) :
    edgesLeft tx.settle = edgesLeft tx ∧
      (tx.settle.counter = .reading → edgesLeft tx.settle = 0) := by
  cases counter : tx.counter with
  | reading =>
      have quiet : tx.port.tvalid = false := by
        simpa [Tx.Driven, counter] using driven
      have reads : tx.settle = tx.readFifo := by
        rw [Tx.settle, counter]
      obtain ⟨left, blocks⟩ := edgesLeft_readFifo quiet
      rw [reads]
      refine ⟨?_, blocks⟩
      rw [left, edgesLeft, Tx.outstanding, counter]
      simp
  | start =>
      have stays : tx.settle = tx := by
        rw [Tx.settle, counter]
      rw [stays, counter]
      exact ⟨rfl, by simp⟩
  | beat remaining =>
      have stays : tx.settle = tx := by
        rw [Tx.settle, counter]
      rw [stays, counter]
      exact ⟨rfl, by simp⟩
  | idle =>
      have stays : tx.settle = tx := by
        rw [Tx.settle, counter]
      rw [stays, counter]
      exact ⟨rfl, by simp⟩

/-- An edge with a high TREADY counts, and no other edge sets back. -/
theorem edgesLeft_edge
    {tx : Tx}
    (driven : tx.Driven)
    (tready : Bool) :
    edgesLeft (Tx.edge tready tx.settle) ≤
      edgesLeft tx - (if tready then 1 else 0) := by
  obtain ⟨settledDriven, -⟩ := Tx.settle_spec driven
  obtain ⟨left, blocks⟩ := edgesLeft_settle driven
  rw [← left]
  generalize tx.settle = settled at settledDriven blocks
  have reads
      (waits : settled.counter = .start ∨ settled.counter = .idle) :
      edgesLeft settled.readFifo ≤
        edgesLeft settled - (if tready then 1 else 0) := by
    have quiet : settled.port.tvalid = false := by
      rcases waits with counter | counter
      · simpa [Tx.Driven, counter] using settledDriven
      · simpa [Tx.Driven, counter] using settledDriven
    have whole :
        edgesLeft settled =
          (settled.txFifo.flatMap AxiStreamBeat.framing).length +
            settled.txFifo.length + 1 := by
      rcases waits with counter | counter
      · simp [edgesLeft, Tx.outstanding, counter]
      · simp [edgesLeft, Tx.outstanding, counter]
    rw [whole, (edgesLeft_readFifo quiet).1]
    split
    · exact le_rfl
    · exact Nat.le_succ _
  cases counter : settled.counter with
  | start =>
      rw [Tx.edge, counter]
      exact reads (.inl counter)
  | idle =>
      rw [Tx.edge, counter]
      exact reads (.inr counter)
  | reading =>
      rw [Tx.edge, counter]
      simp [blocks counter]
  | beat remaining =>
      cases tready with
      | false =>
          rw [Tx.edge, counter]
          simp
      | true =>
          obtain ⟨-, framed⟩ :
              settled.port.tvalid = true ∧
                AxiStreamBeat.framing remaining =
                  settled.port.beat ::
                    AxiStreamBeat.framing (remaining.drop 8) := by
            simpa [Tx.Driven, counter] using settledDriven
          rw [Tx.edge, counter]
          simp only [↓reduceIte]
          rw [edgesLeft_sendFrom, edgesLeft, Tx.outstanding, counter]
          simp only [framed, List.length_append, List.length_cons,
            AxiStreamBeat.tdataBytes]
          simp
          omega

/-- A rising edge at which the device under test accepts a beat. -/
def Event.isReadyEdge : Event → Bool
  | .edge tready _ => tready
  | _ => false

/-- Without a send, every accepting edge takes one of the edges left. -/
theorem edgesLeft_step
    {run : Run}
    (accounted : run.Accounted)
    {event : Event}
    (silent : ∀ packet, event ≠ .send packet) :
    (run.step event).accepted = run.accepted ∧
      edgesLeft (run.step event).tx.tx ≤
        edgesLeft run.tx.tx - (if event.isReadyEdge then 1 else 0) := by
  cases event with
  | setupRx =>
      exact ⟨rfl, le_rfl⟩
  | setReceiveCallback present =>
      exact ⟨rfl, le_rfl⟩
  | send packet =>
      exact absurd rfl (silent packet)
  | settle =>
      exact ⟨rfl, (edgesLeft_settle accounted.bridge.driven).1.le⟩
  | edge tready slave =>
      exact ⟨rfl, edgesLeft_edge accounted.bridge.driven tready⟩
  | deliver =>
      have same :
          run.deliver.accepted = run.accepted ∧
            run.deliver.tx = run.tx := by
        rw [Run.deliver]
        split
        · exact ⟨rfl, rfl⟩
        · exact ⟨rfl, rfl⟩
      refine ⟨same.1, ?_⟩
      rw [Run.step, same.2]
      exact le_rfl

theorem edgesLeft_foldl
    {run : Run}
    (accounted : run.Accounted)
    {events : List Event}
    (silent : ∀ packet, .send packet ∉ events) :
    (events.foldl Run.step run).accepted = run.accepted ∧
      edgesLeft (events.foldl Run.step run).tx.tx ≤
        edgesLeft run.tx.tx - events.countP Event.isReadyEdge := by
  induction events generalizing run with
  | nil =>
      exact ⟨rfl, le_rfl⟩
  | cons event later inductionHypothesis =>
      have differs : ∀ packet, event ≠ .send packet := by
        rintro packet rfl
        exact silent packet List.mem_cons_self
      have laterSilent : ∀ packet, .send packet ∉ later :=
        fun packet member => silent packet (List.mem_cons_of_mem _ member)
      obtain ⟨same, counted⟩ := edgesLeft_step accounted differs
      obtain ⟨laterSame, laterCounted⟩ :=
        inductionHypothesis (accounted.step event) laterSilent
      refine ⟨laterSame.trans same, ?_⟩
      rw [List.foldl_cons, List.countP_cons]
      omega

/--
No accepted packet is stuck.  Once nothing more is sent, everything accepted so
far has crossed the port in order after as many edges with a high TREADY as
there are outstanding beats and queued packets, and one more, wherever the
stalled edges, the deliveries and the registrations between them are.
-/
theorem accepted_packets_leave
    (events : List Event)
    {later : List Event}
    (silent : ∀ packet, .send packet ∉ later)
    (enough :
      (Run.after events).tx.tx.outstanding.length +
          (Run.after events).tx.tx.txFifo.length + 1 ≤
        later.countP Event.isReadyEdge) :
    (Run.after (events ++ later)).tx.transferred =
      (Run.after events).accepted.flatMap fun packet =>
        AxiStreamBeat.framing packet.bytes := by
  have whole :
      Run.after (events ++ later) =
        later.foldl Run.step (Run.after events) :=
    List.foldl_append
  obtain ⟨same, counted⟩ :=
    edgesLeft_foldl (Run.accounted_after events) silent
  rw [← whole] at same counted
  have accounted := Run.accounted_after (events ++ later)
  have bound :
      edgesLeft (Run.after events).tx.tx ≤
        later.countP Event.isReadyEdge := by
    refine le_trans ?_ enough
    rw [edgesLeft]
    split
    · exact Nat.le_succ _
    · exact le_rfl
  have nothingLeft :
      edgesLeft (Run.after (events ++ later)).tx.tx = 0 := by
    omega
  have crossed :
      (Run.after (events ++ later)).tx.tx.outstanding = [] := by
    rw [edgesLeft] at nothingLeft
    exact List.length_eq_zero_iff.mp (by omega)
  have conserved := accounted.bridge.conserved
  rw [crossed, List.append_nil, accounted.accepted, same] at conserved
  rw [conserved, List.flatMap_map]

theorem accepted_packets_leave_stalled :
    (Run.after
        ([.send nineBytes] ++
          [.edge true idlePort, .edge false idlePort, .edge true idlePort,
            .edge true idlePort, .edge true idlePort])).tx.transferred =
      AxiStreamBeat.framing nineBytes.bytes := by
  refine (accepted_packets_leave [.send nineBytes] ?_ ?_).trans ?_
  · simp
  · decide +kernel
  · decide +kernel

end Backlog

end CoSimulation

end TsnGen
