import TsnGen.BrokenStreams
import TsnGen.GenerationRuns
import TsnGen.ReceiverReuse

namespace TsnGen

/-!
# The transports of a platform

The program makes one of three senders and one of three receivers.  Over the
answers of a platform to their calls they are machines.  A sender keeps what
the peer of its descriptor finds, also behind a closed one: unless a call was
refused these are the frames of the packets handed over, and a receiver of the
same kind yields the packets.
-/

open FramedStream

/-- What the calls of a raw socket transport find. -/
structure LinkAccess (α : Type) where
  descriptor : Option α
  ifIndex : Option Int
  bound : Bool
  deriving Repr, DecidableEq

/-- What a platform answers the transports. -/
structure Platform where
  order : ByteOrder
  /-- The clock at each packet handed over. -/
  clock : Nat → Timespec
  /-- The answers to the writes of a created file. -/
  creates : String → Option (List Answer)
  /-- The answers to the writes of a connected socket. -/
  connects : String → Option (List Answer)
  attaches : String → LinkAccess PacketSocket
  /-- An opened file. -/
  opens : String → Option Inlet
  /-- A connected socket to read from. -/
  accepts : String → Option Inlet
  listens : String → LinkAccess (List Arrival)

/-- The senders of the program. -/
inductive SenderDevice where
  | raw (device : RawSocketSender)
  | pcap (device : PcapSender)
  | verilator (device : VerilatorSender)
  deriving Repr, DecidableEq

/-- The stream behind the descriptor of a sender, if it has one. -/
def SenderDevice.written? : SenderDevice → Option (List UInt8)
  | .raw _ => none
  | .pcap device => device.mFd.map Outlet.written
  | .verilator device => device.mSockFd.map Outlet.written

/-- The kind of a sender. -/
def SenderDevice.kind : SenderDevice → TransportKind
  | .raw _ => .raw
  | .pcap _ => .pcap
  | .verilator _ => .verilator

/-- A sender that was made, its calls and what its peer found so far. -/
structure Outgoing where
  param : String
  device : SenderDevice
  peer : List UInt8
  handed : Handed
  deriving Repr, DecidableEq

/-- What the peer of the last descriptor finds. -/
def Outgoing.stream
    (outgoing : Outgoing) : List UInt8 :=
  outgoing.device.written?.getD outgoing.peer

/-- The receivers of the program. -/
inductive ReceiverDevice where
  | raw (device : RawSocketReceiver)
  | pcap (device : PcapReceiver)
  | verilator (device : VerilatorReceiver)
  deriving Repr, DecidableEq

/-- A receiver that was made. -/
structure Incoming where
  param : String
  device : ReceiverDevice
  deriving Repr, DecidableEq

namespace Platform

section Machines

variable (platform : Platform)

/-- Make a sender. -/
def newSender
    (kind : TransportKind)
    (param : String) : Outgoing where
  param := param
  device :=
    match kind with
    | .raw => .raw .fresh
    | .pcap => .pcap { mFd := none }
    | .verilator => .verilator .fresh
  peer := []
  handed := []

/-- Open a sender. -/
def openSender
    (outgoing : Outgoing) : SenderErr × Outgoing :=
  match outgoing.device with
  | .raw device =>
      let link := platform.attaches outgoing.param
      let opened := device.openSocket link.descriptor link.ifIndex link.bound
      (opened.1, { outgoing with device := .raw opened.2 })
  | .pcap _ =>
      let opened :=
        PcapSender.openFile platform.order
          ((platform.creates outgoing.param).map fun answers =>
            { written := [], answers := answers })
      (opened.1, { outgoing with device := .pcap opened.2, peer := [] })
  | .verilator _ =>
      let opened :=
        VerilatorSender.openSocket
          ((platform.connects outgoing.param).map fun answers =>
            { written := [], answers := answers })
      (opened.1, { outgoing with device := .verilator opened.2, peer := [] })

/-- Hand a packet to the device of a sender. -/
def sendDevice
    (calls : Nat)
    (packet : List UInt8) :
    SenderDevice → SenderErr × SenderDevice
  | .raw device => (device.send packet).map id .raw
  | .pcap device =>
      (device.send platform.order (platform.clock calls, packet)).map id .pcap
  | .verilator device =>
      (device.send platform.order packet).map id .verilator

/-- Hand a packet over. -/
def send
    (packet : List UInt8)
    (outgoing : Outgoing) : SenderErr × Outgoing :=
  let sent :=
    platform.sendDevice outgoing.handed.length packet outgoing.device
  (sent.1,
    { outgoing with
      device := sent.2
      handed := outgoing.handed ++ [(packet, sent.1)] })

/-- Close a sender. -/
def closeSender
    (outgoing : Outgoing) : Outgoing :=
  { outgoing with
    device :=
      match outgoing.device with
      | .raw device => .raw device.close
      | .pcap device => .pcap device.close
      | .verilator device => .verilator device.close
    peer := outgoing.stream }

/-- The senders of a platform. -/
def sender : ISender Outgoing where
  openSender := platform.openSender
  send := platform.send
  close := closeSender
  handed := Outgoing.handed
  handed_send _ _ := rfl

/-- Make a receiver. -/
def newReceiver
    (kind : TransportKind)
    (param : String) : Incoming where
  param := param
  device :=
    match kind with
    | .raw => .raw { mSockFd := none }
    | .pcap => .pcap .fresh
    | .verilator => .verilator .fresh

/-- Open a receiver. -/
def openReceiver
    (incoming : Incoming) : Except ReceiverErr Unit × Incoming :=
  match incoming.device with
  | .raw _ =>
      let link := platform.listens incoming.param
      let opened :=
        RawSocketReceiver.openSocket link.descriptor link.ifIndex link.bound
      (opened.1, { incoming with device := .raw opened.2 })
  | .pcap device =>
      let opened :=
        device.openFile platform.order (platform.opens incoming.param)
      (opened.1, { incoming with device := .pcap opened.2 })
  | .verilator _ =>
      let opened :=
        VerilatorReceiver.openSocket (platform.accepts incoming.param)
      (opened.1, { incoming with device := .verilator opened.2 })

/-- Receive a packet. -/
def receive
    (incoming : Incoming) : Except ReceiverErr (List UInt8) × Incoming :=
  match incoming.device with
  | .raw device =>
      device.receive.map id fun device =>
        { incoming with device := .raw device }
  | .pcap device =>
      (device.receive platform.order).map id fun device =>
        { incoming with device := .pcap device }
  | .verilator device =>
      (device.receive platform.order).map id fun device =>
        { incoming with device := .verilator device }

/-- Close a receiver. -/
def closeReceiver
    (incoming : Incoming) : Incoming :=
  { incoming with
    device :=
      match incoming.device with
      | .raw device => .raw device.close
      | .pcap device => .pcap device.close
      | .verilator device => .verilator device.close }

/-- The receivers of a platform. -/
def receiver : IReceiver Incoming where
  openReceiver := platform.openReceiver
  receive := platform.receive
  close := closeReceiver

end Machines

end Platform

/-- A host whose transports are those of a platform. -/
def Host.on
    (host : Host G S R)
    (platform : Platform) : Host G Outgoing Incoming :=
  { host with
    sender := platform.sender
    receiver := platform.receiver
    newSender := Platform.newSender
    newReceiver := Platform.newReceiver }

namespace Outgoing

/-- The peer finds the frames of the packets handed over. -/
def Framed
    (platform : Platform)
    (outgoing : Outgoing) : Prop :=
  match outgoing.device with
  | .raw _ => True
  | .pcap _ =>
      ∃ sent : List (Timespec × List UInt8),
        sent.map Prod.snd = outgoing.handed.map Prod.fst ∧
          outgoing.stream =
            pcapGlobalHeader platform.order ++
              frames (recordBytes platform.order) sent
  | .verilator _ =>
      outgoing.stream =
        frames (beatBytes platform.order) (outgoing.handed.map Prod.fst)

/-- Unless a call was refused, the peer finds the frames of all packets. -/
def Kept
    (platform : Platform)
    (outgoing : Outgoing) : Prop :=
  PacketGen.AllAccepted outgoing.handed → outgoing.Framed platform

variable {platform : Platform}

/-- Opening starts a stream without packets. -/
theorem framed_openSender
    {outgoing : Outgoing}
    (uncalled : outgoing.handed = [])
    (opened : (platform.openSender outgoing).1 = .success) :
    (platform.openSender outgoing).2.Framed platform := by
  cases isDevice : outgoing.device with
  | raw device =>
      simp [Platform.openSender, isDevice, Framed]
  | pcap device =>
      simp only [Platform.openSender, isDevice] at opened ⊢
      cases created : platform.creates outgoing.param with
      | none =>
          simp [created, PcapSender.openFile] at opened
      | some answers =>
          rw [created] at opened
          simp only [Option.map_some] at opened ⊢
          obtain ⟨later, isOpened⟩ :=
            PcapSender.eq_of_openFile (Prod.ext opened rfl)
          refine ⟨[], by simp [uncalled], ?_⟩
          simp [stream, SenderDevice.written?, isOpened, frames]
  | verilator device =>
      simp only [Platform.openSender, isDevice] at opened ⊢
      cases connected : platform.connects outgoing.param with
      | none =>
          simp [connected, VerilatorSender.openSocket] at opened
      | some answers =>
          simp [Framed, stream, SenderDevice.written?,
            VerilatorSender.openSocket, uncalled, frames]

/-- A packet that is accepted is framed behind the others. -/
theorem framed_send
    {outgoing : Outgoing}
    (framed : outgoing.Framed platform)
    {packet : List UInt8}
    (accepted : (platform.send packet outgoing).1 = .success) :
    (platform.send packet outgoing).2.Framed platform := by
  cases isDevice : outgoing.device with
  | raw device =>
      simp [Platform.send, Platform.sendDevice, isDevice, Framed]
  | pcap device =>
      simp only [Framed, isDevice] at framed
      simp only [Platform.send, Platform.sendDevice, isDevice,
        Prod.map_fst, Prod.map_snd, id_eq] at accepted ⊢
      obtain ⟨sent, packets, isStream⟩ := framed
      obtain ⟨stamped, isStamped⟩ :
          ∃ stamped,
            stamped = (platform.clock outgoing.handed.length, packet) :=
        ⟨_, rfl⟩
      rw [← isStamped] at accepted ⊢
      obtain ⟨descriptor⟩ := device
      cases descriptor with
      | none =>
          simp [PcapSender.send] at accepted
      | some outlet =>
          obtain ⟨written, missing, later, whole, state, complete⟩ :=
            PcapSender.send_writes platform.order stamped outlet
          rw [complete.mp accepted, List.append_nil] at whole
          have isWritten :
              outlet.written =
                pcapGlobalHeader platform.order ++
                  frames (recordBytes platform.order) sent := by
            simpa [stream, isDevice, SenderDevice.written?] using isStream
          refine ⟨sent ++ [stamped], ?_, ?_⟩
          · simp [packets, isStamped]
          · simp [stream, SenderDevice.written?, state, isWritten, whole,
              frames]
  | verilator device =>
      simp only [Framed, isDevice] at framed
      simp only [Platform.send, Platform.sendDevice, isDevice,
        Prod.map_fst, Prod.map_snd, id_eq] at accepted ⊢
      obtain ⟨descriptor⟩ := device
      cases descriptor with
      | none =>
          simp [VerilatorSender.send] at accepted
      | some outlet =>
          obtain ⟨written, missing, later, whole, state, complete⟩ :=
            VerilatorSender.send_writes platform.order packet outlet
          rw [complete.mp accepted, List.append_nil] at whole
          have isWritten :
              outlet.written =
                frames (beatBytes platform.order)
                  (outgoing.handed.map Prod.fst) := by
            simpa [stream, isDevice, SenderDevice.written?] using framed
          simp [Framed, stream, SenderDevice.written?, state, isWritten,
            whole, frames]

/-- What is kept stays kept when a packet is handed over. -/
theorem Kept.send
    {outgoing : Outgoing}
    (kept : outgoing.Kept platform)
    (packet : List UInt8) :
    (platform.send packet outgoing).2.Kept platform := by
  intro accepted
  have isLast :
      (packet, (platform.send packet outgoing).1) ∈
        (platform.send packet outgoing).2.handed :=
    List.mem_append_right _ (List.mem_singleton_self _)
  refine framed_send (kept ?_) (accepted _ isLast)
  intro call member
  exact accepted call (List.mem_append_left _ member)

/-- Closing keeps the stream for the peer. -/
theorem stream_closeSender
    (outgoing : Outgoing) :
    (Platform.closeSender outgoing).stream = outgoing.stream := by
  cases isDevice : outgoing.device with
  | raw device =>
      simp [Platform.closeSender, isDevice, stream, SenderDevice.written?]
  | pcap device =>
      simp [Platform.closeSender, isDevice, stream, SenderDevice.written?,
        PcapSender.close]
  | verilator device =>
      simp [Platform.closeSender, isDevice, stream, SenderDevice.written?,
        VerilatorSender.close, VerilatorSender.fresh]

/-- Closing keeps what is kept. -/
theorem Kept.close
    {outgoing : Outgoing}
    (kept : outgoing.Kept platform) :
    (Platform.closeSender outgoing).Kept platform := by
  intro accepted
  have framed := kept accepted
  have sameStream := stream_closeSender outgoing
  rw [Framed] at framed ⊢
  rw [sameStream]
  cases isDevice : outgoing.device with
  | raw device =>
      simp [Platform.closeSender, isDevice]
  | pcap device =>
      simpa [Platform.closeSender, isDevice] using framed
  | verilator device =>
      simpa [Platform.closeSender, isDevice] using framed

/-- A sender keeps its kind when it is opened. -/
@[simp] theorem kind_openSender
    (outgoing : Outgoing) :
    (platform.openSender outgoing).2.device.kind = outgoing.device.kind := by
  cases isDevice : outgoing.device with
  | raw device =>
      simp [Platform.openSender, isDevice, SenderDevice.kind]
  | pcap device =>
      simp [Platform.openSender, isDevice, SenderDevice.kind]
  | verilator device =>
      simp [Platform.openSender, isDevice, SenderDevice.kind]

/-- A sender keeps its kind when a packet is handed over. -/
@[simp] theorem kind_send
    (packet : List UInt8)
    (outgoing : Outgoing) :
    (platform.send packet outgoing).2.device.kind =
      outgoing.device.kind := by
  cases isDevice : outgoing.device with
  | raw device =>
      simp [Platform.send, Platform.sendDevice, isDevice, SenderDevice.kind]
  | pcap device =>
      simp [Platform.send, Platform.sendDevice, isDevice, SenderDevice.kind]
  | verilator device =>
      simp [Platform.send, Platform.sendDevice, isDevice, SenderDevice.kind]

/-- A sender keeps its kind when it is closed. -/
@[simp] theorem kind_closeSender
    (outgoing : Outgoing) :
    (Platform.closeSender outgoing).device.kind = outgoing.device.kind := by
  cases isDevice : outgoing.device with
  | raw device =>
      simp [Platform.closeSender, isDevice, SenderDevice.kind]
  | pcap device =>
      simp [Platform.closeSender, isDevice, SenderDevice.kind]
  | verilator device =>
      simp [Platform.closeSender, isDevice, SenderDevice.kind]

end Outgoing

namespace Platform

variable (platform : Platform)

/-- A receiver of a platform yields what its device does. -/
private theorem receiveTimes_device
    {D : Type}
    (receiveDevice : D → Except ReceiverErr (List UInt8) × D)
    (wrap : D → ReceiverDevice)
    (param : String)
    (receives :
      ∀ device,
        platform.receive { param := param, device := wrap device } =
          (receiveDevice device).map id fun later =>
            { param := param, device := wrap later })
    (calls : Nat)
    (device : D) :
    receiveTimes platform.receive calls
        { param := param, device := wrap device } =
      receiveTimes receiveDevice calls device := by
  induction calls generalizing device with
  | zero =>
      rfl
  | succ calls inductionHypothesis =>
      rw [receiveTimes, receiveTimes, receives]
      simp only [Prod.map_fst, Prod.map_snd, id_eq, inductionHypothesis]

/-- A capture of packets is yielded packet by packet and then ends. -/
theorem yields_pcap
    (writer : ByteOrder)
    {param : String}
    {sent : List (Timespec × List UInt8)}
    (bounded : ∀ stamped ∈ sent, stamped.2.length < 2 ^ 32)
    {answers : List Answer}
    (unfailing : Unfailing answers)
    (content :
      platform.opens param =
        some
          { unread :=
              pcapGlobalHeader writer ++ frames (recordBytes writer) sent
            answers := answers }) :
    let opened := platform.openReceiver (newReceiver .pcap param)
    opened.1 = .ok () ∧
      ∀ calls,
        receiveTimes platform.receive calls opened.2 =
          ((sent.map Prod.snd).map Except.ok ++
            List.replicate calls (Except.error ReceiverErr.eof)).take
              calls := by
  obtain ⟨later, laterUnfailing, found⟩ :=
    PcapReceiver.openFile_of_unfailing platform.order writer
      (frames (recordBytes writer) sent) unfailing
  simp only [openReceiver, newReceiver, content, found, true_and]
  intro calls
  have ended :
      PcapReceiver.decode platform.order
          (decide (platform.order ≠ writer)) [] =
        (.error .eof, []) := by
    simp [PcapReceiver.decode]
  have decoded :=
    decodeTimes_frames
      (PcapReceiver.decode_inverts platform.order writer bounded) calls []
  rw [List.append_nil, decodeTimes_of_stuck ended] at decoded
  rw [receiveTimes_device platform (PcapReceiver.receive platform.order)
    ReceiverDevice.pcap param (fun _ => rfl), ← decoded]
  exact (PcapReceiver.receive_follows platform.order _).receiveTimes_eq calls
    { unread := frames (recordBytes writer) sent, answers := later }
    laterUnfailing

/-- A stream of packets is yielded, the empty ones aside, and then ends. -/
theorem yields_verilator
    {param : String}
    (packets : List (List UInt8))
    {answers : List Answer}
    (unfailing : Unfailing answers)
    (content :
      platform.accepts param =
        some
          { unread := frames (beatBytes platform.order) packets
            answers := answers }) :
    let opened := platform.openReceiver (newReceiver .verilator param)
    opened.1 = .ok () ∧
      ∀ calls,
        receiveTimes platform.receive calls opened.2 =
          ((nonEmpty packets).map Except.ok ++
            List.replicate calls (Except.error ReceiverErr.eof)).take
              calls := by
  simp only [openReceiver, newReceiver, content,
    VerilatorReceiver.openSocket, true_and]
  intro calls
  have ended :
      VerilatorReceiver.decode platform.order [] = (.error .eof, []) :=
    VerilatorReceiver.decodeFrom_of_short platform.order [] (by decide)
  have inverts :=
    VerilatorReceiver.decode_inverts platform.order
      fun packet (member : packet ∈ nonEmpty packets) =>
        ne_nil_of_mem_nonEmpty member
  have decoded := decodeTimes_frames inverts calls []
  rw [List.append_nil, frames_nonEmpty, List.map_id,
    decodeTimes_of_stuck ended] at decoded
  rw [receiveTimes_device platform
    (VerilatorReceiver.receive platform.order) ReceiverDevice.verilator param
    (fun _ => rfl), ← decoded]
  exact (VerilatorReceiver.receive_follows platform.order).receiveTimes_eq
    calls
    { unread := frames (beatBytes platform.order) packets
      answers := answers } unfailing

/-- The stream that a receiver of a kind finds behind a parameter. -/
def found : TransportKind → String → Option Inlet
  | .raw, _ => none
  | .pcap, param => platform.opens param
  | .verilator, param => platform.accepts param

/--
What a sender left to its peer is yielded by a receiver of its kind, which may
run on a host of the other byte order if it reads a file.
-/
theorem yields_framed
    {writer : Platform}
    {outgoing : Outgoing}
    (framed : outgoing.Framed writer)
    (sameOrder :
      outgoing.device.kind = .verilator → platform.order = writer.order)
    {packets : List (List UInt8)}
    (handed : outgoing.handed.map Prod.fst = packets)
    (present : ∀ packet ∈ packets, packet ≠ [])
    (bounded : ∀ packet ∈ packets, packet.length < 2 ^ 32)
    {param : String}
    {answers : List Answer}
    (unfailing : Unfailing answers)
    (content :
      platform.found outgoing.device.kind param =
        some { unread := outgoing.stream, answers := answers }) :
    let opened :=
      platform.openReceiver (newReceiver outgoing.device.kind param)
    opened.1 = .ok () ∧
      ∀ calls,
        receiveTimes platform.receive calls opened.2 =
          (packets.map Except.ok ++
            List.replicate calls (Except.error ReceiverErr.eof)).take
              calls := by
  cases isDevice : outgoing.device with
  | raw device =>
      simp [found, isDevice, SenderDevice.kind] at content
  | pcap device =>
      simp only [Outgoing.Framed, isDevice] at framed
      obtain ⟨sent, sentPackets, isStream⟩ := framed
      rw [handed] at sentPackets
      rw [isDevice, isStream] at content
      have sentBounded : ∀ stamped ∈ sent, stamped.2.length < 2 ^ 32 := by
        intro stamped member
        refine bounded stamped.2 ?_
        rw [← sentPackets]
        exact List.mem_map_of_mem member
      rw [← sentPackets]
      exact platform.yields_pcap writer.order sentBounded unfailing content
  | verilator device =>
      have isOrder : platform.order = writer.order :=
        sameOrder (by rw [isDevice]; rfl)
      simp only [Outgoing.Framed, isDevice] at framed
      rw [handed, ← isOrder] at framed
      rw [isDevice, framed] at content
      have whole : nonEmpty packets = packets := by
        refine List.filter_eq_self.mpr fun packet member => ?_
        simpa using present packet member
      have yielded := platform.yields_verilator packets unfailing content
      rw [whole] at yielded
      exact yielded

end Platform

end TsnGen
