import TsnGen.Endpoints
import TsnGen.SharedTable

namespace TsnGen

/-!
# Transports that hold descriptor numbers

A transport keeps the number of a descriptor, and what is behind it is in the
table of the process.  Its calls are programs that open, use and close such
numbers.  Each of the six classes keeps to the descriptor that it holds, closes
it wherever an opening fails half-way, and answers as the machine that has the
descriptor's streams for itself.
-/

/-- What is behind a descriptor: streams, a packet socket, arriving frames. -/
structure Description where
  outlet : Outlet
  inlet : Inlet
  socket : PacketSocket
  arrivals : List Arrival
  deriving Repr, DecidableEq

namespace Description

variable {β : Type}

/-- Act on the stream that is written to. -/
def onOutlet
    (action : Outlet → β × Outlet)
    (description : Description) : β × Description :=
  let result := action description.outlet
  (result.1, { description with outlet := result.2 })

/-- Act on the stream that is read from. -/
def onInlet
    (action : Inlet → β × Inlet)
    (description : Description) : β × Description :=
  let result := action description.inlet
  (result.1, { description with inlet := result.2 })

/-- Answer from the outside. -/
def answered
    (answer : β)
    (description : Description) : β × Description :=
  (answer, description)

/-- Send one frame; whether that succeeded. -/
def sendto
    (packet : List UInt8)
    (description : Description) : Bool × Description :=
  let socket := description.socket
  if socket.refusals.headD false then
    (false,
      { description with
        socket := { socket with refusals := socket.refusals.tail } })
  else
    (true,
      { description with
        socket :=
          { sent := socket.sent ++ [packet]
            refusals := socket.refusals.tail } })

/-- Wait for a frame; when none arrives a signal ends the wait. -/
def recvfrom
    (description : Description) : Arrival × Description :=
  match description.arrivals with
  | [] => (.interrupted, description)
  | arrival :: later => (arrival, { description with arrivals := later })

end Description

/-- A transport with the number of its descriptor. -/
inductive NumberedTransport where
  | rawSender (mSockFd : Option Nat) (mIfIndex : Int)
  | pcapSender (mFd : Option Nat)
  | verilatorSender (mSockFd : Option Nat)
  | rawReceiver (mSockFd : Option Nat)
  | pcapReceiver (mFd : Option Nat) (mSwap : Bool)
  | verilatorReceiver (mSockFd : Option Nat)
  deriving Repr, DecidableEq

/--
A call of a transport.  The calls behind an opening find a socket connected or
bound, and an interface.
-/
inductive TransportRequest where
  | openTransport (ifIndex : Option Int) (attached : Bool)
  | send (time : Timespec) (packet : List UInt8)
  | receive
  | close
  deriving Repr, DecidableEq

/-- What a call returns; a class may lack the method. -/
inductive TransportReply where
  | sender (code : SenderErr)
  | opened (result : Except ReceiverErr Unit)
  | received (result : Except ReceiverErr (List UInt8))
  | closed
  | noMethod

/-- The program of a call. -/
abbrev TransportProgram :=
  HandleProgram Description (TransportReply × NumberedTransport)

namespace NumberedTransport

/-- The number that a transport holds. -/
@[simp] def held : NumberedTransport → Option Nat
  | .rawSender mSockFd _ => mSockFd
  | .pcapSender mFd => mFd
  | .verilatorSender mSockFd => mSockFd
  | .rawReceiver mSockFd => mSockFd
  | .pcapReceiver mFd _ => mFd
  | .verilatorReceiver mSockFd => mSockFd

/--
Close a descriptor, if there is one, and become one transport; without one be
another.
-/
def closeDescriptor
    (descriptor : Option Nat)
    (unopened closed : NumberedTransport) : TransportProgram :=
  match descriptor with
  | none => .done (.closed, unopened)
  | some fd => .release fd (.done (.closed, closed))

namespace RawSocketSender

/-- Open a socket, look up the interface, then bind. -/
def openSocket
    (ifIndex : Option Int)
    (bound : Bool)
    (mIfIndex : Int) : TransportProgram :=
  .acquire fun
    | none => .done (.sender .openFailed, .rawSender none mIfIndex)
    | some fd =>
        .work fd (Description.answered ifIndex) fun
          | none =>
              .release fd
                (.done (.sender .openFailed, .rawSender none mIfIndex))
          | some index =>
              .work fd (Description.answered bound) fun isBound =>
                if isBound then
                  .done (.sender .success, .rawSender (some fd) index)
                else
                  .release fd
                    (.done (.sender .openFailed, .rawSender none index))

/-- Send one frame. -/
def send
    (packet : List UInt8)
    (mSockFd : Option Nat)
    (mIfIndex : Int) : TransportProgram :=
  match mSockFd with
  | none => .done (.sender .notOpen, .rawSender none mIfIndex)
  | some fd =>
      .work fd (Description.sendto packet) fun sent =>
        .done
          (.sender (if sent then .success else .sendFailed),
            .rawSender (some fd) mIfIndex)

/-- Close the socket if there is one. -/
def close
    (mSockFd : Option Nat)
    (mIfIndex : Int) : TransportProgram :=
  closeDescriptor mSockFd (.rawSender none mIfIndex) (.rawSender none (-1))

end RawSocketSender

namespace PcapSender

/-- Create a file and write the global header. -/
def openFile
    (order : ByteOrder) : TransportProgram :=
  .acquire fun
    | none => .done (.sender .openFailed, .pcapSender none)
    | some fd =>
        .work fd
          (Description.onOutlet
            (TsnGen.PcapSender.writeAll (pcapGlobalHeader order)))
          fun written =>
            if written then
              .done (.sender .success, .pcapSender (some fd))
            else
              .release fd (.done (.sender .openFailed, .pcapSender none))

/-- Write one record, the header first. -/
def send
    (order : ByteOrder)
    (time : Timespec)
    (packet : List UInt8)
    (mFd : Option Nat) : TransportProgram :=
  match mFd with
  | none => .done (.sender .notOpen, .pcapSender none)
  | some fd =>
      let header := PcapPacketHeader.ofPacket time packet
      .work fd
        (Description.onOutlet
          (TsnGen.PcapSender.writeAll (header.bytes order)))
        fun headed =>
          if headed then
            .work fd
              (Description.onOutlet (TsnGen.PcapSender.writeAll packet))
              fun filled =>
                .done
                  (.sender (if filled then .success else .sendFailed),
                    .pcapSender (some fd))
          else
            .done (.sender .sendFailed, .pcapSender (some fd))

/-- Close the file if it is open. -/
def close
    (mFd : Option Nat) : TransportProgram :=
  closeDescriptor mFd (.pcapSender none) (.pcapSender none)

end PcapSender

namespace VerilatorSender

/-- Open a socket and connect it. -/
def openSocket
    (connected : Bool) : TransportProgram :=
  .acquire fun
    | none => .done (.sender .openFailed, .verilatorSender none)
    | some fd =>
        .work fd (Description.answered connected) fun isConnected =>
          if isConnected then
            .done (.sender .success, .verilatorSender (some fd))
          else
            .release fd
              (.done (.sender .openFailed, .verilatorSender none))

/-- Write the beats of what remains of a packet, one after the other. -/
def sendLoop
    (order : ByteOrder)
    (fd : Nat)
    (remaining : List UInt8) : TransportProgram :=
  match remaining with
  | [] => .done (.sender .success, .verilatorSender (some fd))
  | first :: rest =>
      let chunk := (first :: rest).take AxiStreamBeat.tdataBytes
      let isLast : Bool :=
        (first :: rest).length ≤ AxiStreamBeat.tdataBytes
      let beat := AxiStreamBeat.ofChunk chunk isLast
      .work fd
        (Description.onOutlet
          (TsnGen.VerilatorSender.writeAll (beat.bytes order)))
        fun code =>
          if code = .success then
            sendLoop order fd
              ((first :: rest).drop AxiStreamBeat.tdataBytes)
          else
            .done (.sender code, .verilatorSender (some fd))
termination_by remaining.length
decreasing_by
  simp only [AxiStreamBeat.tdataBytes, List.length_drop, List.length_cons]
  omega

/-- Send one packet; an empty one needs no beat. -/
def send
    (order : ByteOrder)
    (packet : List UInt8)
    (mSockFd : Option Nat) : TransportProgram :=
  match mSockFd with
  | none => .done (.sender .notOpen, .verilatorSender none)
  | some fd =>
      if packet.isEmpty then
        .done (.sender .success, .verilatorSender (some fd))
      else
        sendLoop order fd packet

/-- Close the socket if it is connected. -/
def close
    (mSockFd : Option Nat) : TransportProgram :=
  closeDescriptor mSockFd (.verilatorSender none) (.verilatorSender none)

end VerilatorSender

namespace RawSocketReceiver

/-- Open a socket, look up the interface, then bind. -/
def openSocket
    (ifIndex : Option Int)
    (bound : Bool) : TransportProgram :=
  .acquire fun
    | none => .done (.opened (.error .openFailed), .rawReceiver none)
    | some fd =>
        .work fd (Description.answered ifIndex) fun
          | none =>
              .release fd
                (.done (.opened (.error .openFailed), .rawReceiver none))
          | some _ =>
              .work fd (Description.answered bound) fun isBound =>
                if isBound then
                  .done (.opened (.ok ()), .rawReceiver (some fd))
                else
                  .release fd
                    (.done
                      (.opened (.error .openFailed), .rawReceiver none))

/-- Receive one frame, as much of it as fits the buffer. -/
def receive
    (mSockFd : Option Nat) : TransportProgram :=
  match mSockFd with
  | none => .done (.received (.error .notOpen), .rawReceiver none)
  | some fd =>
      .work fd Description.recvfrom fun arrival =>
        .done
          (.received
            (match arrival with
            | .frame bytes =>
                .ok (bytes.take TsnGen.RawSocketReceiver.maxFrameBytes)
            | .interrupted => .error .eof
            | .failed => .error .recvFailed),
            .rawReceiver (some fd))

/-- Close the socket if there is one. -/
def close
    (mSockFd : Option Nat) : TransportProgram :=
  closeDescriptor mSockFd (.rawReceiver none) (.rawReceiver none)

end RawSocketReceiver

namespace PcapReceiver

/-- Open a file and check its global header. -/
def openFile
    (order : ByteOrder)
    (mSwap : Bool) : TransportProgram :=
  .acquire fun
    | none =>
        .done (.opened (.error .openFailed), .pcapReceiver none mSwap)
    | some fd =>
        .work fd
          (Description.onInlet (TsnGen.PcapReceiver.readAll 24))
          fun
          | none =>
              .release fd
                (.done
                  (.opened (.error .openFailed), .pcapReceiver none mSwap))
          | some header =>
              let magic := TsnGen.PcapReceiver.wordAt order header 0
              if magic = 0xD4C3B2A1 then
                .done (.opened (.ok ()), .pcapReceiver (some fd) true)
              else if magic ≠ 0xA1B2C3D4 then
                .release fd
                  (.done
                    (.opened (.error .openFailed),
                      .pcapReceiver none mSwap))
              else
                .done (.opened (.ok ()), .pcapReceiver (some fd) mSwap)

/-- Receive one packet, the record header first. -/
def receive
    (order : ByteOrder)
    (mFd : Option Nat)
    (mSwap : Bool) : TransportProgram :=
  match mFd with
  | none => .done (.received (.error .notOpen), .pcapReceiver none mSwap)
  | some fd =>
      .work fd
        (Description.onInlet (TsnGen.PcapReceiver.readAll 16))
        fun
        | none =>
            .done (.received (.error .eof), .pcapReceiver (some fd) mSwap)
        | some header =>
            let word := TsnGen.PcapReceiver.wordAt order header 8
            let inclLen := if mSwap then swap32 word else word
            if inclLen = 0 then
              .done (.received (.ok []), .pcapReceiver (some fd) mSwap)
            else
              .work fd
                (Description.onInlet
                  (TsnGen.PcapReceiver.readAll inclLen.toNat))
                fun
                | none =>
                    .done
                      (.received (.error .recvFailed),
                        .pcapReceiver (some fd) mSwap)
                | some packet =>
                    .done
                      (.received (.ok packet),
                        .pcapReceiver (some fd) mSwap)

/-- Close the file if it is open. -/
def close
    (mFd : Option Nat)
    (mSwap : Bool) : TransportProgram :=
  closeDescriptor mFd (.pcapReceiver none mSwap) (.pcapReceiver none mSwap)

end PcapReceiver

namespace VerilatorReceiver

/-- Open a socket and connect it. -/
def openSocket
    (connected : Bool) : TransportProgram :=
  .acquire fun
    | none => .done (.opened (.error .openFailed), .verilatorReceiver none)
    | some fd =>
        .work fd (Description.answered connected) fun isConnected =>
          if isConnected then
            .done (.opened (.ok ()), .verilatorReceiver (some fd))
          else
            .release fd
              (.done
                (.opened (.error .openFailed), .verilatorReceiver none))

/-- Read beats until one is marked last. -/
def receiveLoop
    (order : ByteOrder)
    (fd : Nat) :
    Nat → List UInt8 → TransportProgram
  | 0, _ =>
      .done (.received (.error .unknown), .verilatorReceiver (some fd))
  | bound + 1, packet =>
      .work fd
        (Description.onInlet
          (TsnGen.VerilatorReceiver.readAll sizeofBeat))
        fun
        | .error code =>
            .done (.received (.error code), .verilatorReceiver (some fd))
        | .ok memory =>
            let beat := AxiStreamBeat.ofBytes order memory
            if beat.tlast ≠ 0 then
              .done
                (.received (.ok (packet ++ beat.payload)),
                  .verilatorReceiver (some fd))
            else
              receiveLoop order fd bound (packet ++ beat.payload)

/-- Receive one packet; it has no more beats than there are bytes. -/
def receive
    (order : ByteOrder)
    (mSockFd : Option Nat) : TransportProgram :=
  match mSockFd with
  | none =>
      .done (.received (.error .notOpen), .verilatorReceiver none)
  | some fd =>
      .work fd
        (Description.onInlet fun inlet => (inlet.unread.length + 1, inlet))
        fun bound => receiveLoop order fd bound []

/-- Close the socket if it is connected. -/
def close
    (mSockFd : Option Nat) : TransportProgram :=
  closeDescriptor mSockFd (.verilatorReceiver none) (.verilatorReceiver none)

end VerilatorReceiver

/-- The program of a call of a transport. -/
def method
    (order : ByteOrder)
    (transport : NumberedTransport)
    (request : TransportRequest) : TransportProgram :=
  match transport, request with
  | .rawSender _ mIfIndex, .openTransport ifIndex attached =>
      RawSocketSender.openSocket ifIndex attached mIfIndex
  | .rawSender mSockFd mIfIndex, .send _ packet =>
      RawSocketSender.send packet mSockFd mIfIndex
  | .rawSender mSockFd mIfIndex, .close =>
      RawSocketSender.close mSockFd mIfIndex
  | .pcapSender _, .openTransport _ _ => PcapSender.openFile order
  | .pcapSender mFd, .send time packet =>
      PcapSender.send order time packet mFd
  | .pcapSender mFd, .close => PcapSender.close mFd
  | .verilatorSender _, .openTransport _ attached =>
      VerilatorSender.openSocket attached
  | .verilatorSender mSockFd, .send _ packet =>
      VerilatorSender.send order packet mSockFd
  | .verilatorSender mSockFd, .close => VerilatorSender.close mSockFd
  | .rawReceiver _, .openTransport ifIndex attached =>
      RawSocketReceiver.openSocket ifIndex attached
  | .rawReceiver mSockFd, .receive => RawSocketReceiver.receive mSockFd
  | .rawReceiver mSockFd, .close => RawSocketReceiver.close mSockFd
  | .pcapReceiver _ mSwap, .openTransport _ _ =>
      PcapReceiver.openFile order mSwap
  | .pcapReceiver mFd mSwap, .receive =>
      PcapReceiver.receive order mFd mSwap
  | .pcapReceiver mFd mSwap, .close => PcapReceiver.close mFd mSwap
  | .verilatorReceiver _, .openTransport _ attached =>
      VerilatorReceiver.openSocket attached
  | .verilatorReceiver mSockFd, .receive =>
      VerilatorReceiver.receive order mSockFd
  | .verilatorReceiver mSockFd, .close => VerilatorReceiver.close mSockFd
  | other, _ => .done (.noMethod, other)

/-- Whether a call opens. -/
def opens : TransportRequest → Bool
  | .openTransport _ _ => true
  | _ => false

/-- The transports as a class of objects that hold descriptors. -/
def descriptorClass
    (order : ByteOrder) :
    HandleClass Description NumberedTransport TransportRequest
      TransportReply where
  held := held
  method := method order
  opens := opens

/-- The machine that a transport is, with what is behind its number. -/
def view
    (transport : NumberedTransport)
    (table : HandleTable Description) : SenderDevice ⊕ ReceiverDevice :=
  let behind := transport.held.bind table
  match transport with
  | .rawSender _ mIfIndex =>
      .inl (.raw
        { mSockFd := behind.map Description.socket, mIfIndex := mIfIndex })
  | .pcapSender _ => .inl (.pcap { mFd := behind.map Description.outlet })
  | .verilatorSender _ =>
      .inl (.verilator { mSockFd := behind.map Description.outlet })
  | .rawReceiver _ =>
      .inr (.raw { mSockFd := behind.map Description.arrivals })
  | .pcapReceiver _ mSwap =>
      .inr (.pcap
        { mFd := behind.map Description.inlet, mSwap := mSwap })
  | .verilatorReceiver _ =>
      .inr (.verilator { mSockFd := behind.map Description.inlet })

/-- What a machine with streams of its own makes of a call. -/
@[simp] def perform
    (order : ByteOrder)
    (request : TransportRequest)
    (offers : List (Option Description))
    (device : SenderDevice ⊕ ReceiverDevice) :
    TransportReply × (SenderDevice ⊕ ReceiverDevice) :=
  let offered := offers.head?.getD none
  match device, request with
  | .inl (.raw device), .openTransport ifIndex attached =>
      let result :=
        device.openSocket (offered.map Description.socket) ifIndex attached
      (.sender result.1, .inl (.raw result.2))
  | .inl (.raw device), .send _ packet =>
      let result := device.send packet
      (.sender result.1, .inl (.raw result.2))
  | .inl (.raw device), .close => (.closed, .inl (.raw device.close))
  | .inl (.pcap _), .openTransport _ _ =>
      let result :=
        TsnGen.PcapSender.openFile order (offered.map Description.outlet)
      (.sender result.1, .inl (.pcap result.2))
  | .inl (.pcap device), .send time packet =>
      let result := device.send order (time, packet)
      (.sender result.1, .inl (.pcap result.2))
  | .inl (.pcap device), .close => (.closed, .inl (.pcap device.close))
  | .inl (.verilator _), .openTransport _ attached =>
      let result :=
        TsnGen.VerilatorSender.openSocket
          (if attached then offered.map Description.outlet else none)
      (.sender result.1, .inl (.verilator result.2))
  | .inl (.verilator device), .send _ packet =>
      let result := device.send order packet
      (.sender result.1, .inl (.verilator result.2))
  | .inl (.verilator device), .close =>
      (.closed, .inl (.verilator device.close))
  | .inr (.raw _), .openTransport ifIndex attached =>
      let result :=
        TsnGen.RawSocketReceiver.openSocket
          (offered.map Description.arrivals) ifIndex attached
      (.opened result.1, .inr (.raw result.2))
  | .inr (.raw device), .receive =>
      let result := device.receive
      (.received result.1, .inr (.raw result.2))
  | .inr (.raw device), .close => (.closed, .inr (.raw device.close))
  | .inr (.pcap device), .openTransport _ _ =>
      let result := device.openFile order (offered.map Description.inlet)
      (.opened result.1, .inr (.pcap result.2))
  | .inr (.pcap device), .receive =>
      let result := device.receive order
      (.received result.1, .inr (.pcap result.2))
  | .inr (.pcap device), .close => (.closed, .inr (.pcap device.close))
  | .inr (.verilator _), .openTransport _ attached =>
      let result :=
        TsnGen.VerilatorReceiver.openSocket
          (if attached then offered.map Description.inlet else none)
      (.opened result.1, .inr (.verilator result.2))
  | .inr (.verilator device), .receive =>
      let result := device.receive order
      (.received result.1, .inr (.verilator result.2))
  | .inr (.verilator device), .close =>
      (.closed, .inr (.verilator device.close))
  | other, _ => (.noMethod, other)

/-- The machines as objects that are alone. -/
def machine
    (order : ByteOrder) :
    AloneObject Description NumberedTransport TransportRequest
      TransportReply (SenderDevice ⊕ ReceiverDevice) where
  view := view
  perform := perform order

variable {order : ByteOrder}
variable {offers : List (Option Description)}

/-- The precondition of a call: it keeps to the descriptor that is held. -/
abbrev Kept
    (order : ByteOrder)
    (transport : NumberedTransport)
    (request : TransportRequest)
    (offers : List (Option Description))
    (own : Option (Nat × Description)) :
    TransportProgram → List (Option Description) →
      HandleTable Description → Prop :=
  HandleProgram.wp
    ((descriptorClass order).Keeps (machine order) transport request offers
      own)

/-- Closing keeps to the descriptor. -/
theorem closeDescriptor_kept
    {transport unopened closed : NumberedTransport}
    {own : Option (Nat × Description)}
    (isUnopened : unopened.held = none)
    (isClosed : closed.held = none)
    (unopenedCloses :
      own = none →
        (TransportReply.closed, unopened.view (.owned none)) =
          perform order .close offers (transport.view (.owned own)))
    (closes :
      own ≠ none →
        (TransportReply.closed, closed.view (.owned none)) =
          perform order .close offers (transport.view (.owned own))) :
    Kept order transport .close offers own
      (closeDescriptor (own.map Prod.fst) unopened closed) offers
      (.owned own) := by
  cases own with
  | none =>
      exact fun _ => ⟨none, rfl, isUnopened, unopenedCloses rfl⟩
  | some handle =>
      refine HandleProgram.wp_release_owned fun _ => ?_
      exact ⟨none, rfl, isClosed, closes (Option.some_ne_none handle)⟩

namespace RawSocketSender

/-- Opening keeps to the new descriptor. -/
theorem openSocket_kept
    (ifIndex : Option Int)
    (bound : Bool)
    (mSockFd : Option Nat)
    (mIfIndex : Int)
    (own : Option (Nat × Description)) :
    Kept order (.rawSender mSockFd mIfIndex)
      (.openTransport ifIndex bound) offers own
      (openSocket ifIndex bound mIfIndex) offers (.owned none) := by
  refine HandleProgram.wp_acquire_owned (fun refused _ => ?_)
    fun fd item offered => HandleProgram.wp_work_owned ?_
  · refine ⟨none, rfl, rfl, ?_⟩
    simp [machine, view, refused,
      TsnGen.RawSocketSender.openSocket]
  · cases ifIndex with
    | none =>
        refine HandleProgram.wp_release_owned fun _ => ⟨none, rfl, rfl, ?_⟩
        simp [machine, view, offered,
          TsnGen.RawSocketSender.openSocket]
    | some index =>
        refine HandleProgram.wp_work_owned ?_
        cases bound with
        | true =>
            refine fun _ => ⟨some (fd, item), rfl, rfl, ?_⟩
            simp [machine, view, offered,
              TsnGen.RawSocketSender.openSocket]
        | false =>
            refine HandleProgram.wp_release_owned fun _ =>
              ⟨none, rfl, rfl, ?_⟩
            simp [machine, view, offered,
              TsnGen.RawSocketSender.openSocket]

/-- A frame is sent over the descriptor that is held. -/
theorem send_kept
    (time : Timespec)
    (packet : List UInt8)
    (mIfIndex : Int)
    (own : Option (Nat × Description)) :
    Kept order (.rawSender (own.map Prod.fst) mIfIndex)
      (.send time packet) offers own
      (send packet (own.map Prod.fst) mIfIndex) offers (.owned own) := by
  cases own with
  | none =>
      exact fun _ => ⟨none, rfl, rfl, rfl⟩
  | some handle =>
      obtain ⟨fd, item⟩ := handle
      refine HandleProgram.wp_work_owned fun _ => ⟨_, rfl, rfl, ?_⟩
      cases refused : item.socket.refusals.head?.getD false with
      | _ =>
          simp [machine, view, Description.sendto,
            TsnGen.RawSocketSender.send, refused]

/-- Closing keeps to the descriptor that is held. -/
theorem close_kept
    (mIfIndex : Int)
    (own : Option (Nat × Description)) :
    Kept order (.rawSender (own.map Prod.fst) mIfIndex) .close offers own
      (close (own.map Prod.fst) mIfIndex) offers (.owned own) := by
  refine closeDescriptor_kept rfl rfl ?_ ?_
  · rintro rfl
    rfl
  · intro isOpen
    obtain ⟨⟨fd, item⟩, rfl⟩ := Option.ne_none_iff_exists'.mp isOpen
    simp [view, TsnGen.RawSocketSender.close,
      TsnGen.RawSocketSender.fresh]

end RawSocketSender

namespace PcapSender

/-- Opening keeps to the new descriptor. -/
theorem openFile_kept
    (ifIndex : Option Int)
    (attached : Bool)
    (mFd : Option Nat)
    (own : Option (Nat × Description)) :
    Kept order (.pcapSender mFd) (.openTransport ifIndex attached) offers
      own (openFile order) offers (.owned none) := by
  refine HandleProgram.wp_acquire_owned (fun refused _ => ?_)
    fun fd item offered => HandleProgram.wp_work_owned ?_
  · refine ⟨none, rfl, rfl, ?_⟩
    simp [machine, view, refused,
      TsnGen.PcapSender.openFile]
  · cases written :
        (TsnGen.PcapSender.writeAll (pcapGlobalHeader order)
          item.outlet).1 with
    | true =>
        simp only [Description.onOutlet, written, if_true]
        refine fun _ => ⟨_, rfl, rfl, ?_⟩
        simp [machine, view, offered,
          TsnGen.PcapSender.openFile, written]
    | false =>
        simp only [Description.onOutlet, written, Bool.false_eq_true,
          if_false]
        refine HandleProgram.wp_release_owned fun _ => ⟨none, rfl, rfl, ?_⟩
        simp [machine, view, offered,
          TsnGen.PcapSender.openFile, written]

/-- A record is written to the descriptor that is held. -/
theorem send_kept
    (time : Timespec)
    (packet : List UInt8)
    (own : Option (Nat × Description)) :
    Kept order (.pcapSender (own.map Prod.fst)) (.send time packet) offers
      own (send order time packet (own.map Prod.fst)) offers
      (.owned own) := by
  cases own with
  | none =>
      exact fun _ => ⟨none, rfl, rfl, rfl⟩
  | some handle =>
      obtain ⟨fd, item⟩ := handle
      refine HandleProgram.wp_work_owned ?_
      cases headed :
          (TsnGen.PcapSender.writeAll
            ((PcapPacketHeader.ofPacket time packet).bytes order)
            item.outlet).1 with
      | true =>
          simp only [Description.onOutlet, headed, if_true]
          refine HandleProgram.wp_work_owned fun _ => ⟨_, rfl, rfl, ?_⟩
          simp [machine, view, Description.onOutlet,
            TsnGen.PcapSender.send, headed]
          rfl
      | false =>
          simp only [Description.onOutlet, headed, Bool.false_eq_true,
            if_false]
          refine fun _ => ⟨_, rfl, rfl, ?_⟩
          simp [machine, view, TsnGen.PcapSender.send,
            headed]

/-- Closing keeps to the descriptor that is held. -/
theorem close_kept
    (own : Option (Nat × Description)) :
    Kept order (.pcapSender (own.map Prod.fst)) .close offers own
      (close (own.map Prod.fst)) offers (.owned own) :=
  closeDescriptor_kept rfl rfl (fun _ => rfl) fun _ => rfl

end PcapSender

namespace VerilatorSender

/-- Opening keeps to the new descriptor. -/
theorem openSocket_kept
    (ifIndex : Option Int)
    (connected : Bool)
    (mSockFd : Option Nat)
    (own : Option (Nat × Description)) :
    Kept order (.verilatorSender mSockFd)
      (.openTransport ifIndex connected) offers own
      (openSocket connected) offers (.owned none) := by
  refine HandleProgram.wp_acquire_owned (fun refused _ => ?_)
    fun fd item offered => HandleProgram.wp_work_owned ?_
  · refine ⟨none, rfl, rfl, ?_⟩
    simp [machine, view, refused,
      TsnGen.VerilatorSender.openSocket, TsnGen.VerilatorSender.fresh]
  · cases connected with
    | true =>
        refine fun _ => ⟨some (fd, item), rfl, rfl, ?_⟩
        simp [machine, view, offered,
          TsnGen.VerilatorSender.openSocket]
    | false =>
        refine HandleProgram.wp_release_owned fun _ => ⟨none, rfl, rfl, ?_⟩
        simp [machine, view,
          TsnGen.VerilatorSender.openSocket, TsnGen.VerilatorSender.fresh]

/-- The beats are written to the descriptor that is held. -/
theorem sendLoop_kept
    {transport : NumberedTransport}
    {request : TransportRequest}
    {own : Option (Nat × Description)}
    (remaining : List UInt8)
    (fd : Nat)
    (item : Description)
    (performed :
      perform order request offers (transport.view (.owned own)) =
        (.sender
            (TsnGen.VerilatorSender.sendLoop order remaining
              item.outlet).1,
          .inl (.verilator
            { mSockFd :=
                some (TsnGen.VerilatorSender.sendLoop order remaining
                  item.outlet).2 }))) :
    Kept order transport request offers own
      (sendLoop order fd remaining) offers
      (.owned (some (fd, item))) := by
  induction remaining using sendLoop.induct generalizing item with
  | case1 =>
      rw [sendLoop]
      rw [TsnGen.VerilatorSender.sendLoop] at performed
      refine fun _ => ⟨some (fd, item), rfl, rfl, ?_⟩
      refine Eq.trans ?_ performed.symm
      simp [machine, view]
  | case2 first rest inductionHypothesis =>
      rw [sendLoop]
      rw [TsnGen.VerilatorSender.sendLoop] at performed
      refine HandleProgram.wp_work_owned ?_
      split at performed
      next written =>
        split
        · exact inductionHypothesis _ performed
        next refused =>
          exact absurd written refused
      next refused =>
        split
        next written =>
          exact absurd written refused
        · refine fun _ => ⟨_, rfl, rfl, ?_⟩
          refine Eq.trans ?_ performed.symm
          simp [machine, view, Description.onOutlet]

/-- A packet is sent over the descriptor that is held. -/
theorem send_kept
    (time : Timespec)
    (packet : List UInt8)
    (own : Option (Nat × Description)) :
    Kept order (.verilatorSender (own.map Prod.fst)) (.send time packet)
      offers own (send order packet (own.map Prod.fst)) offers
      (.owned own) := by
  cases own with
  | none =>
      exact fun _ => ⟨none, rfl, rfl, rfl⟩
  | some handle =>
      obtain ⟨fd, item⟩ := handle
      simp only [Option.map_some, send]
      by_cases isEmpty : packet.isEmpty = true
      · rw [if_pos isEmpty]
        refine fun _ => ⟨some (fd, item), rfl, rfl, ?_⟩
        simp [machine, view, TsnGen.VerilatorSender.send,
          isEmpty]
      · rw [if_neg isEmpty]
        refine sendLoop_kept packet fd item ?_
        simp [view, TsnGen.VerilatorSender.send, isEmpty]

/-- Closing keeps to the descriptor that is held. -/
theorem close_kept
    (own : Option (Nat × Description)) :
    Kept order (.verilatorSender (own.map Prod.fst)) .close offers own
      (close (own.map Prod.fst)) offers (.owned own) :=
  closeDescriptor_kept rfl rfl (fun _ => rfl) fun _ => rfl

end VerilatorSender

namespace RawSocketReceiver

/-- Opening keeps to the new descriptor. -/
theorem openSocket_kept
    (ifIndex : Option Int)
    (bound : Bool)
    (mSockFd : Option Nat)
    (own : Option (Nat × Description)) :
    Kept order (.rawReceiver mSockFd) (.openTransport ifIndex bound) offers
      own (openSocket ifIndex bound) offers (.owned none) := by
  refine HandleProgram.wp_acquire_owned (fun refused _ => ?_)
    fun fd item offered => HandleProgram.wp_work_owned ?_
  · refine ⟨none, rfl, rfl, ?_⟩
    simp [machine, view, refused,
      TsnGen.RawSocketReceiver.openSocket]
  · cases ifIndex with
    | none =>
        refine HandleProgram.wp_release_owned fun _ => ⟨none, rfl, rfl, ?_⟩
        simp [machine, view, offered,
          TsnGen.RawSocketReceiver.openSocket]
    | some index =>
        refine HandleProgram.wp_work_owned ?_
        cases bound with
        | true =>
            refine fun _ => ⟨some (fd, item), rfl, rfl, ?_⟩
            simp [machine, view, offered,
              TsnGen.RawSocketReceiver.openSocket]
        | false =>
            refine HandleProgram.wp_release_owned fun _ =>
              ⟨none, rfl, rfl, ?_⟩
            simp [machine, view, offered,
              TsnGen.RawSocketReceiver.openSocket]

/-- A frame is received from the descriptor that is held. -/
theorem receive_kept
    (own : Option (Nat × Description)) :
    Kept order (.rawReceiver (own.map Prod.fst)) .receive offers own
      (receive (own.map Prod.fst)) offers (.owned own) := by
  cases own with
  | none =>
      exact fun _ => ⟨none, rfl, rfl, rfl⟩
  | some handle =>
      obtain ⟨fd, item⟩ := handle
      refine HandleProgram.wp_work_owned fun _ => ⟨_, rfl, rfl, ?_⟩
      cases arrivals : item.arrivals with
      | nil =>
          simp [machine, view, Description.recvfrom,
            TsnGen.RawSocketReceiver.receive, arrivals]
      | cons arrival later =>
          cases arrival with
          | _ =>
              simp [machine, view, Description.recvfrom,
                TsnGen.RawSocketReceiver.receive, arrivals]

/-- Closing keeps to the descriptor that is held. -/
theorem close_kept
    (own : Option (Nat × Description)) :
    Kept order (.rawReceiver (own.map Prod.fst)) .close offers own
      (close (own.map Prod.fst)) offers (.owned own) :=
  closeDescriptor_kept rfl rfl (fun _ => rfl) fun _ => rfl

end RawSocketReceiver

namespace PcapReceiver

/-- Opening keeps to the new descriptor. -/
theorem openFile_kept
    (ifIndex : Option Int)
    (attached : Bool)
    (mFd : Option Nat)
    (mSwap : Bool)
    (own : Option (Nat × Description)) :
    Kept order (.pcapReceiver mFd mSwap) (.openTransport ifIndex attached)
      offers own (openFile order mSwap) offers (.owned none) := by
  refine HandleProgram.wp_acquire_owned (fun refused _ => ?_)
    fun fd item offered => HandleProgram.wp_work_owned ?_
  · refine ⟨none, rfl, rfl, ?_⟩
    simp [machine, view, refused,
      TsnGen.PcapReceiver.openFile]
  · cases read : TsnGen.PcapReceiver.readAll 24 item.inlet with
    | mk header left =>
        cases header with
        | none =>
            simp only [Description.onInlet, read]
            refine HandleProgram.wp_release_owned fun _ =>
              ⟨none, rfl, rfl, ?_⟩
            simp [machine, view, offered,
              TsnGen.PcapReceiver.openFile, read]
        | some header =>
            simp only [Description.onInlet, read]
            by_cases isSwapped :
                TsnGen.PcapReceiver.wordAt order header 0 = 0xD4C3B2A1
            · rw [if_pos isSwapped]
              refine fun _ => ⟨_, rfl, rfl, ?_⟩
              simp [machine, view, offered,
                TsnGen.PcapReceiver.openFile, read, isSwapped]
            · rw [if_neg isSwapped]
              by_cases isOther :
                  TsnGen.PcapReceiver.wordAt order header 0 ≠ 0xA1B2C3D4
              · rw [if_pos isOther]
                refine HandleProgram.wp_release_owned fun _ =>
                  ⟨none, rfl, rfl, ?_⟩
                simp [machine, view, offered,
                  TsnGen.PcapReceiver.openFile, read, isSwapped, isOther]
              · rw [if_neg isOther]
                refine fun _ => ⟨_, rfl, rfl, ?_⟩
                simp [machine, view, offered,
                  TsnGen.PcapReceiver.openFile, read, isSwapped, isOther]

/-- A record is read from the descriptor that is held. -/
theorem receive_kept
    (mSwap : Bool)
    (own : Option (Nat × Description)) :
    Kept order (.pcapReceiver (own.map Prod.fst) mSwap) .receive offers own
      (receive order (own.map Prod.fst) mSwap) offers (.owned own) := by
  cases own with
  | none =>
      exact fun _ => ⟨none, rfl, rfl, rfl⟩
  | some handle =>
      obtain ⟨fd, item⟩ := handle
      refine HandleProgram.wp_work_owned ?_
      cases read : TsnGen.PcapReceiver.readAll 16 item.inlet with
      | mk header left =>
          cases header with
          | none =>
              simp only [Description.onInlet, read]
              refine fun _ => ⟨_, rfl, rfl, ?_⟩
              simp [machine, view,
                TsnGen.PcapReceiver.receive, read]
          | some header =>
              simp only [Description.onInlet, read]
              generalize isLength :
                (if mSwap then
                  swap32 (TsnGen.PcapReceiver.wordAt order header 8)
                else
                  TsnGen.PcapReceiver.wordAt order header 8) = inclLen
              by_cases isZero : inclLen = 0
              · rw [if_pos isZero]
                refine fun _ => ⟨_, rfl, rfl, ?_⟩
                simp [machine, view,
                  TsnGen.PcapReceiver.receive, read, isLength, isZero]
              · rw [if_neg isZero]
                refine HandleProgram.wp_work_owned ?_
                cases filled :
                    TsnGen.PcapReceiver.readAll inclLen.toNat left with
                | mk packet behind =>
                    cases packet with
                    | _ =>
                        simp only [Description.onInlet, filled]
                        refine fun _ => ⟨_, rfl, rfl, ?_⟩
                        simp [machine, view,
                          TsnGen.PcapReceiver.receive, read, isLength,
                          isZero, filled]

/-- Closing keeps to the descriptor that is held. -/
theorem close_kept
    (mSwap : Bool)
    (own : Option (Nat × Description)) :
    Kept order (.pcapReceiver (own.map Prod.fst) mSwap) .close offers own
      (close (own.map Prod.fst) mSwap) offers (.owned own) :=
  closeDescriptor_kept rfl rfl (fun isNone => by subst isNone; rfl)
    fun _ => rfl

end PcapReceiver

namespace VerilatorReceiver

/-- Opening keeps to the new descriptor. -/
theorem openSocket_kept
    (ifIndex : Option Int)
    (connected : Bool)
    (mSockFd : Option Nat)
    (own : Option (Nat × Description)) :
    Kept order (.verilatorReceiver mSockFd)
      (.openTransport ifIndex connected) offers own
      (openSocket connected) offers (.owned none) := by
  refine HandleProgram.wp_acquire_owned (fun refused _ => ?_)
    fun fd item offered => HandleProgram.wp_work_owned ?_
  · refine ⟨none, rfl, rfl, ?_⟩
    simp [machine, view, refused,
      TsnGen.VerilatorReceiver.openSocket, TsnGen.VerilatorReceiver.fresh]
  · cases connected with
    | true =>
        refine fun _ => ⟨some (fd, item), rfl, rfl, ?_⟩
        simp [machine, view, offered,
          TsnGen.VerilatorReceiver.openSocket]
    | false =>
        refine HandleProgram.wp_release_owned fun _ => ⟨none, rfl, rfl, ?_⟩
        simp [machine, view,
          TsnGen.VerilatorReceiver.openSocket,
          TsnGen.VerilatorReceiver.fresh]

/-- The beats are read from the descriptor that is held. -/
theorem receiveLoop_kept
    {transport : NumberedTransport}
    {request : TransportRequest}
    {own : Option (Nat × Description)}
    (fd : Nat)
    (bound : Nat)
    (packet : List UInt8)
    (item : Description)
    (performed :
      perform order request offers (transport.view (.owned own)) =
        (.received
            (TsnGen.VerilatorReceiver.receiveLoop order bound packet
              item.inlet).1,
          .inr (.verilator
            { mSockFd :=
                some (TsnGen.VerilatorReceiver.receiveLoop order bound
                  packet item.inlet).2 }))) :
    Kept order transport request offers own
      (receiveLoop order fd bound packet) offers
      (.owned (some (fd, item))) := by
  induction bound generalizing packet item with
  | zero =>
      refine fun _ => ⟨some (fd, item), rfl, rfl, ?_⟩
      refine Eq.trans ?_ performed.symm
      simp [machine, view, TsnGen.VerilatorReceiver.receiveLoop]
  | succ bound inductionHypothesis =>
      refine HandleProgram.wp_work_owned ?_
      rw [TsnGen.VerilatorReceiver.receiveLoop] at performed
      cases read :
          TsnGen.VerilatorReceiver.readAll sizeofBeat item.inlet with
      | mk memory left =>
          rw [read] at performed
          cases memory with
          | error code =>
              simp only [Description.onInlet, read]
              refine fun _ => ⟨_, rfl, rfl, ?_⟩
              refine Eq.trans ?_ performed.symm
              simp [machine, view]
          | ok memory =>
              simp only [Description.onInlet, read]
              simp only at performed
              by_cases isLast :
                  (AxiStreamBeat.ofBytes order memory).tlast ≠ 0
              · rw [if_pos isLast] at performed ⊢
                refine fun _ => ⟨_, rfl, rfl, ?_⟩
                refine Eq.trans ?_ performed.symm
                simp [machine, view]
              · rw [if_neg isLast] at performed ⊢
                exact inductionHypothesis _ _ performed

/-- A packet is received from the descriptor that is held. -/
theorem receive_kept
    (own : Option (Nat × Description)) :
    Kept order (.verilatorReceiver (own.map Prod.fst)) .receive offers own
      (receive order (own.map Prod.fst)) offers (.owned own) := by
  cases own with
  | none =>
      exact fun _ => ⟨none, rfl, rfl, rfl⟩
  | some handle =>
      obtain ⟨fd, item⟩ := handle
      refine HandleProgram.wp_work_owned ?_
      refine receiveLoop_kept fd _ [] _ ?_
      simp [view, TsnGen.VerilatorReceiver.receive,
        Description.onInlet]

/-- Closing keeps to the descriptor that is held. -/
theorem close_kept
    (own : Option (Nat × Description)) :
    Kept order (.verilatorReceiver (own.map Prod.fst)) .close offers own
      (close (own.map Prod.fst)) offers (.owned own) :=
  closeDescriptor_kept rfl rfl (fun _ => rfl) fun _ => rfl

end VerilatorReceiver

/-- A class without the method does nothing. -/
theorem noMethod_kept
    {transport : NumberedTransport}
    {request : TransportRequest}
    {own : Option (Nat × Description)}
    (isHeld : transport.held = own.map Prod.fst)
    (performed :
      perform order request offers (transport.view (.owned own)) =
        (.noMethod, transport.view (.owned own))) :
    Kept order transport request offers own
      (.done (.noMethod, transport)) offers (.owned own) :=
  fun _ => ⟨own, rfl, isHeld, performed.symm⟩

/-- The transports are disciplined. -/
theorem disciplined
    (order : ByteOrder) :
    (descriptorClass order).Disciplined (machine order) := by
  refine HandleClass.disciplined_of_keeps ?_ ?_ ?_
  · intro transport table other agree
    have same : transport.held.bind table = transport.held.bind other := by
      cases isHeld : transport.held with
      | none =>
          rfl
      | some number =>
          exact agree number isHeld
    simp only [machine, view, same]
  · intro transport request offers own uses isHeld
    cases transport with
    | rawSender mSockFd mIfIndex =>
        obtain rfl : mSockFd = own.map Prod.fst := isHeld
        cases request with
        | openTransport ifIndex attached =>
            cases uses
        | send time packet =>
            exact RawSocketSender.send_kept time packet mIfIndex own
        | receive =>
            exact noMethod_kept rfl rfl
        | close =>
            exact RawSocketSender.close_kept mIfIndex own
    | pcapSender mFd =>
        obtain rfl : mFd = own.map Prod.fst := isHeld
        cases request with
        | openTransport ifIndex attached =>
            cases uses
        | send time packet =>
            exact PcapSender.send_kept time packet own
        | receive =>
            exact noMethod_kept rfl rfl
        | close =>
            exact PcapSender.close_kept own
    | verilatorSender mSockFd =>
        obtain rfl : mSockFd = own.map Prod.fst := isHeld
        cases request with
        | openTransport ifIndex attached =>
            cases uses
        | send time packet =>
            exact VerilatorSender.send_kept time packet own
        | receive =>
            exact noMethod_kept rfl rfl
        | close =>
            exact VerilatorSender.close_kept own
    | rawReceiver mSockFd =>
        obtain rfl : mSockFd = own.map Prod.fst := isHeld
        cases request with
        | openTransport ifIndex attached =>
            cases uses
        | send time packet =>
            exact noMethod_kept rfl rfl
        | receive =>
            exact RawSocketReceiver.receive_kept own
        | close =>
            exact RawSocketReceiver.close_kept own
    | pcapReceiver mFd mSwap =>
        obtain rfl : mFd = own.map Prod.fst := isHeld
        cases request with
        | openTransport ifIndex attached =>
            cases uses
        | send time packet =>
            exact noMethod_kept rfl rfl
        | receive =>
            exact PcapReceiver.receive_kept mSwap own
        | close =>
            exact PcapReceiver.close_kept mSwap own
    | verilatorReceiver mSockFd =>
        obtain rfl : mSockFd = own.map Prod.fst := isHeld
        cases request with
        | openTransport ifIndex attached =>
            cases uses
        | send time packet =>
            exact noMethod_kept rfl rfl
        | receive =>
            exact VerilatorReceiver.receive_kept own
        | close =>
            exact VerilatorReceiver.close_kept own
  · intro transport request offers own isOpening
    cases request with
    | openTransport ifIndex attached =>
        cases transport with
        | rawSender mSockFd mIfIndex =>
            exact RawSocketSender.openSocket_kept ifIndex attached mSockFd
              mIfIndex own
        | pcapSender mFd =>
            exact PcapSender.openFile_kept ifIndex attached mFd own
        | verilatorSender mSockFd =>
            exact VerilatorSender.openSocket_kept ifIndex attached mSockFd
              own
        | rawReceiver mSockFd =>
            exact RawSocketReceiver.openSocket_kept ifIndex attached
              mSockFd own
        | pcapReceiver mFd mSwap =>
            exact PcapReceiver.openFile_kept ifIndex attached mFd mSwap own
        | verilatorReceiver mSockFd =>
            exact VerilatorReceiver.openSocket_kept ifIndex attached
              mSockFd own
    | _ =>
        cases isOpening

end NumberedTransport

end TsnGen
