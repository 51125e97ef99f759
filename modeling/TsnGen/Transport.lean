import TsnGen.PcapTransport
import TsnGen.TrafficGenerator

namespace TsnGen

/-!
# Choosing a transport

The program delivers to any sender and reads from any receiver.  Which one it
makes is told by a text such as `pcap:/tmp/a.pcap`: the kind in front of the
first colon and a parameter behind it.  A text that names no kind makes no
transport.

The raw socket transport is modelled here, with the answers of the system calls
as its environment, and of the file and socket transports what is left: how
they are connected and closed.
-/

/-- A receiver; what it yields is up to it. -/
structure IReceiver (R : Type) where
  openReceiver : R → Except ReceiverErr Unit × R
  receive : R → Except ReceiverErr (List UInt8) × R
  close : R → R

/-- The kinds of transports. -/
inductive TransportKind where
  | raw
  | pcap
  | verilator
  deriving Repr, DecidableEq

/-- What a transport text says. -/
inductive TransportSpec where
  | absent
  | unknown (kind : String)
  | known (kind : TransportKind) (param : String)
  deriving Repr, DecidableEq

namespace TransportSpec

/-- The names of the kinds. -/
def kinds : List (String × TransportKind) :=
  [("raw", .raw), ("pcap", .pcap), ("verilator", .verilator)]

/-- Split a text at its first colon and look up the kind. -/
def read
    (spec : String) : TransportSpec :=
  if spec = "none" ∨ spec = "" then
    .absent
  else
    match spec.toList.dropWhile (· ≠ ':') with
    | [] => .absent
    | _ :: param =>
        let kind := String.ofList (spec.toList.takeWhile (· ≠ ':'))
        match kinds.lookup kind with
        | none => .unknown kind
        | some named => .known named (String.ofList param)

example : read "pcap:/tmp/a:b" = .known .pcap "/tmp/a:b" := by
  decide

end TransportSpec

namespace PcapSender

/-- Close the file, if it is open. -/
def close
    (_ : PcapSender) : PcapSender where
  mFd := none

end PcapSender

namespace VerilatorSender

/-- A sender before its socket is connected. -/
def fresh : VerilatorSender where
  mSockFd := none

/-- Connect a socket that the system calls yield. -/
def openSocket
    (descriptor : Option Outlet) : SenderErr × VerilatorSender :=
  match descriptor with
  | none => (.openFailed, fresh)
  | some outlet => (.success, { mSockFd := some outlet })

/-- Close the socket, if it is connected. -/
def close
    (_ : VerilatorSender) : VerilatorSender :=
  fresh

end VerilatorSender

namespace VerilatorReceiver

/-- A receiver before its socket is connected. -/
def fresh : VerilatorReceiver where
  mSockFd := none

/-- Connect a socket that the system calls yield. -/
def openSocket
    (descriptor : Option Inlet) : Except ReceiverErr Unit × VerilatorReceiver :=
  match descriptor with
  | none => (.error .openFailed, fresh)
  | some inlet => (.ok (), { mSockFd := some inlet })

/-- Close the socket, if it is connected. -/
def close
    (_ : VerilatorReceiver) : VerilatorReceiver :=
  fresh

end VerilatorReceiver

/-- A packet socket: the frames sent, and which of the next calls fail. -/
structure PacketSocket where
  sent : List (List UInt8)
  refusals : List Bool
  deriving Repr, DecidableEq

/-- The raw socket sender. -/
structure RawSocketSender where
  mSockFd : Option PacketSocket
  mIfIndex : Int
  deriving Repr, DecidableEq

namespace RawSocketSender

/-- A sender before it is opened. -/
def fresh : RawSocketSender where
  mSockFd := none
  mIfIndex := -1

/--
Open a socket that the system call yields: look up the interface, then bind.
-/
def openSocket
    (descriptor : Option PacketSocket)
    (ifIndex : Option Int)
    (bound : Bool)
    (sender : RawSocketSender) : SenderErr × RawSocketSender :=
  match descriptor, ifIndex with
  | none, _ => (.openFailed, { sender with mSockFd := none })
  | some _, none => (.openFailed, { sender with mSockFd := none })
  | some socket, some index =>
      if bound then
        (.success, { mSockFd := some socket, mIfIndex := index })
      else
        (.openFailed, { mSockFd := none, mIfIndex := index })

/-- Send one frame. -/
def send
    (packet : List UInt8)
    (sender : RawSocketSender) : SenderErr × RawSocketSender :=
  match sender.mSockFd with
  | none => (.notOpen, sender)
  | some socket =>
      if socket.refusals.headD false then
        (.sendFailed,
          { sender with
            mSockFd := some { socket with refusals := socket.refusals.tail } })
      else
        (.success,
          { sender with
            mSockFd := some
              { sent := socket.sent ++ [packet]
                refusals := socket.refusals.tail } })

/-- Close the socket if there is one. -/
def close
    (sender : RawSocketSender) : RawSocketSender :=
  match sender.mSockFd with
  | none => sender
  | some _ => .fresh

end RawSocketSender

/-- What a call of `recvfrom` is answered. -/
inductive Arrival where
  | frame (bytes : List UInt8)
  | interrupted
  | failed
  deriving Repr, DecidableEq

/-- The raw socket receiver: what arrives at its socket, in order. -/
structure RawSocketReceiver where
  mSockFd : Option (List Arrival)
  deriving Repr, DecidableEq

namespace RawSocketReceiver

/-- Size of the buffer a frame is received into. -/
def maxFrameBytes : Nat :=
  65535

/-- Open a socket that the system call yields, in the order of the sender. -/
def openSocket
    (descriptor : Option (List Arrival))
    (ifIndex : Option Int)
    (bound : Bool) : Except ReceiverErr Unit × RawSocketReceiver :=
  match descriptor, ifIndex with
  | none, _ => (.error .openFailed, { mSockFd := none })
  | some _, none => (.error .openFailed, { mSockFd := none })
  | some arrivals, some _ =>
      if bound then
        (.ok (), { mSockFd := some arrivals })
      else
        (.error .openFailed, { mSockFd := none })

/--
Receive one frame, of which the socket hands over what fits the buffer.  When
nothing more arrives the call waits until a signal interrupts it.
-/
def receive
    (receiver : RawSocketReceiver) :
    Except ReceiverErr (List UInt8) × RawSocketReceiver :=
  match receiver.mSockFd with
  | none => (.error .notOpen, receiver)
  | some [] => (.error .eof, receiver)
  | some (.frame bytes :: later) =>
      (.ok (bytes.take maxFrameBytes), { mSockFd := some later })
  | some (.interrupted :: later) =>
      (.error .eof, { mSockFd := some later })
  | some (.failed :: later) =>
      (.error .recvFailed, { mSockFd := some later })

/-- Close the socket if there is one. -/
def close
    (_ : RawSocketReceiver) : RawSocketReceiver where
  mSockFd := none

end RawSocketReceiver

end TsnGen
