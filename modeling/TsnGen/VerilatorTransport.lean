import TsnGen.AxiStream
import TsnGen.FramedStream

namespace TsnGen

/-!
# The AXI-Stream socket transport

`VerilatorSender` frames a packet and writes its beats one struct at a time;
`VerilatorReceiver` reads structs until one is marked last.  Both run on hosts
of one byte order, which is a parameter.
-/

/-- Result codes of the senders. -/
inductive SenderErr where
  | success
  | unknown
  | openFailed
  | sendFailed
  | notOpen
  deriving Repr, DecidableEq

/-- Result codes of the receivers; a success carries the received packet. -/
inductive ReceiverErr where
  | unknown
  | openFailed
  | recvFailed
  | notOpen
  | eof
  deriving Repr, DecidableEq

/-- Size of the packed beat struct. -/
def sizeofBeat : Nat :=
  10

/-- A sender; there is no descriptor while its socket is closed. -/
structure VerilatorSender where
  mSockFd : Option Outlet
  deriving Repr, DecidableEq

namespace VerilatorSender

/-- The write loop of the socket retries interrupted calls. -/
def writeAll
    (data : List UInt8)
    (outlet : Outlet) : SenderErr × Outlet :=
  let result := Descriptor.writeAll true data outlet
  (if result.1 then .success else .sendFailed, result.2)

/-- Write the beats of what remains of a packet. -/
def sendLoop
    (order : ByteOrder)
    (remaining : List UInt8)
    (outlet : Outlet) : SenderErr × Outlet :=
  match remaining with
  | [] => (.success, outlet)
  | first :: rest =>
      let chunk := (first :: rest).take AxiStreamBeat.tdataBytes
      let isLast : Bool :=
        (first :: rest).length ≤ AxiStreamBeat.tdataBytes
      let beat := AxiStreamBeat.ofChunk chunk isLast
      let result := writeAll (beat.bytes order) outlet
      if result.1 = .success then
        sendLoop order ((first :: rest).drop AxiStreamBeat.tdataBytes)
          result.2
      else
        result
termination_by remaining.length
decreasing_by
  simp only [AxiStreamBeat.tdataBytes, List.length_drop, List.length_cons]
  omega

/-- Send one packet; an empty one needs no beat. -/
def send
    (order : ByteOrder)
    (packet : List UInt8)
    (sender : VerilatorSender) : SenderErr × VerilatorSender :=
  match sender.mSockFd with
  | none => (.notOpen, sender)
  | some outlet =>
      if packet.isEmpty then
        (.success, sender)
      else
        let result := sendLoop order packet outlet
        (result.1, { mSockFd := some result.2 })

end VerilatorSender

/-- A receiver; there is no descriptor while its socket is closed. -/
structure VerilatorReceiver where
  mSockFd : Option Inlet
  deriving Repr, DecidableEq

namespace VerilatorReceiver

/-- The read loop reports the end of the stream wherever it meets it. -/
def readAll
    (requested : Nat)
    (inlet : Inlet) : Except ReceiverErr (List UInt8) × Inlet :=
  let result := Descriptor.readAll requested inlet
  match result.1 with
  | .complete bytes => (.ok bytes, result.2)
  | .ended => (.error .eof, result.2)
  | .failed => (.error .recvFailed, result.2)

/--
Read beats until one is marked last.  Every beat takes ten bytes off the
stream, so the bound on their number is never reached.
-/
def receiveLoop
    (order : ByteOrder) :
    Nat → List UInt8 → Inlet → Except ReceiverErr (List UInt8) × Inlet
  | 0, _, inlet => (.error .unknown, inlet)
  | bound + 1, packet, inlet =>
      match readAll sizeofBeat inlet with
      | (.error code, left) => (.error code, left)
      | (.ok memory, left) =>
          let beat := AxiStreamBeat.ofBytes order memory
          if beat.tlast ≠ 0 then
            (.ok (packet ++ beat.payload), left)
          else
            receiveLoop order bound (packet ++ beat.payload) left

/-- Receive one packet. -/
def receive
    (order : ByteOrder)
    (receiver : VerilatorReceiver) :
    Except ReceiverErr (List UInt8) × VerilatorReceiver :=
  match receiver.mSockFd with
  | none => (.error .notOpen, receiver)
  | some inlet =>
      let result := receiveLoop order (inlet.unread.length + 1) [] inlet
      (result.1, { mSockFd := some result.2 })

end VerilatorReceiver

/-- The bytes of a packet on the socket. -/
def beatBytes
    (order : ByteOrder)
    (packet : List UInt8) : List UInt8 :=
  (AxiStreamBeat.framing packet).flatMap (AxiStreamBeat.bytes order)

@[simp] theorem beatBytes_nil
    (order : ByteOrder) :
    beatBytes order [] = [] := by
  rw [beatBytes, AxiStreamBeat.framing_nil]
  rfl

namespace VerilatorSender

/-- Sending goes on behind a beat that was written. -/
theorem sendLoop_cons
    (order : ByteOrder)
    (first : UInt8)
    (rest : List UInt8)
    (outlet : Outlet) :
    ∃ beat,
      AxiStreamBeat.framing (first :: rest) =
          beat :: AxiStreamBeat.framing ((first :: rest).drop 8) ∧
        sendLoop order (first :: rest) outlet =
          if (writeAll (beat.bytes order) outlet).1 = .success then
            sendLoop order ((first :: rest).drop 8)
              (writeAll (beat.bytes order) outlet).2
          else
            writeAll (beat.bytes order) outlet := by
  refine ⟨_, AxiStreamBeat.framing_cons first rest, ?_⟩
  rw [sendLoop]
  rfl

/-- Without failures every beat is written. -/
theorem sendLoop_of_tolerated
    (order : ByteOrder)
    (packet : List UInt8)
    (outlet : Outlet)
    (tolerated : Descriptor.Tolerated true outlet.answers) :
    ∃ later,
      Descriptor.Tolerated true later ∧
        sendLoop order packet outlet =
          (.success,
            { written := outlet.written ++ beatBytes order packet
              answers := later }) := by
  match packet with
  | [] =>
      exact ⟨outlet.answers, tolerated, by simp [sendLoop]⟩
  | first :: rest =>
      obtain ⟨beat, framed, sent⟩ := sendLoop_cons order first rest outlet
      obtain ⟨left, leftTolerated, written⟩ :=
        Descriptor.writeAll_of_tolerated tolerated (beat.bytes order)
      have succeeded :
          writeAll (beat.bytes order) outlet =
            (.success,
              { written := outlet.written ++ beat.bytes order
                answers := left }) := by
        simp [writeAll, written]
      obtain ⟨later, laterTolerated, sentRest⟩ :=
        sendLoop_of_tolerated order ((first :: rest).drop 8)
          (writeAll (beat.bytes order) outlet).2
          (by rw [succeeded]; exact leftTolerated)
      refine ⟨later, laterTolerated, ?_⟩
      rw [sent, sentRest, succeeded]
      simp [beatBytes, framed]
termination_by packet.length

/-- Without failures a packet is sent as its beats. -/
theorem send_of_tolerated
    (order : ByteOrder)
    (packet : List UInt8)
    {outlet : Outlet}
    (tolerated : Descriptor.Tolerated true outlet.answers) :
    ∃ later,
      Descriptor.Tolerated true later ∧
        send order packet { mSockFd := some outlet } =
          (.success,
            { mSockFd := some
                { written := outlet.written ++ beatBytes order packet
                  answers := later } }) := by
  by_cases empty : packet = []
  · refine ⟨outlet.answers, tolerated, ?_⟩
    simp [send, empty]
  · obtain ⟨later, laterTolerated, sent⟩ :=
      sendLoop_of_tolerated order packet outlet tolerated
    refine ⟨later, laterTolerated, ?_⟩
    simp [send, empty, sent]

/-- Without failures packets are sent as their beats, one after the other. -/
theorem sendEach_of_tolerated
    (order : ByteOrder)
    (packets : List (List UInt8))
    {outlet : Outlet}
    (tolerated : Descriptor.Tolerated true outlet.answers) :
    ∃ later,
      FramedStream.sendEach (send order) packets
          { mSockFd := some outlet } =
        (List.replicate packets.length .success,
          { mSockFd := some
              { written :=
                  outlet.written ++
                    FramedStream.frames (beatBytes order) packets
                answers := later } }) := by
  induction packets generalizing outlet with
  | nil =>
      exact ⟨outlet.answers, by simp [FramedStream.sendEach,
        FramedStream.frames]⟩
  | cons packet rest inductionHypothesis =>
      obtain ⟨left, leftTolerated, sent⟩ :=
        send_of_tolerated order packet tolerated
      obtain ⟨later, sentRest⟩ :=
        @inductionHypothesis
          { written := outlet.written ++ beatBytes order packet
            answers := left } leftTolerated
      refine ⟨later, ?_⟩
      simp [FramedStream.sendEach, sent, sentRest, FramedStream.frames,
        List.replicate_succ]

end VerilatorSender

namespace VerilatorReceiver

/-- What the receiver makes of the bytes it has not read yet. -/
def decodeFrom
    (order : ByteOrder)
    (packet bytes : List UInt8) :
    Except ReceiverErr (List UInt8) × List UInt8 :=
  if bytes.length < sizeofBeat then
    (.error .eof, [])
  else
    let beat := AxiStreamBeat.ofBytes order (bytes.take sizeofBeat)
    if beat.tlast ≠ 0 then
      (.ok (packet ++ beat.payload), bytes.drop sizeofBeat)
    else
      decodeFrom order (packet ++ beat.payload) (bytes.drop sizeofBeat)
termination_by bytes.length
decreasing_by
  simp only [sizeofBeat, List.length_drop] at *
  omega

/-- What a call makes of the bytes it has not read yet. -/
def decode
    (order : ByteOrder)
    (bytes : List UInt8) : Except ReceiverErr (List UInt8) × List UInt8 :=
  decodeFrom order [] bytes

/-- Without failures the loop sees only the unread bytes. -/
theorem receiveLoop_of_unfailing
    (order : ByteOrder)
    {bound : Nat}
    {inlet : Inlet}
    (enough : inlet.unread.length < bound)
    (unfailing : Unfailing inlet.answers)
    (packet : List UInt8) :
    ∃ later,
      Unfailing later ∧
        receiveLoop order bound packet inlet =
          ((decodeFrom order packet inlet.unread).1,
            { unread := (decodeFrom order packet inlet.unread).2
              answers := later }) := by
  induction bound generalizing inlet packet with
  | zero =>
      omega
  | succ bound inductionHypothesis =>
      obtain ⟨left, leftUnfailing, read⟩ :=
        Descriptor.readAll_of_unfailing unfailing sizeofBeat
      rw [receiveLoop, decodeFrom]
      by_cases short : inlet.unread.length < sizeofBeat
      · refine ⟨left, leftUnfailing, ?_⟩
        simp [readAll, read, short]
      · rw [if_neg short] at read
        by_cases last :
            (AxiStreamBeat.ofBytes order
              (inlet.unread.take sizeofBeat)).tlast ≠ 0
        · refine ⟨left, leftUnfailing, ?_⟩
          simp [readAll, read, short, last]
        · have shorter :
              (inlet.unread.drop sizeofBeat).length < bound := by
            rw [List.length_drop]
            simp only [sizeofBeat] at short ⊢
            omega
          obtain ⟨later, laterUnfailing, received⟩ :=
            @inductionHypothesis
              { unread := inlet.unread.drop sizeofBeat, answers := left }
              shorter leftUnfailing
              (packet ++ (AxiStreamBeat.ofBytes order
                (inlet.unread.take sizeofBeat)).payload)
          refine ⟨later, laterUnfailing, ?_⟩
          simpa [readAll, read, short, last] using received

/-- The receiver follows its decoder. -/
theorem receive_follows
    (order : ByteOrder) :
    FramedStream.Follows (receive order)
      (fun inlet => { mSockFd := some inlet }) (decode order) := by
  intro inlet unfailing
  obtain ⟨later, laterUnfailing, received⟩ :=
    receiveLoop_of_unfailing order (Nat.lt_succ_self _) unfailing []
  exact ⟨later, laterUnfailing, by simp [receive, received, decode]⟩

/-- Fewer bytes than a beat end the stream. -/
theorem decodeFrom_of_short
    (order : ByteOrder)
    (packet : List UInt8)
    {bytes : List UInt8}
    (short : bytes.length < sizeofBeat) :
    decodeFrom order packet bytes = (.error .eof, []) := by
  rw [decodeFrom, if_pos short]

/-- A beat in front is taken off. -/
theorem decodeFrom_beat
    (order : ByteOrder)
    (packet : List UInt8)
    (beat : AxiStreamBeat)
    (rest : List UInt8) :
    decodeFrom order packet (beat.bytes order ++ rest) =
      if beat.tlast ≠ 0 then
        (.ok (packet ++ beat.payload), rest)
      else
        decodeFrom order (packet ++ beat.payload) rest := by
  have long : ¬ (beat.bytes order ++ rest).length < sizeofBeat := by
    rw [List.length_append, AxiStreamBeat.length_bytes, sizeofBeat]
    omega
  have front : (beat.bytes order ++ rest).take sizeofBeat =
      beat.bytes order :=
    List.take_left' (AxiStreamBeat.length_bytes order beat)
  have behind : (beat.bytes order ++ rest).drop sizeofBeat = rest :=
    List.drop_left' (AxiStreamBeat.length_bytes order beat)
  rw [decodeFrom, if_neg long, front, behind, AxiStreamBeat.ofBytes_bytes]

/-- The beats of a packet are reassembled to the packet. -/
theorem decodeFrom_beatBytes
    (order : ByteOrder)
    {sent : List UInt8}
    (present : sent ≠ [])
    (packet rest : List UInt8) :
    decodeFrom order packet (beatBytes order sent ++ rest) =
      (.ok (packet ++ sent), rest) := by
  unfold beatBytes
  induction sent, present using AxiStreamBeat.framing_induction
    generalizing packet with
  | short sent present fits =>
      rw [AxiStreamBeat.framing_of_short present fits,
        List.flatMap_singleton, decodeFrom_beat,
        AxiStreamBeat.payload_ofChunk fits]
      simp [AxiStreamBeat.ofChunk]
  | long sent _ long _ inductionHypothesis =>
      have fits : (sent.take 8).length ≤ 8 := by
        rw [List.length_take]
        omega
      rw [AxiStreamBeat.framing_of_long long, List.flatMap_cons,
        List.append_assoc, decodeFrom_beat,
        AxiStreamBeat.payload_ofChunk fits, inductionHypothesis,
        List.append_assoc, List.take_append_drop]
      simp [AxiStreamBeat.ofChunk]

/-- A packet that is cut short looks like the end of the stream. -/
theorem decodeFrom_cut
    (order : ByteOrder)
    {sent : List UInt8}
    (present : sent ≠ [])
    {cut : Nat}
    (inside : cut < (beatBytes order sent).length)
    (packet : List UInt8) :
    decodeFrom order packet ((beatBytes order sent).take cut) =
      (.error .eof, []) := by
  unfold beatBytes at inside ⊢
  induction sent, present using AxiStreamBeat.framing_induction
    generalizing packet cut with
  | short sent present fits =>
      rw [AxiStreamBeat.framing_of_short present fits,
        List.flatMap_singleton] at inside ⊢
      refine decodeFrom_of_short order packet ?_
      rw [AxiStreamBeat.length_bytes] at inside
      rw [List.length_take, sizeofBeat]
      omega
  | long sent _ long _ inductionHypothesis =>
      rw [AxiStreamBeat.framing_of_long long, List.flatMap_cons] at inside ⊢
      by_cases first : cut < 10
      · refine decodeFrom_of_short order packet ?_
        rw [List.length_take, sizeofBeat]
        omega
      · rw [List.length_append, AxiStreamBeat.length_bytes] at inside
        have whole : ∀ beat : AxiStreamBeat,
            (beat.bytes order).take cut = beat.bytes order := by
          intro beat
          refine List.take_of_length_le ?_
          rw [AxiStreamBeat.length_bytes]
          omega
        rw [List.take_append, whole, AxiStreamBeat.length_bytes,
          decodeFrom_beat, inductionHypothesis (by omega)]
        simp [AxiStreamBeat.ofChunk]

/-- The receiver takes sent packets apart. -/
theorem decode_inverts
    (order : ByteOrder)
    {packets : List (List UInt8)}
    (present : ∀ packet ∈ packets, packet ≠ []) :
    FramedStream.Inverts (decode order) (beatBytes order) id packets := by
  intro packet member rest
  rw [decode, decodeFrom_beatBytes order (present packet member)]
  rfl

end VerilatorReceiver

/-- The packets that leave a trace on the socket. -/
def nonEmpty
    (packets : List (List UInt8)) : List (List UInt8) :=
  packets.filter fun packet => !packet.isEmpty

theorem ne_nil_of_mem_nonEmpty
    {packets : List (List UInt8)}
    {packet : List UInt8}
    (member : packet ∈ nonEmpty packets) :
    packet ≠ [] := by
  simpa using (List.mem_filter.mp member).2

/-- Empty packets are framed to nothing. -/
theorem frames_nonEmpty
    (order : ByteOrder)
    (packets : List (List UInt8)) :
    FramedStream.frames (beatBytes order) (nonEmpty packets) =
      FramedStream.frames (beatBytes order) packets := by
  induction packets with
  | nil =>
      rfl
  | cons packet rest inductionHypothesis =>
      unfold FramedStream.frames nonEmpty at inductionHypothesis ⊢
      by_cases empty : packet = []
      · simpa [empty] using inductionHypothesis
      · simp [empty, inductionHypothesis]

/--
Packets sent over the socket are received in order and byte for byte, the empty
ones aside, and then the stream has ended, however the writes and the reads are
split and interrupted.  What is written are the beats of the packets.
-/
theorem verilator_transport_round_trips
    (order : ByteOrder)
    (packets : List (List UInt8))
    (writes reads : List Answer)
    (writesUnfailing : Unfailing writes)
    (readsUnfailing : Unfailing reads) :
    ∃ stream later,
      FramedStream.sendEach (VerilatorSender.send order) packets
          { mSockFd := some { written := [], answers := writes } } =
        (List.replicate packets.length .success,
          { mSockFd := some { written := stream, answers := later } }) ∧
      stream =
        (packets.flatMap AxiStreamBeat.framing).flatMap
          (AxiStreamBeat.bytes order) ∧
      (∀ packet ∈ nonEmpty packets,
        AxiStreamBeat.WellFramed (AxiStreamBeat.framing packet)) ∧
      ∀ calls,
        FramedStream.receiveTimes (VerilatorReceiver.receive order) calls
            { mSockFd := some { unread := stream, answers := reads } } =
          ((nonEmpty packets).map Except.ok ++
            List.replicate calls (Except.error ReceiverErr.eof)).take calls := by
  obtain ⟨later, sent⟩ :=
    @VerilatorSender.sendEach_of_tolerated order packets
      { written := [], answers := writes }
      (Descriptor.Tolerated.of_unfailing writesUnfailing)
  refine ⟨_, later, sent, ?_, ?_, ?_⟩
  · rw [List.nil_append, FramedStream.frames, List.flatMap_assoc]
    rfl
  · intro packet member
    exact AxiStreamBeat.wellFramed_framing (ne_nil_of_mem_nonEmpty member)
  · intro calls
    have ended :
        VerilatorReceiver.decode order [] = (.error .eof, []) :=
      VerilatorReceiver.decodeFrom_of_short order [] (by decide)
    have inverts :=
      VerilatorReceiver.decode_inverts order
        fun packet (member : packet ∈ nonEmpty packets) =>
          ne_nil_of_mem_nonEmpty member
    have decoded :=
      FramedStream.decodeTimes_frames inverts calls []
    rw [List.append_nil, frames_nonEmpty, List.map_id,
      FramedStream.decodeTimes_of_stuck ended] at decoded
    rw [List.nil_append, ← decoded]
    exact (VerilatorReceiver.receive_follows order).receiveTimes_eq calls
      { unread := FramedStream.frames (beatBytes order) packets
        answers := reads } readsUnfailing

theorem verilator_transport_round_trips_split :
    ∃ stream,
      FramedStream.receiveTimes (VerilatorReceiver.receive .little) 3
          { mSockFd := some
              { unread := stream
                answers := [.moved 0, .interrupted, .moved 5] } } =
        [.ok [1, 2, 3, 4, 5, 6, 7, 8, 9], .ok [10], .error .eof] := by
  obtain ⟨stream, _, -, -, -, received⟩ :=
    verilator_transport_round_trips .little
      [[1, 2, 3, 4, 5, 6, 7, 8, 9], [], [10]]
      [.moved 3, .interrupted, .moved 0]
      [.moved 0, .interrupted, .moved 5] (by decide) (by decide)
  exact ⟨stream, received 3⟩

end TsnGen
