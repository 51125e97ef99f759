import TsnGen.PcapTransport
import TsnGen.TornStream

namespace TsnGen

/-!
# Failed sends and truncated streams

Neither sender resynchronises after a send that failed in the middle of a
record: later packets are written behind the torn one and are read as its
continuation.  Neither receiver tells every torn record from the end of the
stream: the socket receiver tells none, the file receiver those that reach
into the payload.
-/

open FramedStream

namespace VerilatorSender

/-- Sending a packet writes an initial part of its beats. -/
theorem sendLoop_accepted
    (order : ByteOrder)
    (packet : List UInt8)
    (outlet : Outlet) :
    ∃ accepted missing later,
      accepted ++ missing = beatBytes order packet ∧
        (sendLoop order packet outlet).2 =
          { written := outlet.written ++ accepted, answers := later } ∧
        ((sendLoop order packet outlet).1 = .success ↔ missing = []) := by
  match packet with
  | [] =>
      refine ⟨[], [], outlet.answers, by simp, ?_, ?_⟩
      · simp [sendLoop]
      · simp [sendLoop]
  | first :: rest =>
      obtain ⟨beat, framed, sent⟩ := sendLoop_cons order first rest outlet
      obtain ⟨accepted, missing, later, whole, state, complete⟩ :=
        Descriptor.writeAll_accepted true (beat.bytes order) outlet
      have result :
          (writeAll (beat.bytes order) outlet).1 = .success ↔
            missing = [] := by
        rw [← complete, writeAll]
        by_cases written :
            (Descriptor.writeAll true (beat.bytes order) outlet).1 = true
        · simp [written]
        · simp [written]
      have shape :
          beatBytes order (first :: rest) =
            beat.bytes order ++
              beatBytes order ((first :: rest).drop 8) := by
        simp [beatBytes, framed]
      rw [sent, shape]
      by_cases beatWritten : missing = []
      · obtain ⟨others, absent, last, wholeRest, stateRest, completeRest⟩ :=
          sendLoop_accepted order ((first :: rest).drop 8)
            (writeAll (beat.bytes order) outlet).2
        rw [if_pos (result.mpr beatWritten)]
        refine ⟨beat.bytes order ++ others, absent, last, ?_, ?_,
          completeRest⟩
        · rw [List.append_assoc, wholeRest]
        · rw [beatWritten, List.append_nil] at whole
          rw [stateRest, writeAll, state, whole, List.append_assoc]
      · rw [if_neg (mt result.mp beatWritten)]
        refine ⟨accepted,
          missing ++ beatBytes order ((first :: rest).drop 8), later, ?_,
          state, ?_⟩
        · rw [← List.append_assoc, whole]
        · rw [result]
          simp [beatWritten]
termination_by packet.length

theorem send_writes
    (order : ByteOrder) :
    Writes (send order) .success (fun outlet => { mSockFd := some outlet })
      (beatBytes order) := by
  intro packet outlet
  by_cases empty : packet = []
  · refine ⟨[], [], outlet.answers, by simp [empty], ?_, ?_⟩
    · simp [send, empty]
    · simp [send, empty]
  · obtain ⟨accepted, missing, later, whole, state, complete⟩ :=
      sendLoop_accepted order packet outlet
    refine ⟨accepted, missing, later, whole, ?_, ?_⟩
    · simp [send, empty, state]
    · simpa [send, empty] using complete

/--
A send that starts where the stream ends with a whole packet, or that writes
nothing: the packet is empty or the descriptor refuses its first byte.
-/
def Clean
    (order : ByteOrder)
    (packet : List UInt8)
    (sender : VerilatorSender) : Prop :=
  ∀ outlet, sender.mSockFd = some outlet →
    packet = [] ∨ Descriptor.refuses true outlet.answers = true ∨
      AtBoundary (beatBytes order) (· ≠ []) [] outlet.written

theorem quiet_of_refuses
    (order : ByteOrder)
    {packet : List UInt8}
    {outlet : Outlet}
    (silent :
      packet = [] ∨ Descriptor.refuses true outlet.answers = true) :
    Quiet (send order) (fun outlet => { mSockFd := some outlet }) packet
      outlet := by
  cases packet with
  | nil =>
      exact ⟨outlet.answers, rfl⟩
  | cons first rest =>
      have refused : Descriptor.refuses true outlet.answers = true := by
        rcases silent with empty | refused
        · cases empty
        · exact refused
      obtain ⟨beat, -, sent⟩ := sendLoop_cons order first rest outlet
      have present : beat.bytes order ≠ [] := by
        rw [← List.length_pos_iff, AxiStreamBeat.length_bytes]
        decide
      obtain ⟨later, failed⟩ :=
        Descriptor.writeAll_of_refuses refused present
      refine ⟨later, ?_⟩
      simp [send, sent, writeAll, failed]

/-- The bytes written to the socket so far. -/
def stream
    (sender : VerilatorSender) : List UInt8 :=
  (sender.mSockFd.map Outlet.written).getD []

end VerilatorSender

namespace VerilatorReceiver

/-- The receiver hands out whole packets and reports torn ones. -/
theorem decode_reads
    (order : ByteOrder) :
    Reads (decode order) (beatBytes order) id (· ≠ []) := by
  refine ⟨?_, ?_, ?_⟩
  · intro packet present rest
    rw [decode, decodeFrom_beatBytes order present]
    rfl
  · rintro part ⟨-, packet, missing, present, absent, whole⟩
    have cut :
        part = (beatBytes order packet).take part.length := by
      rw [← whole, List.take_left]
    have inside : part.length < (beatBytes order packet).length := by
      rw [← whole, List.length_append]
      have positive := List.length_pos_iff.mpr absent
      omega
    refine ⟨.eof, ?_⟩
    rw [decode, cut]
    exact decodeFrom_cut order present inside []
  · exact ⟨.eof, decodeFrom_of_short order [] (by decide)⟩

end VerilatorReceiver

/-- Exactly empty packets leave no trace on the socket. -/
theorem traced_beatBytes
    (order : ByteOrder)
    (packets : List (List UInt8)) :
    traced (beatBytes order) packets = nonEmpty packets := by
  refine List.filter_congr ?_
  intro packet _
  cases packet with
  | nil =>
      simp
  | cons first rest =>
      have present : ∀ beat : AxiStreamBeat, beat.bytes order ≠ [] := by
        intro beat
        rw [← List.length_pos_iff, AxiStreamBeat.length_bytes]
        decide
      simp [beatBytes, AxiStreamBeat.framing_cons, present]

namespace PcapSender

theorem send_writes
    (order : ByteOrder) :
    Writes (send order) .success (fun outlet => { mFd := some outlet })
      (recordBytes order) := by
  intro stamped outlet
  obtain ⟨accepted, missing, later, whole, state, complete⟩ :=
    Descriptor.writeAll_accepted false (recordHeader order stamped) outlet
  rw [recordHeader] at state complete
  by_cases headed : missing = []
  · obtain ⟨others, absent, last, wholeRest, stateRest, completeRest⟩ :=
      Descriptor.writeAll_accepted false stamped.2
        { written := outlet.written ++ accepted, answers := later }
    rw [headed, List.append_nil] at whole
    refine ⟨accepted ++ others, absent, last, ?_, ?_, ?_⟩
    · rw [List.append_assoc, wholeRest, whole, recordBytes]
    · simp [send, writeAll, complete.mpr headed, state, stateRest]
    · simp only [send, writeAll, complete.mpr headed, state, ↓reduceIte,
        ← completeRest]
      split
      next filled =>
        simp [filled]
      next unfilled =>
        simp [unfilled]
  · have incomplete := mt complete.mp headed
    refine ⟨accepted, missing ++ stamped.2, later, ?_, ?_, ?_⟩
    · rw [← List.append_assoc, whole, recordBytes]
    · simp [send, writeAll, incomplete, state]
    · simp [send, writeAll, incomplete, headed]

/--
A send of a packet below `2^32` bytes that starts where the file ends with a
whole record, or a send whose first byte is refused.
-/
def Clean
    (order : ByteOrder)
    (stamped : Timespec × List UInt8)
    (sender : PcapSender) : Prop :=
  ∀ outlet, sender.mFd = some outlet →
    Descriptor.refuses false outlet.answers = true ∨
      stamped.2.length < 2 ^ 32 ∧
        AtBoundary (recordBytes order) (·.2.length < 2 ^ 32)
          (pcapGlobalHeader order) outlet.written

theorem quiet_of_refuses
    (order : ByteOrder)
    (stamped : Timespec × List UInt8)
    {outlet : Outlet}
    (refused : Descriptor.refuses false outlet.answers = true) :
    Quiet (send order) (fun outlet => { mFd := some outlet }) stamped
      outlet := by
  have present : recordHeader order stamped ≠ [] := by
    rw [← List.length_pos_iff, length_recordHeader]
    decide
  obtain ⟨later, failed⟩ := Descriptor.writeAll_of_refuses refused present
  rw [recordHeader] at failed
  refine ⟨later, ?_⟩
  simp [send, writeAll, failed]

/-- A file that was opened holds the global header. -/
theorem eq_of_openFile
    {order : ByteOrder}
    {writes : List Answer}
    {sender : PcapSender}
    (opened :
      openFile order (some { written := [], answers := writes }) =
        (.success, sender)) :
    ∃ later,
      sender =
        { mFd := some
            { written := pcapGlobalHeader order, answers := later } } := by
  obtain ⟨accepted, missing, later, whole, state, complete⟩ :=
    Descriptor.writeAll_accepted false (pcapGlobalHeader order)
      { written := [], answers := writes }
  by_cases headed : missing = []
  · refine ⟨later, ?_⟩
    rw [headed, List.append_nil] at whole
    simpa [openFile, writeAll, complete.mpr headed, state, whole] using
      opened.symm
  · have incomplete := mt complete.mp headed
    simp [openFile, writeAll, incomplete] at opened

/-- The bytes written to the file so far. -/
def file
    (sender : PcapSender) : List UInt8 :=
  (sender.mFd.map Outlet.written).getD []

end PcapSender

namespace PcapReceiver

/-- Less than a record header ends the file. -/
theorem decode_of_short
    (order : ByteOrder)
    (swap : Bool)
    {bytes : List UInt8}
    (short : bytes.length < 16) :
    decode order swap bytes = (.error .eof, []) := by
  rw [decode, if_pos short]

/-- What the decoder makes of the first bytes of a record. -/
theorem decode_cut
    (reader writer : ByteOrder)
    (stamped : Timespec × List UInt8)
    {kept : Nat}
    (inside : kept < (recordBytes writer stamped).length) :
    decode reader (decide (reader ≠ writer))
        ((recordBytes writer stamped).take kept) =
      if kept < 16 then
        (.error .eof, [])
      else if stamped.2.length % 2 ^ 32 = 0 then
        (.ok [], stamped.2.take (kept - 16))
      else if kept - 16 < stamped.2.length % 2 ^ 32 then
        (.error .recvFailed, [])
      else
        (.ok ((stamped.2.take (kept - 16)).take
            (stamped.2.length % 2 ^ 32)),
          (stamped.2.take (kept - 16)).drop
            (stamped.2.length % 2 ^ 32)) := by
  have size := length_recordHeader writer stamped
  by_cases short : kept < 16
  · rw [if_pos short]
    refine decode_of_short _ _ ?_
    rw [List.length_take]
    omega
  · rw [recordBytes, List.length_append, size] at inside
    have whole :
        (recordHeader writer stamped).take kept =
          recordHeader writer stamped :=
      List.take_of_length_le (by rw [size]; omega)
    have behind : (stamped.2.take (kept - 16)).length = kept - 16 := by
      rw [List.length_take]
      omega
    rw [recordBytes, List.take_append, whole, size, decode_recordHeader,
      behind, if_neg short]

/-- The receiver hands out whole packets and reports torn ones. -/
theorem decode_reads
    (reader writer : ByteOrder) :
    Reads (decode reader (decide (reader ≠ writer))) (recordBytes writer)
      Prod.snd (·.2.length < 2 ^ 32) := by
  refine ⟨?_, ?_, ?_⟩
  · intro stamped bounded rest
    exact @decode_inverts reader writer [stamped] (by simpa using bounded)
      stamped (by simp) rest
  · rintro part ⟨-, stamped, missing, bounded, absent, whole⟩
    have cut :
        part = (recordBytes writer stamped).take part.length := by
      rw [← whole, List.take_left]
    have inside :
        part.length < (recordBytes writer stamped).length := by
      rw [← whole, List.length_append]
      have positive := List.length_pos_iff.mpr absent
      omega
    have exact : stamped.2.length % 2 ^ 32 = stamped.2.length :=
      Nat.mod_eq_of_lt bounded
    rw [cut, decode_cut reader writer stamped inside, exact]
    rw [recordBytes, List.length_append, length_recordHeader] at inside
    by_cases short : part.length < 16
    · exact ⟨.eof, by rw [if_pos short]⟩
    · refine ⟨.recvFailed, ?_⟩
      rw [if_neg short, if_neg (by omega), if_pos (by omega)]
  · exact ⟨.eof, decode_of_short _ _ (by decide)⟩

end PcapReceiver

/-- A sender on a socket that nothing was written to yet. -/
def VerilatorSender.onSocket
    (writes : List Answer) : VerilatorSender where
  mSockFd := some { written := [], answers := writes }

/--
The packets received from what a run wrote to the socket are those whose send
succeeded, in order and without the empty ones.
-/
def VerilatorSender.KeepsPackets
    (order : ByteOrder)
    (packets : List (List UInt8))
    (sender : VerilatorSender) : Prop :=
  ∀ reads, Unfailing reads → ∀ calls,
    items
        (receiveTimes (VerilatorReceiver.receive order) calls
          { mSockFd := some
              { unread := (sendEach (send order) packets sender).2.stream
                answers := reads } }) =
      (nonEmpty (delivered (send order) .success packets sender)).take calls

/--
The packets received from what a run wrote to the file are those whose send
succeeded, in order.
-/
def PcapSender.KeepsPackets
    (writer reader : ByteOrder)
    (sent : List (Timespec × List UInt8))
    (sender : PcapSender) : Prop :=
  ∀ reads, Unfailing reads →
    ∃ receiver,
      PcapReceiver.openFile reader
          (some
            { unread := (sendEach (send writer) sent sender).2.file
              answers := reads }) PcapReceiver.fresh =
        (.ok (), receiver) ∧
      ∀ calls,
        items
            (receiveTimes (PcapReceiver.receive reader) calls receiver) =
          ((delivered (send writer) .success sent sender).map
            Prod.snd).take calls

theorem VerilatorSender.keepsPackets_of_clean
    {order : ByteOrder}
    {packets : List (List UInt8)}
    {writes : List Answer}
    (clean : EveryStep (send order) (Clean order) packets (onSocket writes)) :
    KeepsPackets order packets (onSocket writes) := by
  have step :
      ∀ packet outlet, Clean order packet { mSockFd := some outlet } →
        packet ≠ [] ∧
            AtBoundary (beatBytes order) (· ≠ []) [] outlet.written ∨
          Quiet (send order) (fun outlet => { mSockFd := some outlet })
            packet outlet := by
    intro packet outlet cleanStep
    rcases cleanStep outlet rfl with empty | refused | boundary
    · exact .inr (quiet_of_refuses order (.inl empty))
    · exact .inr (quiet_of_refuses order (.inr refused))
    · by_cases empty : packet = []
      · exact .inr (quiet_of_refuses order (.inl empty))
      · exact .inl ⟨empty, boundary⟩
  obtain ⟨after, bytes, final, written, received⟩ :=
    items_of_clean_run (VerilatorReceiver.decode_reads order)
      (send_writes order) (fun _ _ same => by simpa using same) step clean
  intro reads unfailing calls
  have sentBytes :
      (sendEach (send order) packets (onSocket writes)).2.stream =
        bytes := by
    rw [onSocket, final, stream]
    exact written
  rw [sentBytes,
    (VerilatorReceiver.receive_follows order).receiveTimes_eq calls
      { unread := bytes, answers := reads } unfailing,
    received calls, traced_beatBytes, List.map_id]
  rfl

theorem PcapSender.keepsPackets_of_clean
    {writer : ByteOrder}
    {sent : List (Timespec × List UInt8)}
    {writes : List Answer}
    {sender : PcapSender}
    (opened :
      openFile writer (some { written := [], answers := writes }) =
        (.success, sender))
    (clean : EveryStep (send writer) (Clean writer) sent sender)
    (reader : ByteOrder) :
    KeepsPackets writer reader sent sender := by
  obtain ⟨left, rfl⟩ := eq_of_openFile opened
  have step :
      ∀ stamped outlet, Clean writer stamped { mFd := some outlet } →
        stamped.2.length < 2 ^ 32 ∧
            AtBoundary (recordBytes writer) (·.2.length < 2 ^ 32)
              (pcapGlobalHeader writer) outlet.written ∨
          Quiet (send writer) (fun outlet => { mFd := some outlet }) stamped
            outlet := by
    intro stamped outlet cleanStep
    rcases cleanStep outlet rfl with refused | boundary
    · exact .inr (quiet_of_refuses writer stamped refused)
    · exact .inl boundary
  have allTraced :
      ∀ sent : List (Timespec × List UInt8),
        traced (recordBytes writer) sent = sent := by
    intro sent
    refine List.filter_eq_self.mpr ?_
    intro stamped _
    have size := length_recordHeader writer stamped
    have present : recordHeader writer stamped ≠ [] := by
      rw [← List.length_pos_iff, size]
      decide
    simp [recordBytes, present]
  obtain ⟨after, bytes, final, written, received⟩ :=
    items_of_clean_run (PcapReceiver.decode_reads reader writer)
      (send_writes writer) (fun _ _ same => by simpa using same) step clean
  intro reads unfailing
  obtain ⟨later, laterUnfailing, found⟩ :=
    PcapReceiver.openFile_of_unfailing reader writer bytes unfailing
  have fileBytes :
      (sendEach (send writer) sent
          { mFd := some
              { written := pcapGlobalHeader writer
                answers := left } }).2.file =
        pcapGlobalHeader writer ++ bytes := by
    rw [final, file]
    exact written
  rw [fileBytes]
  refine ⟨_, found, ?_⟩
  intro calls
  rw [(PcapReceiver.receive_follows reader
      (decide (reader ≠ writer))).receiveTimes_eq calls
        { unread := bytes, answers := later } laterUnfailing,
    received calls, allTraced]

/--
In a run of either sender in which every send starts where the stream ends with
a whole packet, or writes nothing, the packets that the receiver returns are
exactly those whose send succeeded.
-/
theorem clean_runs_keep_packets
    (order : ByteOrder)
    (packets : List (List UInt8))
    (writer reader : ByteOrder)
    (sent : List (Timespec × List UInt8))
    (writes : List Answer) :
    (EveryStep (VerilatorSender.send order) (VerilatorSender.Clean order)
        packets (VerilatorSender.onSocket writes) →
      VerilatorSender.KeepsPackets order packets
        (VerilatorSender.onSocket writes)) ∧
      ∀ sender,
        PcapSender.openFile writer
            (some { written := [], answers := writes }) =
          (.success, sender) →
        EveryStep (PcapSender.send writer) (PcapSender.Clean writer) sent
            sender →
          PcapSender.KeepsPackets writer reader sent sender :=
  ⟨VerilatorSender.keepsPackets_of_clean,
    fun _ opened clean =>
      PcapSender.keepsPackets_of_clean opened clean reader⟩

/-- Two packets, sent at the start of the epoch. -/
def stampedPackets : List (Timespec × List UInt8) :=
  [({ tvSec := 0, tvNsec := 0 }, [1, 2, 3]),
    ({ tvSec := 0, tvNsec := 0 }, [])]

/-- The second packet reaches the receiver, the refused first does not. -/
theorem clean_runs_keep_packets_refused :
    PcapSender.KeepsPackets .little .big stampedPackets
      { mFd := some
          { written := pcapGlobalHeader .little, answers := [.failed] } } := by
  refine (clean_runs_keep_packets .little [] .little .big stampedPackets
    [.moved 23, .failed]).2 _ rfl ⟨?_, ?_, trivial⟩
  · intro outlet isOutlet
    cases isOutlet
    exact .inl rfl
  · intro outlet isOutlet
    cases isOutlet
    exact .inr ⟨by decide, [], by simp, by decide⟩

/-- A send that fails behind its record header corrupts the packet after it. -/
theorem torn_record_swallows_next :
    ¬ ((∀ order packets writes,
        VerilatorSender.KeepsPackets order packets
          (VerilatorSender.onSocket writes)) ∧
      ∀ writer reader sent writes sender,
        PcapSender.openFile writer
            (some { written := [], answers := writes }) =
          (.success, sender) →
        PcapSender.KeepsPackets writer reader sent sender) := by
  rintro ⟨-, keeps⟩
  obtain ⟨receiver, opened, received⟩ :=
    keeps .little .little stampedPackets [.moved 23, .moved 15, .failed] _
      rfl [] (by decide)
  obtain rfl := congrArg Prod.snd opened
  exact absurd (received 1) (by decide)

/-- The result that a cut deserves: a failure inside a packet, else the end. -/
def cutVerdict
    (cut : Cut β) : Except ReceiverErr (List UInt8) :=
  if cut.torn.isSome then .error .recvFailed else .error .eof

/--
Cut behind a number of bytes, the stream of a run yields the packets before the
cut and then the result that the cut deserves.
-/
def VerilatorReceiver.ReportsCut
    (order : ByteOrder)
    (packets : List (List UInt8))
    (sender : VerilatorSender)
    (size : Nat) : Prop :=
  ∀ reads, Unfailing reads →
    receiveTimes (receive order)
        ((nonEmpty (cutAt (beatBytes order) packets size).whole).length + 1)
        { mSockFd := some
            { unread :=
                (sendEach (VerilatorSender.send order) packets
                  sender).2.stream.take size
              answers := reads } } =
      (nonEmpty (cutAt (beatBytes order) packets size).whole).map Except.ok ++
        [cutVerdict (cutAt (beatBytes order) packets size)]

/--
Cut a number of bytes behind its global header, the file of a run yields the
packets before the cut and then the result that the cut deserves.
-/
def PcapReceiver.ReportsCut
    (writer reader : ByteOrder)
    (sent : List (Timespec × List UInt8))
    (sender : PcapSender)
    (size : Nat) : Prop :=
  ∀ reads, Unfailing reads →
    ∃ receiver,
      openFile reader
          (some
            { unread :=
                (sendEach (PcapSender.send writer) sent
                  sender).2.file.take (24 + size)
              answers := reads }) fresh =
        (.ok (), receiver) ∧
      receiveTimes (receive reader)
          ((cutAt (recordBytes writer) sent size).whole.length + 1)
          receiver =
        ((cutAt (recordBytes writer) sent size).whole.map Prod.snd).map
            Except.ok ++
          [cutVerdict (cutAt (recordBytes writer) sent size)]

/-- A run over a socket that never fails writes the frames of its packets. -/
theorem VerilatorSender.stream_of_unfailing
    (order : ByteOrder)
    (packets : List (List UInt8))
    {writes : List Answer}
    (unfailing : Unfailing writes) :
    (sendEach (send order) packets (onSocket writes)).2.stream =
      frames (beatBytes order) packets := by
  obtain ⟨later, sent⟩ :=
    @sendEach_of_tolerated order packets
      { written := [], answers := writes }
      (Descriptor.Tolerated.of_unfailing unfailing)
  rw [onSocket, sent]
  rfl

/-- What a cut leaves of a packet reads as the end of the stream. -/
theorem VerilatorReceiver.decode_tail
    (order : ByteOrder)
    (packets : List (List UInt8))
    (size : Nat) :
    (decode order
      ((cutAt (beatBytes order) packets size).tail (beatBytes order))).1 =
        .error .eof := by
  unfold Cut.tail
  cases torn : (cutAt (beatBytes order) packets size).torn with
  | none =>
      have atEnd : decode order [] = (.error .eof, []) :=
        decodeFrom_of_short order [] (by decide)
      exact congrArg Prod.fst atEnd
  | some into =>
      obtain ⟨packet, kept⟩ := into
      obtain ⟨-, -, inside⟩ := torn_inside torn
      have present : packet ≠ [] := by
        rintro rfl
        simp at inside
      exact congrArg Prod.fst (decodeFrom_cut order present inside [])

/-- The reads of a socket do not show in what a cut stream is taken for. -/
theorem VerilatorReceiver.reportsCut_iff_decodeTimes
    (order : ByteOrder)
    (packets : List (List UInt8))
    {writes : List Answer}
    (unfailing : Unfailing writes)
    (size : Nat) :
    ReportsCut order packets (VerilatorSender.onSocket writes) size ↔
      decodeTimes (decode order)
          ((nonEmpty
            (cutAt (beatBytes order) packets size).whole).length + 1)
          ((frames (beatBytes order) packets).take size) =
        (nonEmpty (cutAt (beatBytes order) packets size).whole).map
            Except.ok ++
          [cutVerdict (cutAt (beatBytes order) packets size)] := by
  have received (calls : Nat) (reads : List Answer)
      (readsUnfailing : Unfailing reads) :=
    (receive_follows order).receiveTimes_eq calls
      { unread := (frames (beatBytes order) packets).take size
        answers := reads } readsUnfailing
  unfold ReportsCut
  rw [VerilatorSender.stream_of_unfailing order packets unfailing]
  constructor
  · intro reported
    rw [← received _ [] (by decide)]
    exact reported [] (by decide)
  · intro isDecoded reads readsUnfailing
    rw [← isDecoded]
    exact received _ reads readsUnfailing

/-- The socket receiver reports exactly the cuts at packet boundaries. -/
theorem VerilatorReceiver.reportsCut_iff
    (order : ByteOrder)
    (packets : List (List UInt8))
    {writes : List Answer}
    (unfailing : Unfailing writes)
    (size : Nat) :
    ReportsCut order packets (VerilatorSender.onSocket writes) size ↔
      (cutAt (beatBytes order) packets size).torn = none := by
  have decoded :=
    @decodeTimes_eq_iff ReceiverErr (List UInt8) (List UInt8)
      (beatBytes order) id (· ≠ []) (decode order)
      (nonEmpty (cutAt (beatBytes order) packets size).whole)
      (fun packet member present rest =>
        (decode_reads order).whole packet present rest)
      (fun packet member _ _ => ne_nil_of_mem_nonEmpty member)
      ((cutAt (beatBytes order) packets size).tail (beatBytes order))
      (cutVerdict (cutAt (beatBytes order) packets size))
  rw [List.map_id, frames_nonEmpty, ← take_frames] at decoded
  rw [reportsCut_iff_decodeTimes order packets unfailing, decoded,
    decode_tail,
    and_iff_right (fun packet member => ne_nil_of_mem_nonEmpty member)]
  unfold cutVerdict
  cases (cutAt (beatBytes order) packets size).torn with
  | none =>
      simp
  | some into =>
      simp

/-- A cut record is a failure if the cut falls into the announced payload. -/
theorem PcapReceiver.decode_cut_failed_iff
    (reader writer : ByteOrder)
    (stamped : Timespec × List UInt8)
    {kept : Nat}
    (inside : kept < (recordBytes writer stamped).length) :
    (decode reader (decide (reader ≠ writer))
        ((recordBytes writer stamped).take kept)).1 =
          .error .recvFailed ↔
      16 ≤ kept ∧ kept - 16 < stamped.2.length % 2 ^ 32 := by
  rw [decode_cut reader writer stamped inside]
  generalize stamped.2.length % 2 ^ 32 = announced
  by_cases short : kept < 16
  · have notLong : ¬ 16 ≤ kept := by omega
    simp [short, notLong]
  · have long : 16 ≤ kept := by omega
    by_cases empty : announced = 0
    · simp [short, empty]
    · by_cases reached : kept - 16 < announced
      · simp [short, empty, reached, long]
      · simp [short, empty, reached]

/-- Only a packet below `2^32` bytes is read back from its record. -/
theorem PcapReceiver.length_lt_of_decode
    {reader writer : ByteOrder}
    {stamped : Timespec × List UInt8}
    {rest : List UInt8}
    (decoded :
      (decode reader (decide (reader ≠ writer))
        (recordBytes writer stamped ++ rest)).1 = .ok stamped.2) :
    stamped.2.length < 2 ^ 32 := by
  rw [recordBytes, List.append_assoc, decode_recordHeader] at decoded
  have wrapped : stamped.2.length % 2 ^ 32 < 2 ^ 32 :=
    Nat.mod_lt _ (by decide)
  split at decoded
  next empty =>
    rw [← Except.ok.inj decoded]
    decide
  next announced =>
    split at decoded
    next truncated =>
      cases decoded
    next present =>
      have same := congrArg List.length (Except.ok.inj decoded)
      rw [List.length_take] at same
      omega

/-- A run of uninterrupted writes leaves a header and records to be cut. -/
theorem PcapSender.cut_file_of_uninterrupted
    (writer : ByteOrder)
    (sent : List (Timespec × List UInt8))
    {writes : List Answer}
    (uninterrupted : Uninterrupted writes)
    {sender : PcapSender}
    (opened :
      openFile writer (some { written := [], answers := writes }) =
        (.success, sender))
    (size : Nat) :
    (sendEach (send writer) sent sender).2.file.take (24 + size) =
      pcapGlobalHeader writer ++
        (frames (recordBytes writer) sent).take size := by
  obtain ⟨left, leftTolerated, isOpened⟩ :=
    openFile_of_tolerated writer
      (Descriptor.Tolerated.of_uninterrupted uninterrupted false)
  obtain rfl : _ = sender :=
    congrArg Prod.snd (isOpened.symm.trans opened)
  obtain ⟨later, written⟩ :=
    @sendEach_of_tolerated writer sent
      { written := pcapGlobalHeader writer, answers := left } leftTolerated
  rw [written, file]
  simp [List.take_append, List.take_of_length_le]

/-- The reads of a file do not show in what a cut file is taken for. -/
theorem PcapReceiver.reportsCut_iff_decodeTimes
    (writer reader : ByteOrder)
    (sent : List (Timespec × List UInt8))
    {writes : List Answer}
    (uninterrupted : Uninterrupted writes)
    {sender : PcapSender}
    (opened :
      PcapSender.openFile writer
          (some { written := [], answers := writes }) =
        (.success, sender))
    (size : Nat) :
    ReportsCut writer reader sent sender size ↔
      decodeTimes (decode reader (decide (reader ≠ writer)))
          ((cutAt (recordBytes writer) sent size).whole.length + 1)
          ((frames (recordBytes writer) sent).take size) =
        ((cutAt (recordBytes writer) sent size).whole.map Prod.snd).map
            Except.ok ++
          [cutVerdict (cutAt (recordBytes writer) sent size)] := by
  unfold ReportsCut
  rw [PcapSender.cut_file_of_uninterrupted writer sent uninterrupted opened]
  have received (calls : Nat) (reads : List Answer)
      (readsUnfailing : Unfailing reads) :=
    (receive_follows reader (decide (reader ≠ writer))).receiveTimes_eq
      calls
      { unread := (frames (recordBytes writer) sent).take size
        answers := reads } readsUnfailing
  constructor
  · intro reported
    obtain ⟨receiver, found, results⟩ := reported [] (by decide)
    obtain ⟨unanswered, unfailing, isFound⟩ :=
      openFile_of_unfailing reader writer
        ((frames (recordBytes writer) sent).take size)
        (by decide : Unfailing [])
    obtain rfl : _ = receiver :=
      congrArg Prod.snd (isFound.symm.trans found)
    rw [← received _ unanswered unfailing]
    exact results
  · intro isDecoded reads readsUnfailing
    obtain ⟨unanswered, unfailing, isFound⟩ :=
      openFile_of_unfailing reader writer
        ((frames (recordBytes writer) sent).take size) readsUnfailing
    refine ⟨_, isFound, ?_⟩
    rw [← isDecoded]
    exact received _ unanswered unfailing

/--
The file receiver reports a cut exactly when the packets before it are below
`2^32` bytes and it falls between packets or behind the header of a record,
inside the payload that the header announces.
-/
theorem PcapReceiver.reportsCut_iff
    (writer reader : ByteOrder)
    (sent : List (Timespec × List UInt8))
    {writes : List Answer}
    (uninterrupted : Uninterrupted writes)
    {sender : PcapSender}
    (opened :
      PcapSender.openFile writer
          (some { written := [], answers := writes }) =
        (.success, sender))
    (size : Nat) :
    ReportsCut writer reader sent sender size ↔
      (∀ stamped ∈ (cutAt (recordBytes writer) sent size).whole,
          stamped.2.length < 2 ^ 32) ∧
        ∀ stamped kept,
          (cutAt (recordBytes writer) sent size).torn =
              some (stamped, kept) →
            16 ≤ kept ∧ kept - 16 < stamped.2.length % 2 ^ 32 := by
  have decoded :=
    @decodeTimes_eq_iff ReceiverErr (List UInt8) (Timespec × List UInt8)
      (recordBytes writer) Prod.snd (·.2.length < 2 ^ 32)
      (decode reader (decide (reader ≠ writer)))
      (cutAt (recordBytes writer) sent size).whole
      (fun stamped _ bounded rest =>
        (decode_reads reader writer).whole stamped bounded rest)
      (fun stamped _ rest isDecoded => length_lt_of_decode isDecoded)
      ((cutAt (recordBytes writer) sent size).tail (recordBytes writer))
      (cutVerdict (cutAt (recordBytes writer) sent size))
  rw [← take_frames] at decoded
  rw [reportsCut_iff_decodeTimes writer reader sent uninterrupted opened,
    decoded]
  refine and_congr_right fun _ => ?_
  unfold cutVerdict Cut.tail
  cases torn : (cutAt (recordBytes writer) sent size).torn with
  | none =>
      simp [decode]
  | some into =>
      obtain ⟨stamped, kept⟩ := into
      obtain ⟨-, -, inside⟩ := torn_inside torn
      have failure := decode_cut_failed_iff reader writer stamped inside
      simpa using failure

/--
When the receivers report a cut stream as they should.  The socket receiver
does so only for cuts at packet boundaries; the file receiver also for cuts in
the payload that a record header announces.
-/
theorem truncation_reported_iff
    (order : ByteOrder)
    (packets : List (List UInt8))
    (writer reader : ByteOrder)
    (sent : List (Timespec × List UInt8))
    (writes : List Answer)
    (size : Nat) :
    (Unfailing writes →
      (VerilatorReceiver.ReportsCut order packets
          (VerilatorSender.onSocket writes) size ↔
        (cutAt (beatBytes order) packets size).torn = none)) ∧
      ∀ sender, Uninterrupted writes →
        PcapSender.openFile writer
            (some { written := [], answers := writes }) =
          (.success, sender) →
        (PcapReceiver.ReportsCut writer reader sent sender size ↔
          (∀ stamped ∈ (cutAt (recordBytes writer) sent size).whole,
              stamped.2.length < 2 ^ 32) ∧
            ∀ stamped kept,
              (cutAt (recordBytes writer) sent size).torn =
                  some (stamped, kept) →
                16 ≤ kept ∧ kept - 16 < stamped.2.length % 2 ^ 32) :=
  ⟨fun unfailing =>
      VerilatorReceiver.reportsCut_iff order packets unfailing size,
    fun _ uninterrupted opened =>
      PcapReceiver.reportsCut_iff writer reader sent uninterrupted opened
        size⟩

theorem truncated_payload_reported :
    PcapReceiver.ReportsCut .little .big stampedPackets
      { mFd := some
          { written := pcapGlobalHeader .little, answers := [] } } 17 := by
  refine ((truncation_reported_iff .little [] .little .big stampedPackets
    [.moved 23] 17).2 _ (by decide) rfl).mpr ⟨by decide, ?_⟩
  intro stamped kept torn
  have isTorn :
      (cutAt (recordBytes .little) stampedPackets 17).torn =
        some (({ tvSec := 0, tvNsec := 0 }, [1, 2, 3]), 17) := by
    decide
  rw [isTorn] at torn
  cases torn
  decide

/-- A file that ends inside a record header is reported as a clean end. -/
theorem truncated_header_unreported :
    ¬ ((∀ order packets writes size, Unfailing writes →
        VerilatorReceiver.ReportsCut order packets
          (VerilatorSender.onSocket writes) size) ∧
      ∀ writer reader sent writes sender size, Uninterrupted writes →
        PcapSender.openFile writer
            (some { written := [], answers := writes }) =
          (.success, sender) →
        PcapReceiver.ReportsCut writer reader sent sender size) := by
  rintro ⟨-, reported⟩
  obtain ⟨receiver, opened, received⟩ :=
    reported .little .little stampedPackets [] _ 1 (by decide) rfl []
      (by decide)
  obtain rfl := congrArg Prod.snd opened
  exact absurd received (by decide)

end TsnGen
