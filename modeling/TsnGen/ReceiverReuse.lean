import TsnGen.PcapTransport

namespace TsnGen

/-!
# Opening a pcap receiver again

A receiver may be opened many times, on contents that change between the calls.
Opening a file of the other byte order sets the receiver's flag, and no call
clears it: a later file of the host's order is then read with its lengths
turned around.  It is read as a fresh receiver reads it exactly as long as the
two readings of a length make no difference.
-/

namespace PcapReceiver

/-- A call on a receiver; a file is opened as the system call yields it. -/
inductive Call where
  | openFile (descriptor : Option Inlet)
  | receive
  | close
  deriving Repr, DecidableEq

/-- Close the file, if it is open. -/
def close
    (receiver : PcapReceiver) : PcapReceiver :=
  { receiver with mFd := none }

/-- The receiver behind a call. -/
def step
    (order : ByteOrder)
    (receiver : PcapReceiver) : Call → PcapReceiver
  | .openFile descriptor => (receiver.openFile order descriptor).2
  | .receive => (receiver.receive order).2
  | .close => receiver.close

/-- A newly constructed receiver behind a sequence of calls. -/
def after
    (order : ByteOrder)
    (history : List Call) : PcapReceiver :=
  history.foldl (step order) fresh

/-- Whether a file starts with the magic number of the other byte order. -/
def swapped
    (order : ByteOrder)
    (inlet : Inlet) : Bool :=
  match readAll 24 inlet with
  | (none, _) => false
  | (some header, _) => wordAt order header 0 = 0xD4C3B2A1

/--
Whether one of the first records has a length that another number spells in the
other byte order, and enough bytes behind its header for the smaller of the two.
-/
def turnedWithin
    (order : ByteOrder) :
    Nat → Inlet → Bool
  | 0, _ => false
  | records + 1, inlet =>
      match readAll 16 inlet with
      | (none, left) => turnedWithin order records left
      | (some header, left) =>
          let word := wordAt order header 8
          match readAll (min word.toNat (swap32 word).toNat) left with
          | (none, behind) => turnedWithin order records behind
          | (some _, behind) =>
              if word = swap32 word then
                turnedWithin order records behind
              else
                true

/--
After a history of calls a file opens and is received from as by a newly
constructed receiver.
-/
def OpenedAfresh
    (order : ByteOrder)
    (history : List Call)
    (inlet : Inlet)
    (calls : Nat) : Prop :=
  ((after order history).openFile order (some inlet)).1 =
      (fresh.openFile order (some inlet)).1 ∧
    FramedStream.receiveTimes (receive order) calls
        ((after order history).openFile order (some inlet)).2 =
      FramedStream.receiveTimes (receive order) calls
        (fresh.openFile order (some inlet)).2

instance
    (order : ByteOrder)
    (history : List Call)
    (inlet : Inlet)
    (calls : Nat) :
    Decidable (OpenedAfresh order history inlet calls) :=
  inferInstanceAs (Decidable (_ ∧ _))

/-- A read gives as many bytes as asked for. -/
theorem length_of_readAll
    {requested : Nat}
    {inlet : Inlet}
    {bytes : List UInt8}
    {behind : Inlet}
    (read : readAll requested inlet = (some bytes, behind)) :
    bytes.length = requested := by
  unfold readAll Descriptor.readAll at read
  cases complete :
      (Descriptor.readLoop [] inlet.answers requested inlet.unread).1 with
  | complete found =>
      simp only [complete, Prod.mk.injEq, Option.some.injEq] at read
      have size := Descriptor.length_of_readLoop complete
      rw [← read.1, size, List.length_nil, Nat.zero_add]
  | ended =>
      simp [complete] at read
  | failed =>
      simp [complete] at read

/-- A read that fails also fails if asked for more, and stops there. -/
theorem readAll_of_none
    {requested larger : Nat}
    {inlet behind : Inlet}
    (read : readAll requested inlet = (none, behind))
    (more : requested ≤ larger) :
    readAll larger inlet = (none, behind) := by
  have incomplete :
      ∀ bytes,
        (Descriptor.readLoop [] inlet.answers requested
          inlet.unread).1 ≠ .complete bytes := by
    intro bytes complete
    simp [readAll, Descriptor.readAll, complete] at read
  have same :
      Descriptor.readAll larger inlet = Descriptor.readAll requested inlet :=
    Descriptor.readLoop_of_incomplete incomplete more
  rw [← read, readAll, readAll, same]

/-- Reading no bytes leaves everything as it is. -/
@[simp] theorem readAll_zero
    (inlet : Inlet) :
    readAll 0 inlet = (some [], inlet) := by
  simp [readAll, Descriptor.readAll, Descriptor.readLoop]

/-- A record is its header and as many bytes as its length says. -/
theorem receive_record
    (order : ByteOrder)
    (swap : Bool)
    {inlet left : Inlet}
    {header : List UInt8}
    (headed : readAll 16 inlet = (some header, left)) :
    receive order { mFd := some inlet, mSwap := swap } =
      match readAll (inclLen order swap header) left with
      | (none, behind) =>
          (.error .recvFailed, { mFd := some behind, mSwap := swap })
      | (some packet, behind) =>
          (.ok packet, { mFd := some behind, mSwap := swap }) := by
  obtain ⟨length, isLength⟩ :
      ∃ length : UInt32,
        length =
          if swap then
            swap32 (wordAt order header 8)
          else
            wordAt order header 8 :=
    ⟨_, rfl⟩
  have spelled : inclLen order swap header = length.toNat := by
    rw [inclLen, isLength]
    split
    · rfl
    · rfl
  simp only [receive, headed, ← isLength, spelled]
  by_cases empty : length = 0
  · simp [empty]
  · rcases readAll length.toNat left with ⟨_ | packet, behind⟩
    · simp only [if_neg empty]
    · simp only [if_neg empty]

/-- A record that is complete in the smaller reading of its length differs. -/
theorem receive_of_lt
    (order : ByteOrder)
    (swap : Bool)
    {inlet left behind : Inlet}
    {header packet : List UInt8}
    (headed : readAll 16 inlet = (some header, left))
    (smaller : inclLen order swap header < inclLen order (!swap) header)
    (filled :
      readAll (inclLen order swap header) left = (some packet, behind)) :
    (receive order { mFd := some inlet, mSwap := swap }).1 ≠
      (receive order { mFd := some inlet, mSwap := !swap }).1 := by
  rw [receive_record order swap headed, receive_record order (!swap) headed,
    filled]
  rcases further : readAll (inclLen order (!swap) header) left with
    ⟨_ | longer, later⟩
  · simp
  · have size := length_of_readAll filled
    have longerSize := length_of_readAll further
    intro equal
    cases equal
    omega

/-- The two readings of a length are those of a word and of its reverse. -/
theorem inclLen_cases
    (order : ByteOrder)
    (swap : Bool)
    (header : List UInt8) :
    min (wordAt order header 8).toNat (swap32 (wordAt order header 8)).toNat =
      min (inclLen order swap header) (inclLen order (!swap) header) := by
  cases swap with
  | false =>
      rfl
  | true =>
      exact Nat.min_comm _ _

/--
Either a record is received alike with the flag set or not, or it is received
differently and there is such a record.
-/
theorem receive_alike_or_turned
    (order : ByteOrder)
    (inlet : Inlet) :
    (∃ result behind,
      (∀ swap,
        receive order { mFd := some inlet, mSwap := swap } =
          (result, { mFd := some behind, mSwap := swap })) ∧
      ∀ records,
        turnedWithin order (records + 1) inlet =
          turnedWithin order records behind) ∨
    ((receive order { mFd := some inlet, mSwap := true }).1 ≠
        (receive order { mFd := some inlet, mSwap := false }).1 ∧
      ∀ records, turnedWithin order (records + 1) inlet = true) := by
  rcases headed : readAll 16 inlet with ⟨_ | header, left⟩
  · refine Or.inl ⟨.error .eof, left, ?_, ?_⟩
    · intro swap
      simp [receive, headed]
    · intro records
      simp [turnedWithin, headed]
  · have received := fun swap => receive_record order swap headed
    rcases filled :
        readAll (min (wordAt order header 8).toNat
          (swap32 (wordAt order header 8)).toNat) left with
      ⟨_ | packet, behind⟩
    · refine Or.inl ⟨.error .recvFailed, behind, ?_, ?_⟩
      · intro swap
        rw [inclLen_cases order swap] at filled
        rw [received, readAll_of_none filled (Nat.min_le_left _ _)]
      · intro records
        simp [turnedWithin, headed, filled]
    · by_cases same :
          wordAt order header 8 = swap32 (wordAt order header 8)
      · refine Or.inl ⟨.ok packet, behind, ?_, ?_⟩
        · intro swap
          have length :
              inclLen order swap header =
                min (wordAt order header 8).toNat
                  (swap32 (wordAt order header 8)).toNat := by
            rw [← same, Nat.min_self, inclLen, ← same, ite_self]
          rw [received, length, filled]
        · intro records
          simp only [turnedWithin, headed, filled, if_pos same]
      · refine Or.inr ⟨?_, ?_⟩
        · have differ :
              inclLen order true header ≠ inclLen order false header :=
            fun equal => same (UInt32.toNat_inj.mp equal.symm)
          rcases Nat.lt_or_gt_of_ne differ with smaller | smaller
          · rw [inclLen_cases order true, Bool.not_true,
              Nat.min_eq_left (Nat.le_of_lt smaller)] at filled
            exact receive_of_lt order true headed smaller filled
          · rw [inclLen_cases order false, Bool.not_false,
              Nat.min_eq_left (Nat.le_of_lt smaller)] at filled
            exact (receive_of_lt order false headed smaller filled).symm
        · intro records
          simp only [turnedWithin, headed, filled, if_neg same]

/-- Receiving tells the flag apart exactly at such a record. -/
theorem receiveTimes_swapped_iff
    (order : ByteOrder)
    (calls : Nat)
    (inlet : Inlet) :
    FramedStream.receiveTimes (receive order) calls
          { mFd := some inlet, mSwap := true } =
        FramedStream.receiveTimes (receive order) calls
          { mFd := some inlet, mSwap := false } ↔
      turnedWithin order calls inlet = false := by
  induction calls generalizing inlet with
  | zero =>
      simp [FramedStream.receiveTimes, turnedWithin]
  | succ calls inductionHypothesis =>
      rw [FramedStream.receiveTimes, FramedStream.receiveTimes]
      rcases receive_alike_or_turned order inlet with
        ⟨result, behind, alike, turned⟩ | ⟨differ, turned⟩
      · rw [alike true, alike false, turned]
        simpa using inductionHypothesis behind
      · rw [turned]
        simp [differ]

/-- Whether a file opens does not depend on the receiver. -/
theorem openFile_cases
    (order : ByteOrder)
    (inlet : Inlet) :
    (swapped order inlet = false ∧
      ∀ receiver,
        openFile order (some inlet) receiver =
          (.error .openFailed, { receiver with mFd := none })) ∨
    ∀ receiver : PcapReceiver,
      openFile order (some inlet) receiver =
        (.ok (),
          { mFd := some (readAll 24 inlet).2
            mSwap := swapped order inlet || receiver.mSwap }) := by
  rcases headed : readAll 24 inlet with ⟨_ | header, left⟩
  · refine Or.inl ⟨by simp [swapped, headed], ?_⟩
    intro receiver
    simp [openFile, headed]
  · by_cases other : wordAt order header 0 = 0xD4C3B2A1
    · refine Or.inr ?_
      intro receiver
      simp [openFile, swapped, headed, other]
    · by_cases host : wordAt order header 0 = 0xA1B2C3D4
      · refine Or.inr ?_
        intro receiver
        simp [openFile, swapped, headed, host]
      · refine Or.inl ⟨by simp [swapped, headed, other], ?_⟩
        intro receiver
        simp [openFile, headed, other, host]

/-- Receiving keeps the flag. -/
theorem mSwap_receive
    (order : ByteOrder)
    (receiver : PcapReceiver) :
    (receiver.receive order).2.mSwap = receiver.mSwap := by
  obtain ⟨mFd, mSwap⟩ := receiver
  cases mFd with
  | none =>
      rfl
  | some inlet =>
      rcases headed : readAll 16 inlet with ⟨_ | header, left⟩
      · simp [receive, headed]
      · rw [receive_record order mSwap headed]
        rcases readAll (inclLen order mSwap header) left with
          ⟨_ | packet, behind⟩
        · rfl
        · rfl

/-- A call sets the flag if it opens a file of the other byte order. -/
theorem mSwap_step
    (order : ByteOrder)
    (receiver : PcapReceiver)
    (call : Call) :
    (step order receiver call).mSwap = true ↔
      receiver.mSwap = true ∨
        ∃ inlet, call = .openFile (some inlet) ∧
          swapped order inlet = true := by
  cases call with
  | openFile descriptor =>
      cases descriptor with
      | none =>
          simp [step, openFile]
      | some inlet =>
          rcases openFile_cases order inlet with ⟨host, failed⟩ | opened
          · simp [step, failed, host]
          · simp [step, opened, or_comm]
  | receive =>
      simp [step, mSwap_receive]
  | close =>
      simp [step, close]

/-- The flag is set once a file of the other byte order was opened. -/
theorem mSwap_foldl
    (order : ByteOrder)
    (history : List Call)
    (receiver : PcapReceiver) :
    (history.foldl (step order) receiver).mSwap = true ↔
      receiver.mSwap = true ∨
        ∃ inlet, Call.openFile (some inlet) ∈ history ∧
          swapped order inlet = true := by
  induction history generalizing receiver with
  | nil =>
      simp
  | cons call later inductionHypothesis =>
      rw [List.foldl_cons, inductionHypothesis, mSwap_step]
      constructor
      · rintro ((set | ⟨inlet, rfl, other⟩) | ⟨inlet, member, other⟩)
        · exact Or.inl set
        · exact Or.inr ⟨inlet, List.mem_cons_self, other⟩
        · exact Or.inr ⟨inlet, List.mem_cons_of_mem _ member, other⟩
      · rintro (set | ⟨inlet, member, other⟩)
        · exact Or.inl (Or.inl set)
        · rcases List.mem_cons.mp member with first | later
          · exact Or.inl (Or.inr ⟨inlet, first.symm, other⟩)
          · exact Or.inr ⟨inlet, later, other⟩

/--
After any calls on a receiver, a file that opens is received from as by a newly
constructed receiver, unless a file of the other byte order was opened before,
this one is of the host's order, and a record of it is received that both
readings of its length do not agree on.
-/
theorem opened_afresh_iff
    (order : ByteOrder)
    (history : List Call)
    (inlet : Inlet)
    (calls : Nat)
    (opened :
      ((after order history).openFile order (some inlet)).1 = .ok ()) :
    OpenedAfresh order history inlet calls ↔
      ¬ ((∃ earlier, Call.openFile (some earlier) ∈ history ∧
            swapped order earlier = true) ∧
          swapped order inlet = false ∧
          turnedWithin order calls (readAll 24 inlet).2 = true) := by
  rcases openFile_cases order inlet with ⟨-, failed⟩ | succeeds
  · rw [failed] at opened
    cases opened
  · have flag := mSwap_foldl order history fresh
    rw [OpenedAfresh, succeeds, succeeds]
    cases other : swapped order inlet with
    | true =>
        simp
    | false =>
        cases set : (after order history).mSwap with
        | false =>
            have neverSwapped :
                ¬ ∃ earlier, Call.openFile (some earlier) ∈ history ∧
                  swapped order earlier = true := by
              intro found
              rw [after, flag.mpr (Or.inr found)] at set
              cases set
            simp [neverSwapped, fresh]
        | true =>
            have found :=
              (flag.mp set).resolve_left Bool.false_ne_true
            have told :=
              receiveTimes_swapped_iff order calls (readAll 24 inlet).2
            simpa [found, fresh] using told

/-- A later file of the host's order whose record both readings agree on. -/
theorem opened_afresh_iff_palindrome :
    OpenedAfresh .little
      [.openFile
        (some { unread := pcapGlobalHeader .big, answers := [] }), .close]
      { unread := pcapGlobalHeader .little ++ List.replicate 16 0
        answers := [] } 2 := by
  refine (opened_afresh_iff .little _ _ 2 (by decide)).mpr ?_
  rintro ⟨-, -, turned⟩
  revert turned
  decide

/-- A receiver that saw a file of the other byte order misreads this one. -/
theorem reopened_misread :
    ¬ ∀ (order : ByteOrder) (history : List Call) (inlet : Inlet)
      (calls : Nat),
      ((after order history).openFile order (some inlet)).1 = .ok () →
        OpenedAfresh order history inlet calls := by
  intro afresh
  have misread :=
    afresh .little
      [.openFile
        (some { unread := pcapGlobalHeader .big, answers := [] }), .close]
      { unread :=
          pcapGlobalHeader .little ++
            recordBytes .little ({ tvSec := 0, tvNsec := 0 }, [7])
        answers := [] } 1 (by decide)
  revert misread
  decide

end PcapReceiver

end TsnGen
