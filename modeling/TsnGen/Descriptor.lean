import Mathlib.Data.List.Basic

namespace TsnGen

/-!
# Byte streams behind a descriptor

Calls of `write` and `read` on a descriptor move some of the bytes asked for,
are interrupted, or fail.  The operating system's answers are a finite list
that the calls use up in order; once it is empty, every call moves all it can.
A list of answers without failures thus covers every way in which a run that
ends can be split and interrupted.

The loops around the calls are the programs': they go on until everything is
moved, and differ in what they do when a call is interrupted.
-/

/-- The operating system's answer to one call. -/
inductive Answer where
  /-- Move up to `count + 1` bytes. -/
  | moved (count : Nat)
  | interrupted
  | failed
  deriving Repr, DecidableEq

/-- A descriptor that is written to: the bytes accepted so far. -/
structure Outlet where
  written : List UInt8
  answers : List Answer
  deriving Repr, DecidableEq

/-- A descriptor that is read from: the bytes not yet returned. -/
structure Inlet where
  unread : List UInt8
  answers : List Answer
  deriving Repr, DecidableEq

/-- No call fails. -/
def Unfailing
    (answers : List Answer) : Prop :=
  .failed ∉ answers

instance
    (answers : List Answer) :
    Decidable (Unfailing answers) :=
  inferInstanceAs (Decidable (¬ _))

/-- Every call moves some bytes. -/
def Uninterrupted
    (answers : List Answer) : Prop :=
  .failed ∉ answers ∧ .interrupted ∉ answers

instance
    (answers : List Answer) :
    Decidable (Uninterrupted answers) :=
  inferInstanceAs (Decidable (_ ∧ _))

namespace Descriptor

/-- How a write loop ended, the bytes it wrote and the answers it left. -/
structure Writing where
  complete : Bool
  accepted : List UInt8
  answers : List Answer
  deriving Repr, DecidableEq

/--
Write until nothing remains.  A failed call ends the loop, and so does an
interrupted one unless the loop retries.
-/
def writeLoop
    (retries : Bool) :
    List Answer → List UInt8 → Writing
  | answers, [] =>
      { complete := true, accepted := [], answers := answers }
  | [], byte :: rest =>
      { complete := true, accepted := byte :: rest, answers := [] }
  | .moved count :: later, byte :: rest =>
      let writing := writeLoop retries later (rest.drop count)
      { writing with
        accepted := (byte :: rest.take count) ++ writing.accepted }
  | .interrupted :: later, byte :: rest =>
      if retries then
        writeLoop retries later (byte :: rest)
      else
        { complete := false, accepted := [], answers := later }
  | .failed :: later, _ :: _ =>
      { complete := false, accepted := [], answers := later }

/-- Whether the next call that is not retried moves no byte. -/
def refuses
    (retries : Bool) :
    List Answer → Bool
  | .failed :: _ => true
  | .interrupted :: later => !retries || refuses retries later
  | _ => false

/-- How a read loop ended. -/
inductive Reading where
  | complete (bytes : List UInt8)
  | ended
  | failed
  deriving Repr, DecidableEq

/--
Read a number of bytes behind those already in the buffer.  Interrupted calls
are retried, and a call at the end of the stream ends the loop.
-/
def readLoop
    (buffer : List UInt8) :
    List Answer → Nat → List UInt8 → Reading × Inlet
  | answers, 0, unread =>
      (.complete buffer, { unread := unread, answers := answers })
  | [], requested + 1, unread =>
      if unread.length < requested + 1 then
        (.ended, { unread := [], answers := [] })
      else
        (.complete (buffer ++ unread.take (requested + 1)),
          { unread := unread.drop (requested + 1), answers := [] })
  | .moved _ :: later, _ + 1, [] =>
      (.ended, { unread := [], answers := later })
  | .moved count :: later, requested + 1, byte :: rest =>
      let moved := (byte :: rest).take (min (count + 1) (requested + 1))
      readLoop (buffer ++ moved) later (requested + 1 - moved.length)
        ((byte :: rest).drop moved.length)
  | .interrupted :: later, requested + 1, unread =>
      readLoop buffer later (requested + 1) unread
  | .failed :: later, _ + 1, unread =>
      (.failed, { unread := unread, answers := later })

/-- Write all bytes to a descriptor. -/
def writeAll
    (retries : Bool)
    (data : List UInt8)
    (outlet : Outlet) : Bool × Outlet :=
  let writing := writeLoop retries outlet.answers data
  (writing.complete,
    { written := outlet.written ++ writing.accepted
      answers := writing.answers })

/-- Read a number of bytes from a descriptor. -/
def readAll
    (requested : Nat)
    (inlet : Inlet) : Reading × Inlet :=
  readLoop [] inlet.answers requested inlet.unread

/-- No answer ends a write loop early. -/
def Tolerated
    (retries : Bool)
    (answers : List Answer) : Prop :=
  ∀ answer ∈ answers,
    answer ≠ .failed ∧ (answer = .interrupted → retries = true)

/-- Loops that retry tolerate interruptions. -/
theorem Tolerated.of_unfailing
    {answers : List Answer}
    (unfailing : Unfailing answers) :
    Tolerated true answers := by
  intro answer member
  refine ⟨?_, fun _ => rfl⟩
  rintro rfl
  exact unfailing member

/-- All loops tolerate being split. -/
theorem Tolerated.of_uninterrupted
    {answers : List Answer}
    (uninterrupted : Uninterrupted answers)
    (retries : Bool) :
    Tolerated retries answers := by
  intro answer member
  constructor
  · rintro rfl
    exact uninterrupted.1 member
  · rintro rfl
    exact absurd member uninterrupted.2

/-- Under tolerated answers everything is written. -/
theorem writeLoop_of_tolerated
    {retries : Bool}
    {answers : List Answer}
    (tolerated : Tolerated retries answers)
    (data : List UInt8) :
    ∃ later,
      Tolerated retries later ∧
        writeLoop retries answers data =
          { complete := true, accepted := data, answers := later } := by
  induction answers generalizing data with
  | nil =>
      cases data with
      | nil =>
          exact ⟨[], tolerated, rfl⟩
      | cons byte rest =>
          exact ⟨[], tolerated, rfl⟩
  | cons answer later inductionHypothesis =>
      have laterTolerated : Tolerated retries later := fun other member =>
        tolerated other (List.mem_cons_of_mem _ member)
      cases data with
      | nil =>
          exact ⟨answer :: later, tolerated, rfl⟩
      | cons byte rest =>
          cases answer with
          | moved count =>
              obtain ⟨left, leftTolerated, written⟩ :=
                inductionHypothesis laterTolerated (rest.drop count)
              refine ⟨left, leftTolerated, ?_⟩
              simp [writeLoop, written]
          | interrupted =>
              obtain ⟨left, leftTolerated, written⟩ :=
                inductionHypothesis laterTolerated (byte :: rest)
              have retried : retries = true :=
                (tolerated .interrupted List.mem_cons_self).2 rfl
              refine ⟨left, leftTolerated, ?_⟩
              rw [writeLoop, if_pos retried, written]
          | failed =>
              exact absurd rfl (tolerated .failed List.mem_cons_self).1

/-- A write loop writes all of its data, or a proper initial part of it. -/
theorem writeLoop_accepted
    (retries : Bool)
    (answers : List Answer)
    (data : List UInt8) :
    ∃ missing,
      (writeLoop retries answers data).accepted ++ missing = data ∧
        ((writeLoop retries answers data).complete = true ↔
          missing = []) := by
  induction answers generalizing data with
  | nil =>
      cases data with
      | nil =>
          exact ⟨[], rfl, by simp [writeLoop]⟩
      | cons byte rest =>
          exact ⟨[], by simp [writeLoop], by simp [writeLoop]⟩
  | cons answer later inductionHypothesis =>
      cases data with
      | nil =>
          exact ⟨[], rfl, by simp [writeLoop]⟩
      | cons byte rest =>
          cases answer with
          | moved count =>
              obtain ⟨missing, whole, complete⟩ :=
                inductionHypothesis (rest.drop count)
              refine ⟨missing, ?_, complete⟩
              simp [writeLoop, whole]
          | interrupted =>
              by_cases retried : retries = true
              · obtain ⟨missing, whole, complete⟩ :=
                  inductionHypothesis (byte :: rest)
                rw [writeLoop, if_pos retried]
                exact ⟨missing, whole, complete⟩
              · rw [writeLoop, if_neg retried]
                exact ⟨byte :: rest, rfl, by simp⟩
          | failed =>
              exact ⟨byte :: rest, rfl, by simp [writeLoop]⟩

/-- A refused write loop with something to write fails and writes nothing. -/
theorem writeLoop_of_refuses
    {retries : Bool}
    {answers : List Answer}
    (refused : refuses retries answers = true)
    {data : List UInt8}
    (present : data ≠ []) :
    (writeLoop retries answers data).complete = false ∧
      (writeLoop retries answers data).accepted = [] := by
  obtain ⟨byte, rest, rfl⟩ := List.exists_cons_of_ne_nil present
  induction answers with
  | nil =>
      simp [refuses] at refused
  | cons answer later inductionHypothesis =>
      cases answer with
      | moved count =>
          simp [refuses] at refused
      | interrupted =>
          by_cases retried : retries = true
          · rw [writeLoop, if_pos retried]
            refine inductionHypothesis ?_
            simpa [refuses, retried] using refused
          · rw [writeLoop, if_neg retried]
            exact ⟨rfl, rfl⟩
      | failed =>
          exact ⟨rfl, rfl⟩

/-- One call moves the front of what is left, and no more than is asked for. -/
private theorem moved_spec
    (count requested : Nat)
    (unread : List UInt8) :
    ∃ size,
      unread.take (min (count + 1) (requested + 1)) = unread.take size ∧
        (unread.take size).length = size ∧ size ≤ requested + 1 ∧
          size ≤ unread.length := by
  refine ⟨min (count + 1) (min (requested + 1) unread.length), ?_, ?_, ?_⟩
  · rw [List.take_eq_take_iff]
    omega
  · rw [List.length_take]
    omega
  · omega

/-- Without failures a read loop sees only what is left of the stream. -/
theorem readLoop_of_unfailing
    {answers : List Answer}
    (unfailing : Unfailing answers)
    (buffer : List UInt8)
    (requested : Nat)
    (unread : List UInt8) :
    ∃ later,
      Unfailing later ∧
        readLoop buffer answers requested unread =
          if unread.length < requested then
            (.ended, { unread := [], answers := later })
          else
            (.complete (buffer ++ unread.take requested),
              { unread := unread.drop requested, answers := later }) := by
  induction buffer, answers, requested, unread using readLoop.induct with
  | case1 buffer answers unread =>
      exact ⟨answers, unfailing, by simp [readLoop]⟩
  | case2 buffer requested unread short =>
      exact ⟨[], unfailing, by simp only [readLoop, short, ↓reduceIte]⟩
  | case3 buffer requested unread long =>
      exact ⟨[], unfailing, by simp only [readLoop, long, ↓reduceIte]⟩
  | case4 buffer count later requested =>
      exact ⟨later, fun member => unfailing (List.mem_cons_of_mem _ member),
        by simp [readLoop]⟩
  | case5 buffer count later requested byte rest moved inductionHypothesis =>
      obtain ⟨left, leftUnfailing, read⟩ :=
        inductionHypothesis fun member =>
          unfailing (List.mem_cons_of_mem _ member)
      refine ⟨left, leftUnfailing, ?_⟩
      obtain ⟨size, isMoved, isSize, asked, present⟩ :=
        moved_spec count requested (byte :: rest)
      rw [readLoop, read]
      simp only [moved, isMoved, isSize, Nat.succ_eq_add_one]
      have whole :
          (byte :: rest).take size ++
              ((byte :: rest).drop size).take (requested + 1 - size) =
            (byte :: rest).take (requested + 1) := by
        rw [← List.take_add, Nat.add_sub_cancel' asked]
      have behind :
          ((byte :: rest).drop size).drop (requested + 1 - size) =
            (byte :: rest).drop (requested + 1) := by
        rw [List.drop_drop, Nat.add_sub_cancel' asked]
      have short :
          ((byte :: rest).drop size).length < requested + 1 - size ↔
            (byte :: rest).length < requested + 1 := by
        rw [List.length_drop]
        omega
      rw [List.append_assoc, whole, behind]
      simp only [short]
  | case6 buffer later requested unread inductionHypothesis =>
      obtain ⟨left, leftUnfailing, read⟩ :=
        inductionHypothesis fun member =>
          unfailing (List.mem_cons_of_mem _ member)
      exact ⟨left, leftUnfailing, by rw [readLoop, read]⟩
  | case7 buffer later requested unread =>
      exact absurd List.mem_cons_self unfailing

/-- A complete read loop has put as many bytes into the buffer as asked for. -/
theorem length_of_readLoop
    {answers : List Answer}
    {buffer unread bytes : List UInt8}
    {requested : Nat}
    (complete :
      (readLoop buffer answers requested unread).1 = .complete bytes) :
    bytes.length = buffer.length + requested := by
  induction buffer, answers, requested, unread using readLoop.induct with
  | case1 buffer answers unread =>
      simp only [readLoop, Reading.complete.injEq] at complete
      rw [← complete, Nat.add_zero]
  | case2 buffer requested unread short =>
      simp [readLoop, short] at complete
  | case3 buffer requested unread long =>
      simp only [readLoop, long, ↓reduceIte, Reading.complete.injEq]
        at complete
      rw [← complete, List.length_append, List.length_take_of_le (by omega)]
  | case4 buffer count later requested =>
      simp [readLoop] at complete
  | case5 buffer count later requested byte rest moved inductionHypothesis =>
      obtain ⟨size, isMoved, isSize, asked, -⟩ :=
        moved_spec count requested (byte :: rest)
      rw [readLoop] at complete
      have others := inductionHypothesis complete
      rw [List.length_append] at others
      simp only [moved, isMoved, isSize] at others
      omega
  | case6 buffer later requested unread inductionHypothesis =>
      rw [readLoop] at complete
      exact inductionHypothesis complete
  | case7 buffer later requested unread =>
      simp [readLoop] at complete

/-- A read loop that cannot get some bytes fares no better asked for more. -/
theorem readLoop_of_incomplete
    {answers : List Answer}
    {buffer unread : List UInt8}
    {requested larger : Nat}
    (incomplete :
      ∀ bytes,
        (readLoop buffer answers requested unread).1 ≠ .complete bytes)
    (more : requested ≤ larger) :
    readLoop buffer answers larger unread =
      readLoop buffer answers requested unread := by
  revert larger
  induction buffer, answers, requested, unread using readLoop.induct with
  | case1 buffer answers unread =>
      intro larger more
      exact absurd (by rw [readLoop]) (incomplete buffer)
  | case2 buffer requested unread short =>
      intro larger more
      obtain ⟨larger, rfl⟩ := Nat.exists_eq_add_of_lt more
      simp only [readLoop, if_pos short]
      exact if_pos (by omega)
  | case3 buffer requested unread long =>
      intro larger more
      exact absurd (by rw [readLoop, if_neg long]) (incomplete _)
  | case4 buffer count later requested =>
      intro larger more
      obtain ⟨larger, rfl⟩ := Nat.exists_eq_add_of_lt more
      rfl
  | case5 buffer count later requested byte rest moved inductionHypothesis =>
      intro larger more
      obtain ⟨larger, rfl⟩ := Nat.exists_eq_add_of_lt more
      by_cases short :
          min (count + 1) (byte :: rest).length < requested + 1
      · have same :
            (byte :: rest).take (min (count + 1) (requested + larger + 1)) =
              (byte :: rest).take (min (count + 1) (requested + 1)) := by
          rw [List.take_eq_take_iff]
          omega
        simp only [readLoop, same] at incomplete ⊢
        exact inductionHypothesis incomplete
          (Nat.sub_le_sub_right (by omega) moved.length)
      · have whole :
            ((byte :: rest).take
              (min (count + 1) (requested + 1))).length = requested + 1 := by
          rw [List.length_take]
          omega
        refine absurd ?_ (incomplete (buffer ++
          (byte :: rest).take (min (count + 1) (requested + 1))))
        simp only [readLoop, whole, Nat.sub_self]
  | case6 buffer later requested unread inductionHypothesis =>
      intro larger more
      obtain ⟨larger, rfl⟩ := Nat.exists_eq_add_of_lt more
      simp only [readLoop] at incomplete ⊢
      exact inductionHypothesis incomplete (by omega)
  | case7 buffer later requested unread =>
      intro larger more
      obtain ⟨larger, rfl⟩ := Nat.exists_eq_add_of_lt more
      rfl

/-- Under tolerated answers everything reaches the descriptor. -/
theorem writeAll_of_tolerated
    {retries : Bool}
    {outlet : Outlet}
    (tolerated : Tolerated retries outlet.answers)
    (data : List UInt8) :
    ∃ later,
      Tolerated retries later ∧
        writeAll retries data outlet =
          (true, { written := outlet.written ++ data, answers := later }) := by
  obtain ⟨later, laterTolerated, written⟩ :=
    writeLoop_of_tolerated tolerated data
  exact ⟨later, laterTolerated, by rw [writeAll, written]⟩

/-- Without failures a read sees only what is left of the stream. -/
theorem readAll_of_unfailing
    {inlet : Inlet}
    (unfailing : Unfailing inlet.answers)
    (requested : Nat) :
    ∃ later,
      Unfailing later ∧
        readAll requested inlet =
          if inlet.unread.length < requested then
            (.ended, { unread := [], answers := later })
          else
            (.complete (inlet.unread.take requested),
              { unread := inlet.unread.drop requested
                answers := later }) :=
  readLoop_of_unfailing unfailing [] requested inlet.unread

/-- A write of a descriptor accepts an initial part and completes on all. -/
theorem writeAll_accepted
    (retries : Bool)
    (data : List UInt8)
    (outlet : Outlet) :
    ∃ accepted missing later,
      accepted ++ missing = data ∧
        (writeAll retries data outlet).2 =
          { written := outlet.written ++ accepted, answers := later } ∧
        ((writeAll retries data outlet).1 = true ↔
          missing = []) := by
  obtain ⟨missing, whole, complete⟩ :=
    writeLoop_accepted retries outlet.answers data
  exact ⟨_, missing, _, whole, rfl, complete⟩

/-- A refused write fails and writes nothing. -/
theorem writeAll_of_refuses
    {retries : Bool}
    {outlet : Outlet}
    (refused : refuses retries outlet.answers = true)
    {data : List UInt8}
    (present : data ≠ []) :
    ∃ later,
      writeAll retries data outlet =
        (false, { written := outlet.written, answers := later }) := by
  obtain ⟨incomplete, nothing⟩ :=
    writeLoop_of_refuses refused present
  refine ⟨(writeLoop retries outlet.answers data).answers, ?_⟩
  rw [writeAll, incomplete, nothing, List.append_nil]

end Descriptor

end TsnGen
