import TsnGen.Descriptor

namespace TsnGen

/-!
# Streams of framed items

A receiver is called again and again on a descriptor and hands out one item
per call.  Where its calls depend on the unread bytes only, it is described by
a decoder of byte strings, and what a sequence of calls returns follows from
what the decoder does with one frame, with the end of the stream and with a
frame that is cut short.
-/

namespace FramedStream

variable {ε α β σ : Type}

/-- The results of sending items one after the other. -/
def sendEach
    (send : α → σ → ε × σ) :
    List α → σ → List ε × σ
  | [], sender => ([], sender)
  | item :: rest, sender =>
      let sent := send item sender
      let later := sendEach send rest sent.2
      (sent.1 :: later.1, later.2)

/-- The results of a number of successive calls. -/
def receiveTimes
    (receive : σ → Except ε α × σ) :
    Nat → σ → List (Except ε α)
  | 0, _ => []
  | calls + 1, receiver =>
      (receive receiver).1 :: receiveTimes receive calls (receive receiver).2

/-- The results of decoding a number of times. -/
def decodeTimes
    (decode : List UInt8 → Except ε α × List UInt8) :
    Nat → List UInt8 → List (Except ε α)
  | 0, _ => []
  | calls + 1, bytes =>
      (decode bytes).1 :: decodeTimes decode calls (decode bytes).2

/--
A receiver on an open descriptor follows a decoder: however its reads are split
and interrupted, a call returns what the decoder makes of the unread bytes.
-/
def Follows
    (receive : σ → Except ε α × σ)
    (opened : Inlet → σ)
    (decode : List UInt8 → Except ε α × List UInt8) : Prop :=
  ∀ inlet, Unfailing inlet.answers →
    ∃ later,
      Unfailing later ∧
        receive (opened inlet) =
          ((decode inlet.unread).1,
            opened
              { unread := (decode inlet.unread).2, answers := later })

/-- The successfully received items among results. -/
def items
    (results : List (Except ε α)) : List α :=
  results.filterMap Except.toOption

/-- Frames of items one after the other. -/
def frames
    (frame : β → List UInt8)
    (sent : List β) : List UInt8 :=
  sent.flatMap frame

variable {receive : σ → Except ε α × σ}
variable {opened : Inlet → σ}
variable {decode : List UInt8 → Except ε α × List UInt8}

/-- Calls of a receiver that follows a decoder are decodings. -/
theorem Follows.receiveTimes_eq
    (follows : Follows receive opened decode)
    (calls : Nat)
    (inlet : Inlet)
    (unfailing : Unfailing inlet.answers) :
    receiveTimes receive calls (opened inlet) =
      decodeTimes decode calls inlet.unread := by
  induction calls generalizing inlet with
  | zero =>
      rfl
  | succ calls inductionHypothesis =>
      obtain ⟨later, laterUnfailing, received⟩ := follows inlet unfailing
      rw [receiveTimes, decodeTimes, received]
      rw [inductionHypothesis _ laterUnfailing]

@[simp] theorem length_decodeTimes
    (calls : Nat)
    (bytes : List UInt8) :
    (decodeTimes decode calls bytes).length = calls := by
  induction calls generalizing bytes with
  | zero =>
      rfl
  | succ calls inductionHypothesis =>
      simp [decodeTimes, inductionHypothesis]

/-- Fewer calls return the first of the results. -/
theorem decodeTimes_eq_take
    {calls more : Nat}
    (fewer : calls ≤ more)
    (bytes : List UInt8) :
    decodeTimes decode calls bytes =
      (decodeTimes decode more bytes).take calls := by
  induction calls generalizing more bytes with
  | zero =>
      rfl
  | succ calls inductionHypothesis =>
      obtain ⟨more, rfl⟩ : ∃ less, more = less + 1 :=
        ⟨more - 1, by omega⟩
      rw [decodeTimes, decodeTimes, List.take_succ_cons,
        inductionHypothesis (Nat.le_of_succ_le_succ fewer)]

/-- A decoder takes the frames of items apart and hands out their contents. -/
def Inverts
    (decode : List UInt8 → Except ε α × List UInt8)
    (frame : β → List UInt8)
    (content : β → α)
    (sent : List β) : Prop :=
  ∀ item ∈ sent, ∀ rest,
    decode (frame item ++ rest) = (.ok (content item), rest)

/-- Framed items come out first and in order. -/
theorem decodeTimes_frames
    {frame : β → List UInt8}
    {content : β → α}
    {sent : List β}
    (inverts : Inverts decode frame content sent)
    (calls : Nat)
    (rest : List UInt8) :
    decodeTimes decode calls (frames frame sent ++ rest) =
      ((sent.map content).map Except.ok ++
        decodeTimes decode calls rest).take calls := by
  induction sent generalizing calls with
  | nil =>
      simp [frames, List.take_of_length_le]
  | cons item others inductionHypothesis =>
      have othersInvert : Inverts decode frame content others :=
        fun other member => inverts other (List.mem_cons_of_mem _ member)
      cases calls with
      | zero =>
          rfl
      | succ calls =>
          have first :=
            inverts item List.mem_cons_self (frames frame others ++ rest)
          rw [frames, List.flatMap_cons, List.append_assoc, decodeTimes,
            ← frames, first, inductionHypothesis othersInvert calls,
            List.map_cons, List.map_cons, List.cons_append,
            List.take_succ_cons]
          congr 1
          rw [List.take_append, List.take_append,
            decodeTimes_eq_take (Nat.le_succ calls), List.take_take]
          congr 2
          omega

/-- At a point where nothing is decoded and nothing left, the end repeats. -/
theorem decodeTimes_of_stuck
    {finish : ε}
    (stuck : decode [] = (.error finish, []))
    (calls : Nat) :
    decodeTimes decode calls [] = List.replicate calls (.error finish) := by
  induction calls with
  | zero =>
      rfl
  | succ calls inductionHypothesis =>
      rw [decodeTimes, stuck, inductionHypothesis, List.replicate_succ]

end FramedStream

end TsnGen
