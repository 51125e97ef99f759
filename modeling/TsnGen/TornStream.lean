import TsnGen.FramedStream

namespace TsnGen.FramedStream

/-!
# Streams that end inside a frame

A stream may be cut at any byte, and a sender may fail in the middle of a
frame and be used again.  Both leave whole frames followed by a proper initial
part of one more frame.  A decoder that reports such a torn part, whatever it
reports, hands out the items of the whole frames and nothing else; and as long
as nothing is written behind a torn part, those are the items whose sending
succeeded.
-/

variable {ε δ α β σ : Type}
variable {frame : β → List UInt8}
variable {content : β → α}
variable {good : β → Prop}
variable {decode : List UInt8 → Except δ α × List UInt8}

/-- Where a cut falls: the whole frames, and the frame it falls into. -/
structure Cut (β : Type) where
  whole : List β
  torn : Option (β × Nat)
  deriving Repr, DecidableEq

/-- Cut a stream of frames behind a number of bytes. -/
def cutAt
    (frame : β → List UInt8) :
    List β → Nat → Cut β
  | [], _ => { whole := [], torn := none }
  | item :: rest, cut =>
      if (frame item).length ≤ cut then
        let later := cutAt frame rest (cut - (frame item).length)
        { later with whole := item :: later.whole }
      else if cut = 0 then
        { whole := [], torn := none }
      else
        { whole := [], torn := some (item, cut) }

/-- The bytes that a cut leaves of the frame it falls into. -/
def Cut.tail
    (frame : β → List UInt8)
    (cut : Cut β) : List UInt8 :=
  match cut.torn with
  | none => []
  | some (item, size) => (frame item).take size

/-- A cut stream is its whole frames and what is left of one more. -/
theorem take_frames
    (frame : β → List UInt8)
    (sent : List β)
    (size : Nat) :
    (frames frame sent).take size =
      frames frame (cutAt frame sent size).whole ++
        (cutAt frame sent size).tail frame := by
  induction sent generalizing size with
  | nil =>
      simp [frames, cutAt, Cut.tail]
  | cons item rest inductionHypothesis =>
      unfold frames at inductionHypothesis ⊢
      rw [List.flatMap_cons, List.take_append, cutAt]
      by_cases fits : (frame item).length ≤ size
      · rw [if_pos fits, List.take_of_length_le fits,
          inductionHypothesis (size - (frame item).length)]
        simp [Cut.tail]
      · have noRoom : size - (frame item).length = 0 := by omega
        rw [if_neg fits, noRoom]
        by_cases atBoundary : size = 0
        · simp [atBoundary, Cut.tail]
        · simp [atBoundary, Cut.tail]

/-- A cut falls properly into a frame of the stream. -/
theorem torn_inside
    {sent : List β}
    {size : Nat}
    {item : β}
    {kept : Nat}
    (torn : (cutAt frame sent size).torn = some (item, kept)) :
    item ∈ sent ∧ 0 < kept ∧ kept < (frame item).length := by
  induction sent generalizing size with
  | nil =>
      simp [cutAt] at torn
  | cons first rest inductionHypothesis =>
      rw [cutAt] at torn
      by_cases fits : (frame first).length ≤ size
      · rw [if_pos fits] at torn
        obtain ⟨member, inside⟩ := inductionHypothesis torn
        exact ⟨List.mem_cons_of_mem _ member, inside⟩
      · rw [if_neg fits] at torn
        by_cases atBoundary : size = 0
        · simp [atBoundary] at torn
        · rw [if_neg atBoundary, Option.some.injEq, Prod.mk.injEq] at torn
          obtain ⟨rfl, rfl⟩ := torn
          exact ⟨List.mem_cons_self, by omega, by omega⟩

/--
Decoding yields the framed items and then a verdict on the rest exactly when
every item is one the decoder can read and the rest deserves the verdict.
-/
theorem decodeTimes_eq_iff
    {sent : List β}
    (reads :
      ∀ item ∈ sent, good item → ∀ rest,
        decode (frame item ++ rest) = (.ok (content item), rest))
    (misreads :
      ∀ item ∈ sent, ∀ rest,
        (decode (frame item ++ rest)).1 = .ok (content item) → good item)
    (tail : List UInt8)
    (verdict : Except δ α) :
    decodeTimes decode (sent.length + 1) (frames frame sent ++ tail) =
        (sent.map content).map Except.ok ++ [verdict] ↔
      (∀ item ∈ sent, good item) ∧ (decode tail).1 = verdict := by
  induction sent with
  | nil =>
      simp [frames, decodeTimes]
  | cons item rest inductionHypothesis =>
      have later :=
        inductionHypothesis
          (fun other member =>
            reads other (List.mem_cons_of_mem _ member))
          (fun other member =>
            misreads other (List.mem_cons_of_mem _ member))
      unfold frames at later ⊢
      rw [List.flatMap_cons, List.append_assoc, List.length_cons,
        decodeTimes, List.map_cons, List.map_cons, List.cons_append,
        List.cons.injEq, List.forall_mem_cons]
      by_cases readable : good item
      · rw [reads item List.mem_cons_self readable, later]
        simp [readable]
      · have unread :=
          mt (misreads item List.mem_cons_self
            (rest.flatMap frame ++ tail)) readable
        simp [readable, unread]

/-- A proper initial part of the frame of a readable item. -/
def TornPart
    (frame : β → List UInt8)
    (good : β → Prop)
    (part : List UInt8) : Prop :=
  part ≠ [] ∧
    ∃ item missing,
      good item ∧ missing ≠ [] ∧ part ++ missing = frame item

/-- A stream of whole frames of readable items. -/
def AtBoundary
    (frame : β → List UInt8)
    (good : β → Prop)
    (start written : List UInt8) : Prop :=
  ∃ sent, (∀ item ∈ sent, good item) ∧ written = start ++ frames frame sent

/-- How a decoder deals with whole frames, torn ones and the end. -/
structure Reads
    (decode : List UInt8 → Except δ α × List UInt8)
    (frame : β → List UInt8)
    (content : β → α)
    (good : β → Prop) : Prop where
  whole :
    ∀ item, good item → ∀ rest,
      decode (frame item ++ rest) = (.ok (content item), rest)
  torn :
    ∀ part, TornPart frame good part →
      ∃ code, decode part = (.error code, [])
  ended : ∃ code, decode [] = (.error code, [])

/-- Whole frames with a torn one behind them are not whole frames. -/
theorem Reads.not_boundary_of_torn
    (reads : Reads decode frame content good)
    {sent others : List β}
    (sentGood : ∀ item ∈ sent, good item)
    (othersGood : ∀ item ∈ others, good item)
    {part : List UInt8}
    (torn : TornPart frame good part) :
    frames frame sent ++ part ≠ frames frame others := by
  intro same
  unfold frames at same
  induction sent generalizing others with
  | nil =>
      obtain ⟨code, failed⟩ := reads.torn part torn
      rw [List.flatMap_nil, List.nil_append] at same
      cases others with
      | nil =>
          exact torn.1 same
      | cons other rest =>
          have first :=
            reads.whole other (othersGood other List.mem_cons_self)
              (rest.flatMap frame)
          rw [same, List.flatMap_cons, first] at failed
          cases failed
  | cons item rest inductionHypothesis =>
      have read :=
        reads.whole item (sentGood item List.mem_cons_self)
          (rest.flatMap frame ++ part)
      rw [List.flatMap_cons, List.append_assoc] at same
      cases others with
      | nil =>
          obtain ⟨code, ended⟩ := reads.ended
          rw [same, List.flatMap_nil, ended] at read
          cases read
      | cons other later =>
          have readOther :=
            reads.whole other (othersGood other List.mem_cons_self)
              (later.flatMap frame)
          rw [same, List.flatMap_cons, readOther, Prod.mk.injEq] at read
          exact inductionHypothesis
            (fun other member =>
              sentGood other (List.mem_cons_of_mem _ member))
            (fun other member =>
              othersGood other (List.mem_cons_of_mem _ member))
            read.2.symm

/-- Behind whole frames and maybe a torn one only the whole frames are items. -/
theorem Reads.items_decodeTimes
    (reads : Reads decode frame content good)
    {sent : List β}
    (sentGood : ∀ item ∈ sent, good item)
    {part : List UInt8}
    (tail : part = [] ∨ TornPart frame good part)
    (calls : Nat) :
    items (decodeTimes decode calls (frames frame sent ++ part)) =
      (sent.map content).take calls := by
  obtain ⟨code, failed⟩ : ∃ code, decode part = (.error code, []) := by
    rcases tail with rfl | torn
    · exact reads.ended
    · exact reads.torn part torn
  obtain ⟨finish, ended⟩ := reads.ended
  have noItems : ∀ calls, items (decodeTimes decode calls part) = [] := by
    intro calls
    cases calls with
    | zero =>
        rfl
    | succ calls =>
        rw [decodeTimes, failed, decodeTimes_of_stuck ended]
        simp [items, Except.toOption]
  have inverts : Inverts decode frame content sent :=
    fun item member => reads.whole item (sentGood item member)
  have taken :
      ∀ count, items ((decodeTimes decode calls part).take count) = [] := by
    intro count
    by_cases fewer : count ≤ calls
    · rw [← decodeTimes_eq_take fewer, noItems]
    · rw [List.take_of_length_le (by simp; omega), noItems]
  rw [decodeTimes_frames inverts, List.take_append, ← List.map_take]
  unfold items at taken ⊢
  rw [List.filterMap_append, taken, List.append_nil, List.filterMap_map]
  exact List.filterMap_some

section Runs

variable [DecidableEq ε]
variable {send : β → σ → ε × σ}
variable {success : ε}
variable {opened : Outlet → σ}

/-- The items whose sending succeeded. -/
def delivered
    (send : β → σ → ε × σ)
    (success : ε) :
    List β → σ → List β
  | [], _ => []
  | item :: rest, sender =>
      let sent := send item sender
      let later := delivered send success rest sent.2
      if sent.1 = success then item :: later else later

/-- Every step of a run meets a condition on the state it starts from. -/
def EveryStep
    (send : β → σ → ε × σ)
    (holds : β → σ → Prop) :
    List β → σ → Prop
  | [], _ => True
  | item :: rest, sender =>
      holds item sender ∧ EveryStep send holds rest (send item sender).2

/-- A sender writes frames, and reports success when all of one is written. -/
def Writes
    (send : β → σ → ε × σ)
    (success : ε)
    (opened : Outlet → σ)
    (frame : β → List UInt8) : Prop :=
  ∀ item outlet,
    ∃ accepted missing later,
      accepted ++ missing = frame item ∧
        (send item (opened outlet)).2 =
          opened
            { written := outlet.written ++ accepted, answers := later } ∧
        ((send item (opened outlet)).1 = success ↔ missing = [])

/-- A call on a descriptor that accepts none of its bytes. -/
def Quiet
    (send : β → σ → ε × σ)
    (opened : Outlet → σ)
    (item : β)
    (outlet : Outlet) : Prop :=
  ∃ later,
    (send item (opened outlet)).2 =
      opened { written := outlet.written, answers := later }

/-- Whole frames of items, and maybe a torn one behind them. -/
def Intact
    (frame : β → List UInt8)
    (good : β → Prop)
    (start written : List UInt8)
    (sent : List β) : Prop :=
  (∀ item ∈ sent, good item) ∧
    ∃ part,
      written = start ++ frames frame sent ++ part ∧
        (part = [] ∨ TornPart frame good part)

/-- An item that was sent and left a trace. -/
def traced
    (frame : β → List UInt8)
    (sent : List β) : List β :=
  sent.filter fun item => !(frame item).isEmpty

/--
A step that starts at a boundary, or writes nothing, leaves the stream intact
and adds the item when its sending succeeded.
-/
theorem Intact.step
    (reads : Reads decode frame content good)
    (writes : Writes send success opened frame)
    (injective : Function.Injective opened)
    {start : List UInt8}
    {outlet : Outlet}
    {sent : List β}
    (intact : Intact frame good start outlet.written sent)
    {item : β}
    (clean :
      good item ∧ AtBoundary frame good start outlet.written ∨
        Quiet send opened item outlet) :
    ∃ after,
      (send item (opened outlet)).2 = opened after ∧
        Intact frame good start after.written
          (sent ++ traced frame
            (if (send item (opened outlet)).1 = success then
              [item] else [])) := by
  obtain ⟨sentGood, part, written, tail⟩ := intact
  obtain ⟨accepted, missing, later, whole, state, succeeds⟩ :=
    writes item outlet
  refine ⟨_, state, ?_⟩
  simp only [succeeds]
  rcases clean with ⟨itemGood, others, othersGood, boundary⟩ | ⟨_, quiet⟩
  · have nothingTorn : part = [] := by
      rcases tail with empty | torn
      · exact empty
      · rw [written, List.append_assoc, List.append_cancel_left_eq]
          at boundary
        exact absurd boundary
          (reads.not_boundary_of_torn sentGood othersGood torn)
    rw [nothingTorn, List.append_nil] at written
    by_cases complete : missing = []
    · rw [complete, List.append_nil] at whole
      rw [if_pos complete]
      by_cases trace : frame item = []
      · refine ⟨by simpa [traced, trace] using sentGood, [], ?_, .inl rfl⟩
        simp [traced, trace, written, whole]
      · refine ⟨?_, [], ?_, .inl rfl⟩
        · intro other member
          rcases List.mem_append.mp member with inSent | isItem
          · exact sentGood other inSent
          · have same : other = item := by
              simpa [traced, trace] using isItem
            rw [same]
            exact itemGood
        · simp [traced, trace, written, whole, frames]
    · rw [if_neg complete]
      refine ⟨by simpa [traced] using sentGood, accepted, ?_, ?_⟩
      · simp [traced, written]
      · by_cases none : accepted = []
        · exact .inl none
        · exact .inr ⟨none, item, missing, itemGood, complete, whole⟩
  · rw [state] at quiet
    have unchanged := congrArg Outlet.written (injective quiet)
    have nothing : accepted = [] := by
      simpa using unchanged
    rw [nothing, List.nil_append] at whole
    refine ⟨?_, part, ?_, tail⟩
    · intro other member
      rcases List.mem_append.mp member with inSent | isItem
      · exact sentGood other inSent
      · by_cases complete : missing = []
        · simp [traced, ← whole, complete] at isItem
        · simp [traced, complete] at isItem
    · by_cases complete : missing = []
      · simp [nothing, traced, ← whole, complete, written]
      · simp [nothing, traced, complete, written]

/-- A run whose steps are all clean leaves the stream intact. -/
theorem Intact.run
    (reads : Reads decode frame content good)
    (writes : Writes send success opened frame)
    (injective : Function.Injective opened)
    {start : List UInt8}
    {holds : β → σ → Prop}
    (clean :
      ∀ item outlet, holds item (opened outlet) →
        good item ∧ AtBoundary frame good start outlet.written ∨
          Quiet send opened item outlet)
    {packets : List β}
    {outlet : Outlet}
    {sent : List β}
    (intact : Intact frame good start outlet.written sent)
    (every : EveryStep send holds packets (opened outlet)) :
    ∃ after,
      (sendEach send packets (opened outlet)).2 = opened after ∧
        Intact frame good start after.written
          (sent ++ traced frame
            (delivered send success packets (opened outlet))) := by
  induction packets generalizing outlet sent with
  | nil =>
      refine ⟨outlet, rfl, ?_⟩
      simpa [delivered, traced] using intact
  | cons item rest inductionHypothesis =>
      obtain ⟨holdsItem, everyLater⟩ := every
      obtain ⟨next, state, stepped⟩ :=
        intact.step reads writes injective (clean item outlet holdsItem)
      rw [state] at everyLater
      obtain ⟨after, final, ran⟩ := inductionHypothesis stepped everyLater
      refine ⟨after, ?_, ?_⟩
      · rw [sendEach, state, final]
      · rw [delivered, state]
        by_cases succeeded : (send item (opened outlet)).1 = success
        · rw [if_pos succeeded, List.append_assoc, traced, traced,
            ← List.filter_append] at ran
          rw [if_pos succeeded]
          exact ran
        · simpa [succeeded, traced] using ran

/--
After a run whose steps are all clean, calls of a decoder return the delivered
items that left a trace, in order, and no other item.
-/
theorem items_of_clean_run
    (reads : Reads decode frame content good)
    (writes : Writes send success opened frame)
    (injective : Function.Injective opened)
    {start : List UInt8}
    {holds : β → σ → Prop}
    (clean :
      ∀ item outlet, holds item (opened outlet) →
        good item ∧ AtBoundary frame good start outlet.written ∨
          Quiet send opened item outlet)
    {packets : List β}
    {answers : List Answer}
    (every :
      EveryStep send holds packets
        (opened { written := start, answers := answers })) :
    ∃ after bytes,
      (sendEach send packets
          (opened { written := start, answers := answers })).2 =
        opened after ∧
      after.written = start ++ bytes ∧
      ∀ calls,
        items (decodeTimes decode calls bytes) =
          ((traced frame
            (delivered send success packets
              (opened { written := start, answers := answers }))).map
              content).take calls := by
  have fresh : Intact frame good start start [] :=
    ⟨by simp, [], by simp [frames], .inl rfl⟩
  obtain ⟨after, final, sentGood, part, written, tail⟩ :=
    fresh.run reads writes injective clean every
  rw [List.nil_append] at sentGood
  rw [List.nil_append, List.append_assoc] at written
  exact ⟨after, _, final, written,
    fun calls => reads.items_decodeTimes sentGood tail calls⟩

end Runs

end TsnGen.FramedStream
