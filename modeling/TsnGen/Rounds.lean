import Mathlib.Data.List.Infix
import TsnGen.FramedStream

namespace TsnGen

/-!
# Rounds of actions

A program that works in rounds carries out the actions of a round in order,
until one fails, the rounds are done or the program is interrupted.  A round
does not depend on how its actions turn out, so what was carried out is an
initial part of a list that is known beforehand.

A program that drains a source asks it for items until it ends, fails or has
yielded enough; what it does follows from the list of the source's answers.
-/

namespace Rounds

variable {α β ε σ τ : Type}

/-- How rounds come to their end. -/
inductive Verdict where
  | finished
  | failed (index : Nat)
  | interrupted
  deriving Repr, DecidableEq

section Actions

variable (perform : α → σ → Bool × σ)

/-- Carry out actions in order, up to the first one that fails. -/
def performAll : List α → σ → Bool × σ
  | [], state => (true, state)
  | action :: rest, state =>
      let done := perform action state
      if done.1 then
        performAll rest done.2
      else
        (false, done.2)

/-- The actions that are carried out; only the last one may fail. -/
def performed : List α → σ → List α
  | [], _ => []
  | action :: rest, state =>
      let done := perform action state
      if done.1 then
        action :: performed rest done.2
      else
        [action]

/--
Rounds from an index on, up to a count or without an end if it is zero.  The
limit is the number of rounds after which the program is interrupted.
-/
def run
    (round : τ → List α × τ)
    (count : Nat) :
    Nat → Nat → τ → σ → Verdict × σ
  | 0, _, _, state => (.interrupted, state)
  | limit + 1, index, source, state =>
      if count = 0 ∨ index < count then
        let made := round source
        let done := performAll perform made.1 state
        if done.1 then
          run round count limit (index + 1) made.2 done.2
        else
          (.failed index, done.2)
      else
        (.finished, state)

end Actions

/-- The actions of a number of rounds. -/
def actions
    (round : τ → List α × τ) :
    Nat → τ → List α
  | 0, _ => []
  | rounds + 1, source =>
      (round source).1 ++ actions round rounds (round source).2

/-- How many rounds there are, unless an action fails. -/
def roundCount
    (count limit : Nat) : Nat :=
  if count = 0 then limit else min count limit

variable {perform : α → σ → Bool × σ}
variable {round : τ → List α × τ}

/-- What is carried out of two lists in order. -/
theorem performAll_append
    (first second : List α)
    (state : σ) :
    performAll perform (first ++ second) state =
      if (performAll perform first state).1 then
        performAll perform second (performAll perform first state).2
      else
        performAll perform first state := by
  induction first generalizing state with
  | nil =>
      simp [performAll]
  | cons action rest inductionHypothesis =>
      by_cases succeeded : (perform action state).1 = true
      · simp [performAll, succeeded, inductionHypothesis]
      · simp [performAll, succeeded]

/-- What was carried out is an initial part of what there was to do. -/
theorem performed_isPrefix
    (todo : List α)
    (state : σ) :
    performed perform todo state <+: todo := by
  induction todo generalizing state with
  | nil =>
      exact List.nil_prefix
  | cons action rest inductionHypothesis =>
      by_cases succeeded : (perform action state).1 = true
      · simpa [performed, succeeded] using
          inductionHypothesis (perform action state).2
      · simp [performed, succeeded]

/-- Without a failure everything is carried out. -/
theorem performed_eq
    {todo : List α}
    {state : σ}
    (succeeded : (performAll perform todo state).1 = true) :
    performed perform todo state = todo := by
  induction todo generalizing state with
  | nil =>
      rfl
  | cons action rest inductionHypothesis =>
      by_cases first : (perform action state).1 = true
      · rw [performAll] at succeeded
        simp only [first, ↓reduceIte] at succeeded
        simp [performed, first, inductionHypothesis succeeded]
      · simp [performAll, first] at succeeded

/-- A failure is that of the last action carried out. -/
theorem exists_failing
    {todo : List α}
    {state : σ}
    (stopped : (performAll perform todo state).1 = false) :
    ∃ before failing,
      performed perform todo state = before ++ [failing] ∧
        (performAll perform before state).1 = true ∧
          perform failing (performAll perform before state).2 =
            performAll perform todo state := by
  induction todo generalizing state with
  | nil =>
      simp [performAll] at stopped
  | cons action rest inductionHypothesis =>
      by_cases first : (perform action state).1 = true
      · rw [performAll] at stopped
        simp only [first, ↓reduceIte] at stopped
        obtain ⟨before, failing, shape, succeeded, last⟩ :=
          inductionHypothesis stopped
        refine ⟨action :: before, failing, ?_, ?_, ?_⟩
        · simp [performed, first, shape]
        · simp [performAll, first, succeeded]
        · simp [performAll, first, last]
      · have refused : (perform action state).1 = false := by
          simpa using first
        refine ⟨[], action, ?_, rfl, ?_⟩
        · simp [performed, refused]
        · simp only [performAll, refused, Bool.false_eq_true, ↓reduceIte]
          rw [← refused]

/-- What every action keeps, all of them keep. -/
theorem performAll_keeps
    (holds : σ → Prop)
    (keeps : ∀ action state, holds state → holds (perform action state).2)
    (todo : List α)
    {state : σ}
    (before : holds state) :
    holds (performAll perform todo state).2 := by
  induction todo generalizing state with
  | nil =>
      exact before
  | cons action rest inductionHypothesis =>
      by_cases succeeded : (perform action state).1 = true
      · simp only [performAll, succeeded, ↓reduceIte]
        exact inductionHypothesis (keeps action state before)
      · simp only [performAll, succeeded, Bool.false_eq_true, ↓reduceIte]
        exact keeps action state before

/--
What every action keeps unless it fails, all of them keep unless one does.
-/
theorem performAll_keeps_succeeding
    (holds : σ → Prop)
    (keeps :
      ∀ action state,
        (perform action state).1 = true → holds state →
          holds (perform action state).2)
    {todo : List α}
    {state : σ}
    (succeeded : (performAll perform todo state).1 = true)
    (before : holds state) :
    holds (performAll perform todo state).2 := by
  induction todo generalizing state with
  | nil =>
      exact before
  | cons action rest inductionHypothesis =>
      by_cases first : (perform action state).1 = true
      · simp only [performAll, first, ↓reduceIte] at succeeded ⊢
        exact inductionHypothesis succeeded (keeps action state first before)
      · simp [performAll, first] at succeeded

/--
What every action adds to a view of the states of some kind, all of them add in
order.
-/
theorem view_performAll
    (holds : σ → Prop)
    (view : σ → List β)
    {shows : α → List β}
    (keeps : ∀ action state, holds state → holds (perform action state).2)
    (adds :
      ∀ action state,
        holds state →
          view (perform action state).2 = view state ++ shows action)
    (todo : List α)
    {state : σ}
    (before : holds state) :
    view (performAll perform todo state).2 =
      view state ++ (performed perform todo state).flatMap shows := by
  induction todo generalizing state with
  | nil =>
      simp [performAll, performed]
  | cons action rest inductionHypothesis =>
      have added := adds action state before
      by_cases succeeded : (perform action state).1 = true
      · have later := inductionHypothesis (keeps action state before)
        simp [performAll, performed, succeeded, later, added]
      · simp [performAll, performed, succeeded, added]

section Views

variable {σ' : Type}
variable {perform' : α → σ' → Bool × σ'}
variable {image : σ → σ'}

/-- Actions on images are images of the actions. -/
theorem performAll_map
    (commutes :
      ∀ action state,
        perform' action (image state) =
          (perform action state).map id image)
    (todo : List α)
    (state : σ) :
    performAll perform' todo (image state) =
      (performAll perform todo state).map id image := by
  induction todo generalizing state with
  | nil =>
      rfl
  | cons action rest inductionHypothesis =>
      rw [performAll, performAll, commutes]
      by_cases succeeded : (perform action state).1 = true
      · simp [succeeded, inductionHypothesis]
      · simp [succeeded]

/-- Rounds on images are images of the rounds. -/
theorem run_map
    (commutes :
      ∀ action state,
        perform' action (image state) =
          (perform action state).map id image)
    (round : τ → List α × τ)
    (count limit index : Nat)
    (source : τ)
    (state : σ) :
    run perform' round count limit index source (image state) =
      (run perform round count limit index source state).map id image := by
  induction limit generalizing index source state with
  | zero =>
      rfl
  | succ limit inductionHypothesis =>
      simp only [run, performAll_map commutes]
      by_cases goesOn : count = 0 ∨ index < count
      · by_cases succeeded :
            (performAll perform (round source).1 state).1 = true
        · simp [goesOn, succeeded, inductionHypothesis]
        · simp [goesOn, succeeded]
      · simp [goesOn]

end Views

/-- The actions of more rounds begin with those of fewer. -/
theorem actions_isPrefix
    {fewer more : Nat}
    (le : fewer ≤ more)
    (source : τ) :
    actions round fewer source <+: actions round more source := by
  induction fewer generalizing more source with
  | zero =>
      exact List.nil_prefix
  | succ fewer inductionHypothesis =>
      cases more with
      | zero =>
          exact absurd le (Nat.not_succ_le_zero fewer)
      | succ more =>
          simp only [actions, List.prefix_append_right_inj]
          exact inductionHypothesis (Nat.le_of_succ_le_succ le) _

/-- The actions of rounds from sources of a kind, round by round. -/
theorem exists_made
    (holds : τ → Prop)
    (possible : List α → Prop)
    (step :
      ∀ source,
        holds source →
          possible (round source).1 ∧ holds (round source).2)
    (rounds : Nat)
    {source : τ}
    (before : holds source) :
    ∃ made : List (List α),
      made.length = rounds ∧ (∀ done ∈ made, possible done) ∧
        actions round rounds source = made.flatten := by
  induction rounds generalizing source with
  | zero =>
      exact ⟨[], rfl, fun _ member => (List.not_mem_nil member).elim, rfl⟩
  | succ rounds inductionHypothesis =>
      obtain ⟨first, after⟩ := step source before
      obtain ⟨made, count, others, later⟩ := inductionHypothesis after
      refine ⟨(round source).1 :: made, ?_, ?_, ?_⟩
      · rw [List.length_cons, count]
      · exact List.forall_mem_cons.mpr ⟨first, others⟩
      · rw [actions, List.flatten_cons, ← later]

/-- How many rounds are left at an index. -/
private theorem roundCount_succ
    {count limit index : Nat}
    (goesOn : count = 0 ∨ index < count) :
    (if count = 0 then limit + 1 else min (count - index) (limit + 1)) =
      (if count = 0 then limit else min (count - (index + 1)) limit) + 1 := by
  split
  · rfl
  · omega

/-- Rounds carry out their actions in order, whatever the bounds are. -/
private theorem run_from
    (count limit index : Nat)
    (source : τ)
    (state : σ) :
    let left := if count = 0 then limit else min (count - index) limit
    let done := performAll perform (actions round left source) state
    (run perform round count limit index source state).2 = done.2 ∧
      ((run perform round count limit index source state).1 = .finished ↔
        done.1 = true ∧ count ≠ 0 ∧ count - index < limit) ∧
      ((run perform round count limit index source state).1 =
          .interrupted ↔
        done.1 = true ∧ (count = 0 ∨ limit ≤ count - index)) := by
  induction limit generalizing index source state with
  | zero =>
      simp [run, actions, performAll]
  | succ limit inductionHypothesis =>
      by_cases goesOn : count = 0 ∨ index < count
      · rw [roundCount_succ goesOn]
        simp only [run, goesOn, ↓reduceIte, actions, performAll_append]
        by_cases succeeded :
            (performAll perform (round source).1 state).1 = true
        · simp only [succeeded, ↓reduceIte]
          obtain ⟨sameState, finished, interrupted⟩ :=
            inductionHypothesis (index + 1) (round source).2
              (performAll perform (round source).1 state).2
          refine ⟨sameState, finished.trans ?_, interrupted.trans ?_⟩
          · constructor
            · rintro ⟨all, counted, less⟩
              exact ⟨all, counted, by omega⟩
            · rintro ⟨all, counted, less⟩
              exact ⟨all, counted, by omega⟩
          · constructor
            · rintro ⟨all, bounds⟩
              exact ⟨all, by omega⟩
            · rintro ⟨all, bounds⟩
              exact ⟨all, by omega⟩
        · simp [succeeded]
      · obtain ⟨counted, reached⟩ := not_or.mp goesOn
        have noneLeft : count - index = 0 := by
          omega
        simp [run, counted, reached, noneLeft, actions, performAll]

section Runs

variable
  (perform)
  (round)
  (count limit : Nat)
  (source : τ)
  (state : σ)

/-- A run carries out the actions of its rounds. -/
theorem run_state :
    (run perform round count limit 0 source state).2 =
      (performAll perform (actions round (roundCount count limit) source)
        state).2 :=
  (run_from count limit 0 source state).1

/-- A run finishes if there is an end to reach and nothing fails before. -/
theorem run_finished_iff :
    (run perform round count limit 0 source state).1 = .finished ↔
      (performAll perform (actions round (roundCount count limit) source)
          state).1 = true ∧
        count ≠ 0 ∧ count < limit :=
  (run_from count limit 0 source state).2.1

/-- A run is interrupted if nothing fails and no end was reached. -/
theorem run_interrupted_iff :
    (run perform round count limit 0 source state).1 = .interrupted ↔
      (performAll perform (actions round (roundCount count limit) source)
          state).1 = true ∧
        (count = 0 ∨ limit ≤ count) :=
  (run_from count limit 0 source state).2.2

/-- A run fails if one of its actions does. -/
theorem run_failed_iff :
    (∃ index,
        (run perform round count limit 0 source state).1 =
          .failed index) ↔
      (performAll perform (actions round (roundCount count limit) source)
          state).1 = false := by
  have finished := run_finished_iff perform round count limit source state
  have interrupted :=
    run_interrupted_iff perform round count limit source state
  cases verdict :
      (run perform round count limit 0 source state).1 with
  | finished =>
      simp [(finished.mp verdict).1]
  | interrupted =>
      simp [(interrupted.mp verdict).1]
  | failed index =>
      simp only [Verdict.failed.injEq, exists_eq', true_iff]
      rw [verdict] at finished interrupted
      by_contra succeeded
      have all := (Bool.not_eq_false _).mp succeeded
      by_cases ends : count ≠ 0 ∧ count < limit
      · cases finished.mpr ⟨all, ends⟩
      · have endless : count = 0 ∨ limit ≤ count := by
          omega
        cases interrupted.mpr ⟨all, endless⟩

end Runs

section Draining

/-- How a source comes to its end. -/
inductive Ended where
  | done
  | broken (counted : Nat)
  | interrupted
  deriving Repr, DecidableEq

variable
  (receive : σ → Except ε α × σ)
  (isEnd : ε → Bool)
  (counts : α → Bool)
  (consume : α → τ → τ)
  (count : Nat)

/--
Ask a source for items: those that count are consumed, the others dropped.  A
count of zero has no end, and the limit is on the number of calls.
-/
def drain :
    Nat → Nat → σ → τ → Ended × τ × σ
  | 0, _, source, state => (.interrupted, state, source)
  | limit + 1, counted, source, state =>
      if count = 0 ∨ counted < count then
        let received := receive source
        match received.1 with
        | .error code =>
            (if isEnd code then .done else .broken counted, state,
              received.2)
        | .ok item =>
            if counts item then
              drain limit (counted + 1) received.2 (consume item state)
            else
              drain limit counted received.2 state
      else
        (.done, state, source)

/-- The items that are consumed of a source that yields some and then ends. -/
def consumed
    (items : List α) : List α :=
  if count = 0 then
    items.filter counts
  else
    (items.filter counts).take count

/-- Draining into images is the image of the draining. -/
theorem drain_map
    {τ' : Type}
    {consume' : α → τ' → τ'}
    {image : τ → τ'}
    (commutes :
      ∀ item state, consume' item (image state) = image (consume item state))
    (limit counted : Nat)
    (source : σ)
    (state : τ) :
    drain receive isEnd counts consume' count limit counted source
        (image state) =
      (drain receive isEnd counts consume count limit counted source
        state).map id (Prod.map image id) := by
  induction limit generalizing counted source state with
  | zero =>
      rfl
  | succ limit inductionHypothesis =>
      rw [drain, drain]
      by_cases goesOn : count = 0 ∨ counted < count
      · cases first : (receive source).1 with
        | error code =>
            simp [goesOn, first]
        | ok item =>
            by_cases counting : counts item = true
            · simp [goesOn, first, counting, commutes, inductionHypothesis]
            · simp [goesOn, first, counting, inductionHypothesis]
      · simp [goesOn]

/-- A source that is ready after each item is left as the last call left it. -/
theorem drain_leaves
    (ready ended failed : σ → Prop)
    (keeps :
      ∀ source item,
        (receive source).1 = .ok item → ready source →
          ready (receive source).2)
    (ends :
      ∀ source code,
        (receive source).1 = .error code → ready source →
          if isEnd code then
            ended (receive source).2
          else
            failed (receive source).2)
    (limit counted : Nat)
    {source : σ}
    (state : τ)
    (before : ready source) :
    let drained :=
      drain receive isEnd counts consume count limit counted source state
    match drained.1 with
    | .done => ready drained.2.2 ∨ ended drained.2.2
    | .broken _ => failed drained.2.2
    | .interrupted => ready drained.2.2 := by
  induction limit generalizing counted source state with
  | zero =>
      exact before
  | succ limit inductionHypothesis =>
      by_cases goesOn : count = 0 ∨ counted < count
      · cases first : (receive source).1 with
        | error code =>
            have left := ends source code first before
            simp only [drain, goesOn, ↓reduceIte, first]
            split at left
            next isEnd =>
              simp only [isEnd, ↓reduceIte]
              exact .inr left
            next isFailure =>
              simp only [isFailure, Bool.false_eq_true, ↓reduceIte]
              exact left
        | ok item =>
            have later := keeps source item first before
            by_cases counting : counts item = true
            · simp only [drain, goesOn, ↓reduceIte, first, counting]
              exact inductionHypothesis (counted + 1) _ later
            · simp only [drain, goesOn, ↓reduceIte, first, counting,
                Bool.false_eq_true]
              exact inductionHypothesis counted _ later
      · simp only [drain, goesOn, ↓reduceIte]
        exact .inl before

/-- How a source comes to its end by its last answer, or else by the limit. -/
def endedBy
    (limit received counted : Nat) : Option ε → Ended
  | some code =>
      if isEnd code then
        .done
      else
        .broken counted
  | none =>
      if received < limit then .done else .interrupted

/-- What was received of a source, and how that was told. -/
structure Drained
    (limit counted : Nat)
    (source : σ)
    (state : τ)
    (drained : Ended × τ × σ)
    (received : List α)
    (ending : Option ε) : Prop where
  within : received.length + ending.toList.length ≤ limit
  answers :
    FramedStream.receiveTimes receive
        (received.length + ending.toList.length) source =
      received.map Except.ok ++ ending.toList.map Except.error
  consumed :
    drained.2.1 =
      (received.filter counts).foldl (fun state item => consume item state)
        state
  bounded :
    count ≠ 0 → counted + (received.filter counts).length ≤ count
  verdict :
    drained.1 =
      endedBy isEnd limit received.length
        (counted + (received.filter counts).length) ending
  reached :
    ending = none → received.length < limit →
      count ≠ 0 ∧ counted + (received.filter counts).length = count
  early :
    count ≠ 0 →
      ∀ calls < received.length + ending.toList.length,
        counted + ((received.take calls).filter counts).length < count

section Steps

variable {receive isEnd counts consume count}
variable {limit counted : Nat}
variable {source : σ}
variable {state : τ}

/-- A source that may not be asked is not asked. -/
private theorem Drained.of_no_call
    (few : count ≠ 0 → counted ≤ count) :
    Drained receive isEnd counts consume count 0 counted source state
      (.interrupted, state, source) [] none where
  within := Nat.le_refl _
  answers := rfl
  consumed := rfl
  bounded := few
  verdict := rfl
  reached := fun _ less => absurd less (Nat.not_lt_zero _)
  early := fun _ _ less => absurd less (Nat.not_lt_zero _)

/-- A source is not asked behind the count. -/
private theorem Drained.of_reached
    (few : count ≠ 0 → counted ≤ count)
    (stops : ¬ (count = 0 ∨ counted < count)) :
    Drained receive isEnd counts consume count (limit + 1) counted source
      state
      (drain receive isEnd counts consume count (limit + 1) counted source
        state) [] none where
  within := Nat.zero_le _
  answers := rfl
  consumed := by
    simp [drain, stops]
  bounded := few
  verdict := by
    simp [drain, stops, endedBy]
  reached := by
    intro _ _
    obtain ⟨limited, reached⟩ := not_or.mp stops
    exact ⟨limited, Nat.le_antisymm (few limited) (Nat.not_lt.mp reached)⟩
  early := fun _ _ less => absurd less (Nat.not_lt_zero _)

/-- An error is the last answer of a source. -/
private theorem Drained.of_error
    (few : count ≠ 0 → counted ≤ count)
    (goesOn : count = 0 ∨ counted < count)
    {code : ε}
    (first : (receive source).1 = .error code) :
    Drained receive isEnd counts consume count (limit + 1) counted source
      state
      (drain receive isEnd counts consume count (limit + 1) counted source
        state) [] (some code) where
  within := by
    simp
  answers := by
    simp [FramedStream.receiveTimes, first]
  consumed := by
    simp [drain, goesOn, first]
  bounded := few
  verdict := by
    simp [drain, goesOn, first, endedBy]
  reached := by
    intro isNone
    cases isNone
  early := by
    intro limited calls _
    simpa using goesOn.resolve_left limited

/-- How many items are counted behind one more. -/
private def countedBehind
    (counts : α → Bool)
    (counted : Nat)
    (item : α) : Nat :=
  if counts item then counted + 1 else counted

private theorem countedBehind_add
    (counts : α → Bool)
    (counted : Nat)
    (item : α)
    (items : List α) :
    counted + ((item :: items).filter counts).length =
      countedBehind counts counted item + (items.filter counts).length := by
  rw [countedBehind, List.filter_cons]
  split
  · rw [List.length_cons]
    omega
  · rfl

private theorem countedBehind_le
    {item : α}
    (few : count ≠ 0 → counted ≤ count)
    (goesOn : count = 0 ∨ counted < count) :
    count ≠ 0 → countedBehind counts counted item ≤ count := by
  intro limited
  have less := goesOn.resolve_left limited
  rw [countedBehind]
  split
  · exact less
  · exact few limited

/-- An item is the first answer of a source that is drained further. -/
private theorem Drained.of_ok
    (goesOn : count = 0 ∨ counted < count)
    {item : α}
    (first : (receive source).1 = .ok item)
    {received : List α}
    {ending : Option ε}
    (later :
      Drained receive isEnd counts consume count limit
        (countedBehind counts counted item) (receive source).2
        (if counts item then consume item state else state)
        (drain receive isEnd counts consume count limit
          (countedBehind counts counted item) (receive source).2
          (if counts item then consume item state else state))
        received ending) :
    Drained receive isEnd counts consume count (limit + 1) counted source
      state
      (drain receive isEnd counts consume count (limit + 1) counted source
        state) (item :: received) ending := by
  have goes :
      drain receive isEnd counts consume count (limit + 1) counted source
          state =
        drain receive isEnd counts consume count limit
          (countedBehind counts counted item) (receive source).2
          (if counts item then consume item state else state) := by
    rw [countedBehind]
    by_cases counting : counts item = true
    · simp [drain, goesOn, first, counting]
    · simp [drain, goesOn, first, counting]
  have calls :
      (item :: received).length + ending.toList.length =
        received.length + ending.toList.length + 1 := by
    rw [List.length_cons]
    omega
  rw [goes]
  constructor
  case within =>
    rw [calls]
    exact Nat.succ_le_succ later.within
  case answers =>
    rw [calls, FramedStream.receiveTimes, first, later.answers,
      List.map_cons, List.cons_append]
  case consumed =>
    rw [later.consumed, List.filter_cons]
    split
    · rfl
    · rfl
  case bounded =>
    rw [countedBehind_add]
    exact later.bounded
  case verdict =>
    rw [later.verdict, countedBehind_add, List.length_cons]
    cases ending with
    | none =>
        simp only [endedBy, Nat.add_lt_add_iff_right]
    | some code =>
        rfl
  case reached =>
    intro isNone less
    rw [countedBehind_add]
    exact later.reached isNone (Nat.lt_of_succ_lt_succ less)
  case early =>
    intro limited call less
    rw [calls] at less
    cases call with
    | zero =>
        exact goesOn.resolve_left limited
    | succ call =>
        rw [List.take_succ_cons, countedBehind_add]
        exact later.early limited call (Nat.lt_of_succ_lt_succ less)

end Steps

/-- Draining from some number of counted items on. -/
private theorem drained_drain
    (limit counted : Nat)
    (source : σ)
    (state : τ)
    (few : count ≠ 0 → counted ≤ count) :
    ∃ received ending,
      Drained receive isEnd counts consume count limit counted source state
        (drain receive isEnd counts consume count limit counted source
          state) received ending := by
  induction limit generalizing counted source state with
  | zero =>
      exact ⟨[], none, .of_no_call few⟩
  | succ limit inductionHypothesis =>
      by_cases goesOn : count = 0 ∨ counted < count
      · cases first : (receive source).1 with
        | error code =>
            exact ⟨[], some code, .of_error few goesOn first⟩
        | ok item =>
            obtain ⟨received, ending, later⟩ :=
              inductionHypothesis (countedBehind counts counted item)
                (receive source).2
                (if counts item then consume item state else state)
                (countedBehind_le few goesOn)
            exact ⟨item :: received, ending, .of_ok goesOn first later⟩
      · exact ⟨[], none, .of_reached few goesOn⟩

/--
Draining consumes the items that count among those received before the first
error.  It is done if that is the end of the source or enough were counted, and
broken at any other error; else it is interrupted.  No call is made once enough
were counted.
-/
theorem drain_accounted
    (limit : Nat)
    (source : σ)
    (state : τ) :
    let drained :=
      drain receive isEnd counts consume count limit 0 source state
    ∃ (received : List α) (ending : Option ε),
      received.length + ending.toList.length ≤ limit ∧
        FramedStream.receiveTimes receive
            (received.length + ending.toList.length) source =
          received.map Except.ok ++ ending.toList.map Except.error ∧
        drained.2.1 =
          (received.filter counts).foldl
            (fun state item => consume item state) state ∧
        (count ≠ 0 → (received.filter counts).length ≤ count) ∧
        drained.1 =
          endedBy isEnd limit received.length (received.filter counts).length
            ending ∧
        (ending = none → received.length < limit →
          count ≠ 0 ∧ (received.filter counts).length = count) ∧
        (count ≠ 0 →
          ∀ calls < received.length + ending.toList.length,
            ((received.take calls).filter counts).length < count) := by
  obtain ⟨received, ending, drained⟩ :=
    drained_drain receive isEnd counts consume count limit 0 source state
      (fun _ => Nat.zero_le _)
  obtain ⟨within, answers, consumed, bounded, verdict, reached, early⟩ :=
    drained
  simp only [Nat.zero_add] at bounded verdict reached early
  exact ⟨received, ending, within, answers, consumed, bounded, verdict,
    reached, early⟩

/-- What was received of a source that yields items and then ends. -/
private theorem received_of_yields
    {finish : ε}
    {received items : List α}
    {ending : Option ε}
    {more : Nat}
    (answers :
      received.map Except.ok ++ ending.toList.map Except.error =
        (items.map Except.ok ++
          List.replicate more (Except.error finish)).take
            (received.length + ending.toList.length)) :
    received <+: items ∧
      ∀ code, ending = some code → received = items ∧ code = finish := by
  induction received generalizing items with
  | nil =>
      refine ⟨List.nil_prefix, ?_⟩
      rintro code rfl
      cases items with
      | nil =>
          cases more with
          | zero =>
              simp at answers
          | succ more =>
              simpa [List.replicate_succ] using answers
      | cons item rest =>
          simp at answers
  | cons first received inductionHypothesis =>
      cases items with
      | nil =>
          cases more with
          | zero =>
              simp at answers
          | succ more =>
              rw [List.length_cons, Nat.add_right_comm] at answers
              simp [List.replicate_succ] at answers
      | cons item rest =>
          rw [List.length_cons, Nat.add_right_comm, List.map_cons,
            List.cons_append, List.map_cons, List.cons_append,
            List.take_succ_cons, List.cons.injEq] at answers
          obtain ⟨same, others⟩ := answers
          cases same
          obtain ⟨initial, ended⟩ := inductionHypothesis others
          refine ⟨List.prefix_cons_inj first |>.mpr initial, ?_⟩
          intro code isCode
          obtain ⟨rfl, isFinish⟩ := ended code isCode
          exact ⟨rfl, isFinish⟩

/-- A source that yields items and then ends is drained of them. -/
theorem drain_eq
    {finish : ε}
    (ends : isEnd finish = true)
    {items : List α}
    {source : σ}
    {limit : Nat}
    (enough : items.length < limit)
    (yields :
      ∀ calls,
        FramedStream.receiveTimes receive calls source =
          (items.map Except.ok ++
            List.replicate calls (Except.error finish)).take calls)
    (state : τ) :
    let drained :=
      drain receive isEnd counts consume count limit 0 source state
    drained.1 = .done ∧
      drained.2.1 =
        (consumed counts count items).foldl
          (fun state item => consume item state) state := by
  intro drained
  obtain ⟨received, ending, within, answers, isState, bounded, verdict,
      reached, -⟩ :=
    drain_accounted receive isEnd counts consume count limit source state
  rw [yields] at answers
  obtain ⟨initial, ended⟩ := received_of_yields answers.symm
  cases ending with
  | some code =>
      obtain ⟨rfl, rfl⟩ := ended code rfl
      refine ⟨verdict.trans (if_pos ends), isState.trans ?_⟩
      rw [consumed]
      split
      next endless =>
        rfl
      next limited =>
        rw [List.take_of_length_le (bounded limited)]
  | none =>
      have less : received.length < limit :=
        initial.length_le.trans_lt enough
      obtain ⟨limited, isCount⟩ := reached rfl less
      refine ⟨verdict.trans (if_pos less), isState.trans ?_⟩
      rw [consumed, if_neg limited, ← isCount,
        ← List.prefix_iff_eq_take.mp (initial.filter counts)]

end Draining

end Rounds

end TsnGen
