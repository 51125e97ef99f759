import Mathlib.Logic.Function.Basic

namespace TsnGen

/-!
# Programs over numbered handles

A program opens handles, works on what is behind them and closes them.  It is
given a number for a handle, any that is free, and may by mistake use one that
it has closed; such a use is a fault.  What a program needs and leaves is told
by a weakest precondition over the table of the open handles.  A program that
is right on a table of its own is right beside any other handles, and leaves
them as they are.
-/

/-- What is behind each number; nothing, while the number is free. -/
abbrev HandleTable (D : Type) := Nat → Option D

/-- A program that opens, uses and closes handles. -/
inductive HandleProgram (D α : Type) : Type 1 where
  | done (result : α)
  /-- Open a handle; there is no number if that fails. -/
  | acquire (next : Option Nat → HandleProgram D α)
  /-- Act on what is behind a number. -/
  | work
      {β : Type}
      (number : Nat)
      (action : D → β × D)
      (next : β → HandleProgram D α)
  | release (number : Nat) (next : HandleProgram D α)

namespace HandleTable

/-- The table without a handle. -/
def empty : HandleTable D :=
  fun _ => none

/-- A table beside another one. -/
def beside
    (own others : HandleTable D) : HandleTable D :=
  fun number => (own number).or (others number)

/-- No number is open in both tables. -/
def Apart
    (own others : HandleTable D) : Prop :=
  ∀ number, own number = none ∨ others number = none

/-- A number that is free beside others is free. -/
theorem beside_eq_none_iff
    (own others : HandleTable D)
    (number : Nat) :
    own.beside others number = none ↔
      own number = none ∧ others number = none :=
  Option.or_eq_none_iff

/-- What is open is found beside others. -/
theorem beside_of_some
    {own : HandleTable D}
    (others : HandleTable D)
    {number : Nat}
    {item : D}
    (isOpen : own number = some item) :
    own.beside others number = some item := by
  rw [beside, isOpen, Option.some_or]

/-- An entry may change where the other table has none. -/
theorem update_beside
    {own others : HandleTable D}
    {number : Nat}
    (free : others number = none)
    (entry : Option D) :
    Function.update (own.beside others) number entry =
      HandleTable.beside (Function.update own number entry) others := by
  funext other
  by_cases same : other = number
  · subst same
    simp [beside, free]
  · simp [beside, Function.update_of_ne same]

/-- Tables stay apart if an entry changes where the other one has none. -/
theorem Apart.update
    {own others : HandleTable D}
    (apart : Apart own others)
    {number : Nat}
    (free : others number = none)
    (entry : Option D) :
    Apart (Function.update own number entry) others := by
  intro other
  by_cases same : other = number
  · subst same
    exact .inr free
  · rw [Function.update_of_ne same]
    exact apart other

/-- What is open in one table is free in the other. -/
theorem Apart.free
    {own others : HandleTable D}
    (apart : Apart own others)
    {number : Nat}
    {item : D}
    (isOpen : own number = some item) :
    others number = none := by
  rcases apart number with closed | free
  · rw [isOpen] at closed
    cases closed
  · exact free

end HandleTable

namespace HandleProgram

variable {D α : Type}

/--
A program runs on a table, with what is behind the handles it opens, or nothing
where that fails.
-/
inductive Runs :
    HandleProgram D α → List (Option D) → HandleTable D →
      α → HandleTable D → Prop where
  | done
      {result : α}
      {table : HandleTable D} :
      Runs (.done result) [] table result table
  | refused
      {next : Option Nat → HandleProgram D α}
      {offers : List (Option D)}
      {table after : HandleTable D}
      {result : α}
      (rest : Runs (next none) offers table result after) :
      Runs (.acquire next) (none :: offers) table result after
  | acquired
      {next : Option Nat → HandleProgram D α}
      {item : D}
      {offers : List (Option D)}
      {table after : HandleTable D}
      {result : α}
      {number : Nat}
      (free : table number = none)
      (rest :
        Runs (next (some number)) offers
          (Function.update table number (some item)) result after) :
      Runs (.acquire next) (some item :: offers) table result after
  | worked
      {β : Type}
      {number : Nat}
      {action : D → β × D}
      {next : β → HandleProgram D α}
      {offers : List (Option D)}
      {table after : HandleTable D}
      {result : α}
      {item : D}
      (isOpen : table number = some item)
      (rest :
        Runs (next (action item).1) offers
          (Function.update table number (some (action item).2)) result
          after) :
      Runs (.work number action next) offers table result after
  | released
      {number : Nat}
      {next : HandleProgram D α}
      {offers : List (Option D)}
      {table after : HandleTable D}
      {result : α}
      {item : D}
      (isOpen : table number = some item)
      (rest :
        Runs next offers (Function.update table number none) result
          after) :
      Runs (.release number next) offers table result after

/-- A program comes to use a number that is not open. -/
inductive Faults :
    HandleProgram D α → List (Option D) → HandleTable D → Prop where
  | work
      {β : Type}
      {number : Nat}
      {action : D → β × D}
      {next : β → HandleProgram D α}
      {offers : List (Option D)}
      {table : HandleTable D}
      (closed : table number = none) :
      Faults (.work number action next) offers table
  | release
      {number : Nat}
      {next : HandleProgram D α}
      {offers : List (Option D)}
      {table : HandleTable D}
      (closed : table number = none) :
      Faults (.release number next) offers table
  | refused
      {next : Option Nat → HandleProgram D α}
      {offers : List (Option D)}
      {table : HandleTable D}
      (rest : Faults (next none) offers table) :
      Faults (.acquire next) (none :: offers) table
  | acquired
      {next : Option Nat → HandleProgram D α}
      {item : D}
      {offers : List (Option D)}
      {table : HandleTable D}
      {number : Nat}
      (free : table number = none)
      (rest :
        Faults (next (some number)) offers
          (Function.update table number (some item))) :
      Faults (.acquire next) (some item :: offers) table
  | worked
      {β : Type}
      {number : Nat}
      {action : D → β × D}
      {next : β → HandleProgram D α}
      {offers : List (Option D)}
      {table : HandleTable D}
      {item : D}
      (isOpen : table number = some item)
      (rest :
        Faults (next (action item).1) offers
          (Function.update table number (some (action item).2))) :
      Faults (.work number action next) offers table
  | released
      {number : Nat}
      {next : HandleProgram D α}
      {offers : List (Option D)}
      {table : HandleTable D}
      {item : D}
      (isOpen : table number = some item)
      (rest :
        Faults next offers (Function.update table number none)) :
      Faults (.release number next) offers table

/--
The weakest precondition: no number is used that is not open, and whatever is
returned meets the postcondition.
-/
def wp
    (post : α → HandleTable D → Prop) :
    HandleProgram D α → List (Option D) → HandleTable D → Prop
  | .done result, offers, table => offers = [] → post result table
  | .acquire _, [], _ => True
  | .acquire next, none :: offers, table => wp post (next none) offers table
  | .acquire next, some item :: offers, table =>
      ∀ number,
        table number = none →
          wp post (next (some number)) offers
            (Function.update table number (some item))
  | .work number action next, offers, table =>
      ∃ item,
        table number = some item ∧
          wp post (next (action item).1) offers
            (Function.update table number (some (action item).2))
  | .release number next, offers, table =>
      ∃ item,
        table number = some item ∧
          wp post next offers (Function.update table number none)

variable {post : α → HandleTable D → Prop}
variable {program : HandleProgram D α}
variable {offers : List (Option D)}
variable {table : HandleTable D}

/-- A postcondition may be weakened. -/
theorem wp_mono
    {weaker : α → HandleTable D → Prop}
    (implies : ∀ result after, post result after → weaker result after)
    (holds : wp post program offers table) :
    wp weaker program offers table := by
  induction program generalizing offers table with
  | done result =>
      exact fun used => implies _ _ (holds used)
  | acquire next inductionHypothesis =>
      cases offers with
      | nil =>
          trivial
      | cons offer offers =>
          cases offer with
          | none =>
              exact inductionHypothesis none holds
          | some item =>
              exact fun number free =>
                inductionHypothesis (some number) (holds number free)
  | work number action next inductionHypothesis =>
      obtain ⟨item, isOpen, rest⟩ := holds
      exact ⟨item, isOpen, inductionHypothesis _ rest⟩
  | release number next inductionHypothesis =>
      obtain ⟨item, isOpen, rest⟩ := holds
      exact ⟨item, isOpen, inductionHypothesis rest⟩

/-- Under the weakest precondition a program does not fault. -/
theorem wp_faultless
    (holds : wp post program offers table) :
    ¬ Faults program offers table := by
  intro faults
  induction faults with
  | work closed =>
      obtain ⟨item, isOpen, -⟩ := holds
      rw [closed] at isOpen
      cases isOpen
  | release closed =>
      obtain ⟨item, isOpen, -⟩ := holds
      rw [closed] at isOpen
      cases isOpen
  | refused _ inductionHypothesis =>
      exact inductionHypothesis holds
  | acquired free _ inductionHypothesis =>
      exact inductionHypothesis (holds _ free)
  | worked isOpen _ inductionHypothesis =>
      obtain ⟨item, isOpen', rest⟩ := holds
      rw [isOpen] at isOpen'
      cases isOpen'
      exact inductionHypothesis rest
  | released _ _ inductionHypothesis =>
      obtain ⟨item, -, rest⟩ := holds
      exact inductionHypothesis rest

/-- Under the weakest precondition a run meets the postcondition. -/
theorem wp_run
    (holds : wp post program offers table)
    {result : α}
    {after : HandleTable D}
    (run : Runs program offers table result after) :
    post result after := by
  induction run with
  | done =>
      exact holds rfl
  | refused _ inductionHypothesis =>
      exact inductionHypothesis holds
  | acquired free _ inductionHypothesis =>
      exact inductionHypothesis (holds _ free)
  | worked isOpen _ inductionHypothesis =>
      obtain ⟨item, isOpen', rest⟩ := holds
      rw [isOpen] at isOpen'
      cases isOpen'
      exact inductionHypothesis rest
  | released _ _ inductionHypothesis =>
      obtain ⟨item, -, rest⟩ := holds
      exact inductionHypothesis rest

/--
The frame rule: a program that is right on its own handles is right beside
others, and leaves them as they are.
-/
theorem wp_frame
    {own others : HandleTable D}
    (holds : wp post program offers own)
    (apart : own.Apart others) :
    wp
      (fun result after =>
        ∃ left : HandleTable D,
          post result left ∧ left.Apart others ∧ after = left.beside others)
      program offers (own.beside others) := by
  induction program generalizing offers own with
  | done result =>
      exact fun used => ⟨own, holds used, apart, rfl⟩
  | acquire next inductionHypothesis =>
      cases offers with
      | nil =>
          trivial
      | cons offer offers =>
          cases offer with
          | none =>
              exact inductionHypothesis none holds apart
          | some item =>
              intro number free
              obtain ⟨ownFree, othersFree⟩ :=
                (HandleTable.beside_eq_none_iff own others number).mp free
              rw [HandleTable.update_beside othersFree]
              exact inductionHypothesis (some number)
                (holds number ownFree) (apart.update othersFree _)
  | work number action next inductionHypothesis =>
      obtain ⟨item, isOpen, rest⟩ := holds
      have othersFree := apart.free isOpen
      refine ⟨item, HandleTable.beside_of_some others isOpen, ?_⟩
      rw [HandleTable.update_beside othersFree]
      exact inductionHypothesis _ rest (apart.update othersFree _)
  | release number next inductionHypothesis =>
      obtain ⟨item, isOpen, rest⟩ := holds
      have othersFree := apart.free isOpen
      refine ⟨item, HandleTable.beside_of_some others isOpen, ?_⟩
      rw [HandleTable.update_beside othersFree]
      exact inductionHypothesis rest (apart.update othersFree _)

end HandleProgram

end TsnGen
