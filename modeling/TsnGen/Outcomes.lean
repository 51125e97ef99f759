import Mathlib.Data.List.Forall2
import TsnGen.Rounds

namespace TsnGen

/-!
# Outcomes of computations that draw

A computation asks an engine for answers and returns the engine as the last
question left it.  Its outcomes are known when every engine leads to one of
them and an engine that reads its answers off a script leads to each of them.
The script is consumed exactly, so the outcomes of a composition follow from
those of its parts.
-/

/-- A computation that runs on every engine of a kind. -/
abbrev Computation
    (Engine : Type → Type)
    (β : Type) : Type 1 :=
  ∀ G : Type, Engine G → G → β × G

namespace Computation

variable {Engine : Type → Type}
variable {α β γ ι τ : Type}

/-- Make no draw. -/
def done
    (value : β) : Computation Engine β :=
  fun _ _ state => (value, state)

/-- Continue with the outcome of a first computation. -/
def andThen
    (first : Computation Engine β)
    (next : β → Computation Engine γ) : Computation Engine γ :=
  fun G engine state =>
    let made := first G engine state
    next made.1 G engine made.2

/-- One computation per item, in order. -/
def forEach
    (step : ι → Computation Engine β) :
    List ι → Computation Engine (List β)
  | [] => Computation.done []
  | item :: rest =>
      andThen (step item) fun value =>
        andThen (forEach step rest) fun later =>
          Computation.done (value :: later)

/-- The outcomes of a computation, with an engine that reaches them all. -/
structure Yields
    (scripted : Engine (List α))
    (computation : Computation Engine β)
    (possible : β → Prop) : Prop where
  sound :
    ∀ (G : Type) (engine : Engine G) (state : G),
      possible (computation G engine state).1
  reached :
    ∀ value,
      possible value →
        ∃ script,
          ∀ further,
            computation (List α) scripted (script ++ further) =
              (value, further)

namespace Yields

variable {scripted : Engine (List α)}

/-- Without a draw there is one outcome. -/
theorem done
    (value : β) :
    Yields scripted (Computation.done value) (· = value) where
  sound _ _ _ := rfl
  reached := by
    rintro _ rfl
    exact ⟨[], fun _ => rfl⟩

/-- Outcomes of a composition. -/
theorem andThen
    {first : Computation Engine β}
    {next : β → Computation Engine γ}
    {possible : β → Prop}
    {possibleNext : β → γ → Prop}
    (yields : Yields scripted first possible)
    (yieldsNext :
      ∀ value, possible value →
        Yields scripted (next value) (possibleNext value)) :
    Yields scripted (Computation.andThen first next) fun result =>
      ∃ value, possible value ∧ possibleNext value result where
  sound G engine state :=
    ⟨_, yields.sound G engine state,
      (yieldsNext _ (yields.sound G engine state)).sound G engine _⟩
  reached := by
    rintro result ⟨value, isPossible, isNext⟩
    obtain ⟨script, reads⟩ := yields.reached value isPossible
    obtain ⟨scriptNext, readsNext⟩ :=
      (yieldsNext value isPossible).reached result isNext
    refine ⟨script ++ scriptNext, fun further => ?_⟩
    rw [List.append_assoc, Computation.andThen, reads]
    exact readsNext further

/-- Outcomes that are described in other words. -/
theorem of_iff
    {computation : Computation Engine β}
    {possible possible' : β → Prop}
    (yields : Yields scripted computation possible)
    (same : ∀ value, possible' value ↔ possible value) :
    Yields scripted computation possible' where
  sound G engine state := (same _).mpr (yields.sound G engine state)
  reached value isPossible := yields.reached value ((same value).mp isPossible)

/-- A computation that runs like another one. -/
theorem of_eq
    {computation computation' : Computation Engine β}
    {possible : β → Prop}
    (yields : Yields scripted computation possible)
    (same :
      ∀ (G : Type) (engine : Engine G) (state : G),
        computation' G engine state = computation G engine state) :
    Yields scripted computation' possible where
  sound G engine state := by
    rw [same]
    exact yields.sound G engine state
  reached value isPossible := by
    obtain ⟨script, reads⟩ := yields.reached value isPossible
    exact ⟨script, fun further => (same _ _ _).trans (reads further)⟩

/-- Outcomes of a function of a computation. -/
theorem map
    {computation : Computation Engine β}
    {possible : β → Prop}
    (yields : Yields scripted computation possible)
    (change : β → γ) :
    Yields scripted
      (Computation.andThen computation fun value =>
        Computation.done (change value))
      fun result => ∃ value, possible value ∧ result = change value :=
  yields.andThen fun value _ => Yields.done (change value)

/-- Item by item, the outcomes are those of the items. -/
theorem forEach
    {step : ι → Computation Engine β}
    {possible : ι → β → Prop}
    (yields : ∀ item, Yields scripted (step item) (possible item))
    (items : List ι) :
    Yields scripted (Computation.forEach step items)
      (List.Forall₂ possible items) := by
  induction items with
  | nil =>
      refine (Yields.done []).of_iff fun values => ?_
      rw [List.forall₂_nil_left_iff]
  | cons item rest inductionHypothesis =>
      refine ((yields item).andThen fun value _ =>
        inductionHypothesis.map (value :: ·)).of_iff fun values => ?_
      rw [List.forall₂_cons_left_iff]
      constructor
      · rintro ⟨value, later, first, others, rfl⟩
        exact ⟨value, first, later, others, rfl⟩
      · rintro ⟨value, first, later, others, rfl⟩
        exact ⟨value, later, first, others, rfl⟩

end Yields

/-- A round that draws, from a source that it hands on. -/
abbrev Round
    (Engine : Type → Type)
    (β τ : Type) : Type 1 :=
  ∀ G : Type, Engine G → τ × G → List β × (τ × G)

/--
Rounds on sources of a kind have outcomes of their own: what a source hands on
is of the kind again, and one script leads every source of it to an outcome.
-/
structure RoundYields
    (scripted : Engine (List α))
    (round : Round Engine β τ)
    (holds : τ → Prop)
    (possible : List β → Prop) : Prop where
  sound :
    ∀ (G : Type) (engine : Engine G) (source : τ) (state : G),
      holds source →
        possible (round G engine (source, state)).1 ∧
          holds (round G engine (source, state)).2.1
  reached :
    ∀ made,
      possible made →
        ∃ script,
          ∀ source further,
            holds source →
              (round (List α) scripted (source, script ++ further)).1 =
                  made ∧
                (round (List α) scripted (source, script ++ further)).2.2 =
                  further

namespace RoundYields

variable {scripted : Engine (List α)}
variable {round : Round Engine β τ}
variable {holds : τ → Prop}
variable {possible : List β → Prop}

/-- The actions of a run are one outcome per round. -/
theorem actions_sound
    (yields : RoundYields scripted round holds possible)
    (G : Type)
    (engine : Engine G)
    (rounds : Nat)
    {source : τ}
    (before : holds source)
    (state : G) :
    ∃ made : List (List β),
      made.length = rounds ∧ (∀ actions ∈ made, possible actions) ∧
        Rounds.actions (round G engine) rounds (source, state) =
          made.flatten :=
  Rounds.exists_made (fun source : τ × G => holds source.1) possible
    (fun source before => yields.sound G engine source.1 source.2 before)
    rounds before

/-- Any outcomes, one per round, are the actions of some run. -/
theorem actions_reached
    (yields : RoundYields scripted round holds possible)
    {made : List (List β)}
    (all : ∀ actions ∈ made, possible actions) :
    ∃ script,
      ∀ source,
        holds source →
          Rounds.actions (round (List α) scripted) made.length
              (source, script) =
            made.flatten := by
  induction made with
  | nil =>
      exact ⟨[], fun _ _ => rfl⟩
  | cons first rest inductionHypothesis =>
      obtain ⟨isFirst, others⟩ := List.forall_mem_cons.mp all
      obtain ⟨script, reads⟩ := yields.reached first isFirst
      obtain ⟨scriptLater, readsLater⟩ := inductionHypothesis others
      refine ⟨script ++ scriptLater, fun source before => ?_⟩
      obtain ⟨isMade, left⟩ := reads source scriptLater before
      have after :=
        (yields.sound _ scripted source (script ++ scriptLater) before).2
      have handsOn :
          (round (List α) scripted (source, script ++ scriptLater)).2 =
            ((round (List α) scripted (source, script ++ scriptLater)).2.1,
              scriptLater) :=
        Prod.ext rfl left
      rw [List.length_cons, Rounds.actions, isMade, handsOn,
        readsLater _ after, List.flatten_cons]

end RoundYields

end Computation

end TsnGen
