import Mathlib.Logic.Function.Iterate
import Mathlib.Data.List.Basic
import Mathlib.Data.List.Count

namespace TsnGen

/-!
# Local hooks over a row of cells

A hook rewrites one cell of a row.  It may read the other cells, but only
through an outline that no hook changes.  Running hooks in any order, with any
repetitions, then has a closed form: each cell is rewritten on its own, as
often as its index occurs.
-/

/--
A family of hooks on cells of type `α`.  `outline` is what a hook sees of the
row; rewriting a cell keeps its outline.
-/
structure LocalHooks (α β : Type) where
  outline : α → β
  rewrite : List β → α → α
  outline_rewrite :
    ∀ outlines cell, outline (rewrite outlines cell) = outline cell

namespace LocalHooks

variable {α β γ : Type} (hooks : LocalHooks α β)

/-- Run the hook of one cell. -/
def runAt
    (row : List α)
    (index : Nat) : List α :=
  row.modify index (hooks.rewrite (row.map hooks.outline))

/-- Run the hooks of a sequence of cells. -/
def run
    (sequence : List Nat)
    (row : List α) : List α :=
  sequence.foldl hooks.runAt row

/-- One hook keeps the outline of every cell. -/
theorem map_outline_runAt
    (row : List α)
    (index : Nat) :
    (hooks.runAt row index).map hooks.outline = row.map hooks.outline := by
  apply List.ext_getElem?
  intro position
  simp only [runAt, List.getElem?_map, List.getElem?_modify]
  split
  · cases row[position]? with
    | none =>
        rfl
    | some cell =>
        simp [hooks.outline_rewrite]
  · cases row[position]? <;> rfl

/--
Closed form of a run: a cell is rewritten under the initial outlines as often
as its index occurs in the sequence.
-/
theorem getElem?_run
    (sequence : List Nat)
    (row : List α)
    (index : Nat) :
    (hooks.run sequence row)[index]? =
      row[index]?.map
        (hooks.rewrite (row.map hooks.outline))^[sequence.count index] := by
  induction sequence generalizing row with
  | nil =>
      simp [run]
  | cons first rest inductionHypothesis =>
      have later := inductionHypothesis (hooks.runAt row first)
      rw [map_outline_runAt] at later
      simp only [run, List.foldl_cons] at later ⊢
      rw [later, runAt, List.getElem?_modify, List.count_cons]
      by_cases same : first = index
      · subst same
        cases row[first]? <;> simp
      · cases row[index]? <;> simp [same]

/-- Running every hook once rewrites every cell under the initial outlines. -/
theorem run_range
    (row : List α) :
    hooks.run (List.range row.length) row =
      row.map (hooks.rewrite (row.map hooks.outline)) := by
  apply List.ext_getElem?
  intro index
  rw [getElem?_run, List.getElem?_map]
  by_cases inside : index < row.length
  · have once : (List.range row.length).count index = 1 := by
      rw [List.nodup_range.count, if_pos (List.mem_range.mpr inside)]
    rw [once, Function.iterate_one]
  · rw [List.getElem?_eq_none (Nat.not_lt.mp inside)]
    rfl

/--
A view on which hooks settle after one run shows every later run the same.
-/
theorem view_iterate
    {view : α → γ}
    (settles :
      ∀ outlines cell,
        view (hooks.rewrite outlines (hooks.rewrite outlines cell)) =
          view (hooks.rewrite outlines cell))
    (outlines : List β)
    (cell : α)
    (times : Nat) :
    view ((hooks.rewrite outlines)^[times + 1] cell) =
      view (hooks.rewrite outlines cell) := by
  induction times with
  | zero =>
      rfl
  | succ times inductionHypothesis =>
      rw [← inductionHypothesis]
      simp only [Function.iterate_succ_apply', settles]

/--
Order independence: through a view on which hooks settle, a run that covers
every cell shows what one bottom-up run shows.
-/
theorem map_view_run
    (view : α → γ)
    (settles :
      ∀ outlines cell,
        view (hooks.rewrite outlines (hooks.rewrite outlines cell)) =
          view (hooks.rewrite outlines cell))
    {sequence : List Nat}
    {row : List α}
    (covers : ∀ index, index < row.length → index ∈ sequence) :
    (hooks.run sequence row).map view =
      (hooks.run (List.range row.length) row).map view := by
  rw [run_range]
  apply List.ext_getElem?
  intro index
  rw [List.getElem?_map, getElem?_run, List.map_map, List.getElem?_map]
  by_cases inside : index < row.length
  · obtain ⟨times, counted⟩ :=
      Nat.exists_eq_succ_of_ne_zero
        (Nat.ne_of_gt (List.count_pos_iff.mpr (covers index inside)))
    rw [counted, List.getElem?_eq_getElem inside]
    simp only [Option.map_some, Function.comp_apply, Nat.succ_eq_add_one,
      hooks.view_iterate settles]
  · rw [List.getElem?_eq_none (Nat.not_lt.mp inside)]
    rfl

end LocalHooks

end TsnGen
