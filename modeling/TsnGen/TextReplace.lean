import Mathlib.Data.List.Basic

namespace TsnGen.TextReplace

/-!
# Replacing in place

A loop that searches a pattern from a position on, replaces it there and goes on
behind the replacement.  The loop changes the text that it scans.  What it
computes is a substitution: occurrences that do not overlap, found from left to
right, are replaced all at once.
-/

section Search

variable {α : Type} [BEq α]

/-- Position of the first occurrence of a pattern, as `std::string::find`. -/
def find?
    (pattern : List α) :
    List α → Option Nat
  | [] =>
      if pattern.isEmpty then some 0 else none
  | letter :: rest =>
      if pattern.isPrefixOf (letter :: rest) then
        some 0
      else
        (find? pattern rest).map (· + 1)

/-- Replace from a position on; the fuel bounds the number of rounds. -/
def replaceLoop
    (pattern replacement : List α) :
    Nat → List α → Nat → List α
  | 0, text, _ => text
  | fuel + 1, text, position =>
      match find? pattern (text.drop position) with
      | none => text
      | some offset =>
          let found := position + offset
          replaceLoop pattern replacement fuel
            (text.take found ++ replacement ++
              text.drop (found + pattern.length))
            (found + replacement.length)

/-- Replace from the start on. -/
def replaceAll
    (pattern replacement text : List α) : List α :=
  replaceLoop pattern replacement (text.length + 1) text 0

/-- Replace the occurrences from left to right, without a loop. -/
def substitute
    (pattern replacement : List α) :
    List α → List α
  | [] => []
  | letter :: rest =>
      if pattern ≠ [] ∧ pattern.isPrefixOf (letter :: rest) then
        replacement ++
          substitute pattern replacement
            ((letter :: rest).drop pattern.length)
      else
        letter :: substitute pattern replacement rest
termination_by text => text.length
decreasing_by
  · have positive := List.length_pos_iff.mpr (‹_ ∧ _›).1
    rw [List.length_drop, List.length_cons]
    omega
  · exact Nat.lt_succ_self _

end Search

section Laws

variable {α : Type} [BEq α] [LawfulBEq α]

/-- An occurrence is replaced and the text behind it goes on. -/
theorem substitute_append_pattern
    {pattern : List α}
    (present : pattern ≠ [])
    (replacement rest : List α) :
    substitute pattern replacement (pattern ++ rest) =
      replacement ++ substitute pattern replacement rest := by
  obtain ⟨first, others, rfl⟩ := List.exists_cons_of_ne_nil present
  have starts :
      (first :: others).isPrefixOf (first :: (others ++ rest)) = true := by
    rw [List.isPrefixOf_iff_prefix]
    exact ⟨rest, rfl⟩
  rw [List.cons_append, substitute, if_pos ⟨present, starts⟩,
    ← List.cons_append, List.drop_left]

/-- A letter that starts no occurrence stays. -/
theorem substitute_cons
    {pattern : List α}
    {letter : α}
    {rest : List α}
    (other : ¬ pattern <+: letter :: rest)
    (replacement : List α) :
    substitute pattern replacement (letter :: rest) =
      letter :: substitute pattern replacement rest := by
  rw [substitute, if_neg]
  rintro ⟨-, starts⟩
  exact other (List.isPrefixOf_iff_prefix.mp starts)

/-- A text without the first letter of the pattern stays. -/
theorem substitute_append_of_not_mem
    {first : α}
    {others clean : List α}
    (absent : first ∉ clean)
    (replacement rest : List α) :
    substitute (first :: others) replacement (clean ++ rest) =
      clean ++ substitute (first :: others) replacement rest := by
  induction clean with
  | nil =>
      rfl
  | cons letter clean inductionHypothesis =>
      rw [List.mem_cons, not_or] at absent
      have other : ¬ first :: others <+: letter :: (clean ++ rest) :=
        fun starts => absent.1 (List.cons_prefix_cons.mp starts).1
      rw [List.cons_append, substitute_cons other,
        inductionHypothesis absent.2, List.cons_append]

/-- Without an occurrence nothing is replaced. -/
theorem substitute_of_find?_eq_none
    {pattern text : List α}
    (missing : find? pattern text = none)
    (replacement : List α) :
    substitute pattern replacement text = text := by
  induction text with
  | nil =>
      rw [substitute]
  | cons letter rest inductionHypothesis =>
      rw [find?] at missing
      split at missing
      · cases missing
      next other =>
        rw [Option.map_eq_none_iff] at missing
        rw [List.isPrefixOf_iff_prefix] at other
        rw [substitute_cons other, inductionHypothesis missing]

/-- The first occurrence is the first to be replaced. -/
theorem substitute_of_find?_eq_some
    {pattern text : List α}
    {offset : Nat}
    (present : pattern ≠ [])
    (found : find? pattern text = some offset)
    (replacement : List α) :
    ∃ before behind,
      text = before ++ pattern ++ behind ∧ before.length = offset ∧
        substitute pattern replacement text =
          before ++ replacement ++
            substitute pattern replacement behind := by
  induction text generalizing offset with
  | nil =>
      simp [find?, present] at found
  | cons letter rest inductionHypothesis =>
      rw [find?] at found
      split at found
      next starts =>
        cases found
        obtain ⟨behind, whole⟩ := List.isPrefixOf_iff_prefix.mp starts
        refine ⟨[], behind, whole.symm, rfl, ?_⟩
        rw [← whole, substitute_append_pattern present]
        rfl
      next other =>
        rw [List.isPrefixOf_iff_prefix] at other
        obtain ⟨later, foundLater, rfl⟩ := Option.map_eq_some_iff.mp found
        obtain ⟨before, behind, whole, size, replaced⟩ :=
          inductionHypothesis foundLater
        refine ⟨letter :: before, behind, ?_, ?_, ?_⟩
        · rw [whole]
          rfl
        · rw [List.length_cons, size]
        · rw [substitute_cons other, replaced]
          rfl

/--
From a position on, the loop substitutes in the text behind it; a round for
every letter there is more than enough.
-/
theorem replaceLoop_eq
    {pattern : List α}
    (present : pattern ≠ [])
    (replacement : List α)
    {fuel : Nat}
    {behind : List α}
    (enough : behind.length < fuel)
    (done : List α) :
    replaceLoop pattern replacement fuel (done ++ behind) done.length =
      done ++ substitute pattern replacement behind := by
  induction fuel generalizing behind done with
  | zero =>
      cases enough
  | succ fuel inductionHypothesis =>
      rw [replaceLoop, List.drop_left]
      cases found : find? pattern behind with
      | none =>
          rw [substitute_of_find?_eq_none found]
      | some offset =>
          obtain ⟨before, rest, whole, size, replaced⟩ :=
            substitute_of_find?_eq_some present found replacement
          have shorter : rest.length < fuel := by
            have positive := List.length_pos_iff.mpr present
            rw [whole, List.length_append, List.length_append] at enough
            omega
          have later :=
            inductionHypothesis shorter (done ++ before ++ replacement)
          have kept :
              (done ++ behind).take (done.length + offset) =
                done ++ before := by
            rw [whole, ← size, ← List.length_append, ← List.append_assoc,
              ← List.append_assoc, List.append_assoc (done ++ before),
              List.take_left]
          have left :
              (done ++ behind).drop
                  (done.length + offset + pattern.length) =
                rest := by
            rw [whole, ← size, ← List.length_append, ← List.length_append,
              ← List.append_assoc, ← List.append_assoc, List.drop_left]
          have position :
              done.length + offset + replacement.length =
                (done ++ before ++ replacement).length := by
            rw [List.length_append, List.length_append, size]
          dsimp only
          rw [kept, left, position, later, replaced]
          simp only [List.append_assoc]

/-- Replacing in place is substitution. -/
theorem replaceAll_eq
    {pattern : List α}
    (present : pattern ≠ [])
    (replacement text : List α) :
    replaceAll pattern replacement text =
      substitute pattern replacement text :=
  replaceLoop_eq present replacement (Nat.lt_succ_self text.length) []

end Laws

/-- Pieces with a separator between them. -/
def joined
    {α : Type}
    (separator : List α) :
    List (List α) → List α
  | [] => []
  | [piece] => piece
  | piece :: next :: rest =>
      piece ++ separator ++ joined separator (next :: rest)

/-- A letter of joined pieces is one of the separator or of a piece. -/
theorem mem_or_mem_of_mem_joined
    {α : Type}
    {letter : α}
    {separator : List α}
    {pieces : List (List α)}
    (member : letter ∈ joined separator pieces) :
    letter ∈ separator ∨ ∃ piece ∈ pieces, letter ∈ piece := by
  induction pieces using joined.induct with
  | case1 =>
      cases member
  | case2 piece =>
      exact Or.inr ⟨piece, List.mem_cons_self, member⟩
  | case3 piece next later inductionHypothesis =>
      rw [joined, List.mem_append, List.mem_append] at member
      rcases member with (here | between) | behind
      · exact Or.inr ⟨piece, List.mem_cons_self, here⟩
      · exact Or.inl between
      · rcases inductionHypothesis behind with between | ⟨other, among, there⟩
        · exact Or.inl between
        · exact Or.inr ⟨other, List.mem_cons_of_mem _ among, there⟩

/-- With a separator at the end, every piece has one behind it. -/
theorem joined_append_separator
    {α : Type}
    (separator : List α)
    {pieces : List (List α)}
    (present : pieces ≠ []) :
    joined separator pieces ++ separator =
      pieces.flatMap (· ++ separator) := by
  induction pieces using joined.induct with
  | case1 =>
      exact absurd rfl present
  | case2 piece =>
      simp [joined]
  | case3 piece next later inductionHypothesis =>
      have others := inductionHypothesis (List.cons_ne_nil next later)
      rw [joined, List.append_assoc, others]
      rfl

/-- Substituting the separator joins the pieces by its replacement. -/
theorem substitute_joined
    {α : Type} [BEq α] [LawfulBEq α]
    {first : α}
    {others : List α}
    {pieces : List (List α)}
    (absent : ∀ piece ∈ pieces, first ∉ piece)
    (replacement rest : List α) :
    substitute (first :: others) replacement
        (joined (first :: others) pieces ++ rest) =
      joined replacement pieces ++
        substitute (first :: others) replacement rest := by
  induction pieces using joined.induct with
  | case1 =>
      rfl
  | case2 piece =>
      exact substitute_append_of_not_mem (absent piece (by simp)) _ _
  | case3 piece next later inductionHypothesis =>
      obtain ⟨here, there⟩ := List.forall_mem_cons.mp absent
      rw [joined, joined, List.append_assoc, List.append_assoc,
        substitute_append_of_not_mem here,
        substitute_append_pattern (List.cons_ne_nil _ _),
        inductionHypothesis there]
      simp only [List.append_assoc]

end TsnGen.TextReplace
