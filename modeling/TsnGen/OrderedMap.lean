import Mathlib.Order.Lattice
import Mathlib.Data.List.Basic

namespace TsnGen

/-!
# Ordered finite maps

A finite map is a list of entries whose keys increase strictly, so each key
occurs once and iteration follows key order.  The order is a field of the
structure: no operation can leave an unsorted or ambiguous map behind.
-/

/-- A finite map iterated in strictly increasing key order. -/
structure OrderedMap (κ α : Type) [LinearOrder κ] where
  entries : List (κ × α)
  sorted : entries.Pairwise fun first second => first.1 < second.1

namespace OrderedMap

variable {κ α : Type} [LinearOrder κ]

/-- The map without entries. -/
def empty : OrderedMap κ α where
  entries := []
  sorted := .nil

/-- The value stored under a key. -/
def find?
    (map : OrderedMap κ α)
    (key : κ) : Option α :=
  (map.entries.find? fun entry => entry.1 = key).map Prod.snd

/-- Insert one entry into a sorted entry list, keeping an existing key. -/
def emplaceEntry
    (key : κ)
    (value : α) :
    List (κ × α) → List (κ × α)
  | [] => [(key, value)]
  | entry :: rest =>
      if key < entry.1 then
        (key, value) :: entry :: rest
      else if key = entry.1 then
        entry :: rest
      else
        entry :: emplaceEntry key value rest

/-- Insertion adds at most the new entry. -/
theorem mem_emplaceEntry
    {key : κ}
    {value : α}
    {entries : List (κ × α)}
    {entry : κ × α}
    (member : entry ∈ emplaceEntry key value entries) :
    entry = (key, value) ∨ entry ∈ entries := by
  induction entries with
  | nil =>
      simpa [emplaceEntry] using member
  | cons head rest inductionHypothesis =>
      unfold emplaceEntry at member
      split at member
      · simpa using member
      · split at member
        · exact Or.inr member
        · rcases List.mem_cons.mp member with isHead | inRest
          · simp [isHead]
          · rcases inductionHypothesis inRest with isNew | inTail
            · exact Or.inl isNew
            · exact Or.inr (List.mem_cons_of_mem head inTail)

/-- Insertion keeps the keys strictly increasing. -/
theorem emplaceEntry_sorted
    (key : κ)
    (value : α)
    {entries : List (κ × α)}
    (sorted : entries.Pairwise fun first second => first.1 < second.1) :
    (emplaceEntry key value entries).Pairwise
      fun first second => first.1 < second.1 := by
  induction entries with
  | nil =>
      simp [emplaceEntry]
  | cons head rest inductionHypothesis =>
      obtain ⟨headFirst, restSorted⟩ := List.pairwise_cons.mp sorted
      unfold emplaceEntry
      split
      next keyFirst =>
        refine List.pairwise_cons.mpr ⟨?_, sorted⟩
        intro later member
        rcases List.mem_cons.mp member with isHead | inRest
        · rw [isHead]
          exact keyFirst
        · exact lt_trans keyFirst (headFirst later inRest)
      next keyNotFirst =>
        split
        · exact sorted
        next keyNotHead =>
          refine List.pairwise_cons.mpr
            ⟨?_, inductionHypothesis restSorted⟩
          intro later member
          rcases mem_emplaceEntry member with isNew | inRest
          · rw [isNew]
            exact lt_of_le_of_ne (not_lt.mp keyNotFirst)
              (Ne.symm keyNotHead)
          · exact headFirst later inRest

/-- Insert under a key, keeping the value of a key already present. -/
def emplace
    (map : OrderedMap κ α)
    (key : κ)
    (value : α) : OrderedMap κ α where
  entries := emplaceEntry key value map.entries
  sorted := emplaceEntry_sorted key value map.sorted

/-- A successful lookup returns an entry of the map. -/
theorem mem_of_find?_eq_some
    {map : OrderedMap κ α}
    {key : κ}
    {value : α}
    (found : map.find? key = some value) :
    (key, value) ∈ map.entries := by
  unfold find? at found
  obtain ⟨entry, located, valueShape⟩ := Option.map_eq_some_iff.mp found
  have keyShape : entry.1 = key := by
    simpa using List.find?_some located
  rw [← keyShape, ← valueShape]
  exact List.mem_of_find?_eq_some located

/-- A lookup finds exactly the entries of the map. -/
theorem find?_eq_some_iff
    {map : OrderedMap κ α}
    {key : κ}
    {value : α} :
    map.find? key = some value ↔ (key, value) ∈ map.entries := by
  refine ⟨mem_of_find?_eq_some, ?_⟩
  obtain ⟨entries, sorted⟩ := map
  intro member
  simp only [find?] at member ⊢
  induction entries with
  | nil =>
      simp at member
  | cons head rest inductionHypothesis =>
      obtain ⟨headFirst, restSorted⟩ := List.pairwise_cons.mp sorted
      rcases List.mem_cons.mp member with isHead | inRest
      · simp [← isHead]
      · have other : head.1 ≠ key := ne_of_lt (headFirst _ inRest)
        simpa [other] using inductionHypothesis restSorted inRest

/-- Maps that answer every lookup alike are equal. -/
theorem ext_find?
    {first second : OrderedMap κ α}
    (same : ∀ key, first.find? key = second.find? key) :
    first = second := by
  have sameEntries :
      ∀ entry, entry ∈ first.entries ↔ entry ∈ second.entries := by
    rintro ⟨key, value⟩
    rw [← find?_eq_some_iff, ← find?_eq_some_iff, same]
  have noDuplicates (map : OrderedMap κ α) : map.entries.Nodup :=
    map.sorted.imp fun before equal =>
      absurd (congrArg Prod.fst equal) (ne_of_lt before)
  have permuted : first.entries.Perm second.entries :=
    (List.perm_ext_iff_of_nodup (noDuplicates first)
      (noDuplicates second)).mpr sameEntries
  have equal : first.entries = second.entries := by
    refine permuted.eq_of_pairwise ?_ first.sorted second.sorted
    intro earlier later _ _ before after
    exact absurd after (lt_asymm before)
  cases first
  cases second
  cases equal
  rfl

/-- Insertion adds the value of an absent key and nothing else. -/
theorem find?_emplace
    (map : OrderedMap κ α)
    (key : κ)
    (value : α)
    (probe : κ) :
    (map.emplace key value).find? probe =
      (map.find? probe).or (if probe = key then some value else none) := by
  obtain ⟨entries, sorted⟩ := map
  simp only [find?, emplace]
  induction entries with
  | nil =>
      by_cases isKey : probe = key
      · simp [emplaceEntry, isKey]
      · simp [emplaceEntry, isKey, Ne.symm isKey]
  | cons head rest inductionHypothesis =>
      obtain ⟨headFirst, restSorted⟩ := List.pairwise_cons.mp sorted
      unfold emplaceEntry
      split
      next keyFirst =>
        by_cases isKey : probe = key
        · have absent :
              (head :: rest).find? (fun entry => entry.1 = probe) =
                none := by
            rw [List.find?_eq_none]
            intro entry member
            have after : key < entry.1 := by
              rcases List.mem_cons.mp member with isHead | inRest
              · rw [isHead]
                exact keyFirst
              · exact lt_trans keyFirst (headFirst entry inRest)
            simpa [isKey] using ne_of_gt after
          rw [absent]
          simp [isKey]
        · have skipped : key ≠ probe := Ne.symm isKey
          simp [isKey, skipped]
      next keyNotFirst =>
        split
        next keyIsHead =>
          by_cases isKey : probe = key
          · simp [isKey, keyIsHead]
          · simp [isKey]
        next keyNotHead =>
          by_cases isHead : head.1 = probe
          · simp [isHead]
          · simpa [isHead] using inductionHypothesis restSorted

/-- Rewrite every value, keeping the keys and their order. -/
def mapValues
    {β : Type}
    (change : α → β)
    (map : OrderedMap κ α) : OrderedMap κ β where
  entries := map.entries.map fun entry => (entry.1, change entry.2)
  sorted := by
    rw [List.pairwise_map]
    exact map.sorted

/-- Rewriting the values commutes with lookup. -/
theorem find?_mapValues
    {β : Type}
    (change : α → β)
    (map : OrderedMap κ α)
    (key : κ) :
    (map.mapValues change).find? key = (map.find? key).map change := by
  obtain ⟨entries, sorted⟩ := map
  simp only [find?, mapValues]
  clear sorted
  induction entries with
  | nil =>
      rfl
  | cons head rest inductionHypothesis =>
      by_cases sameKey : head.1 = key
      · simp [sameKey]
      · simpa [sameKey] using inductionHypothesis

end OrderedMap

end TsnGen
