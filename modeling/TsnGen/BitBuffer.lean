import Mathlib.Data.Nat.Bitwise
import Mathlib.Data.List.Basic
import Mathlib.Tactic.IntervalCases

namespace TsnGen.BitBuffer

/-!
# Byte buffers as bit strings

A byte buffer is read here as one string of bits, most significant bit of each
byte first.  `getBit` looks a single position up, `msbBits` spells a number out
in a fixed width, and `Represents` states that a buffer holds exactly a given
bit string, zero-padded to the next byte boundary.

Nothing in this module knows about packets: a reader or writer loop of any
program is specified by relating its buffer to a `List Bool`.
-/

/-- The bit at one position of a buffer; positions past the end read as zero. -/
def getBit
    (buffer : List UInt8)
    (position : Nat) : Bool :=
  (buffer[position / 8]?.getD 0).toNat.testBit (7 - position % 8)

/-- The low `width` bits of a number, most significant first. -/
def msbBits
    (value : Nat) :
    Nat → List Bool
  | 0 => []
  | width + 1 => value.testBit width :: msbBits value width

/-- Set one bit of an existing byte; a clear bit leaves the byte as it is. -/
def orBit
    (buffer : List UInt8)
    (position : Nat)
    (bit : Bool) : List UInt8 :=
  buffer.modify (position / 8) fun byte =>
    byte ||| UInt8.ofNat (bit.toNat <<< (7 - position % 8))

/--
A buffer represents a bit string when it is just long enough to hold it, its
leading bits are the string and its padding bits are zero.
-/
structure Represents
    (buffer : List UInt8)
    (bits : List Bool) : Prop where
  length_eq :
    buffer.length = (bits.length + 7) / 8
  getBit_eq :
    ∀ position, getBit buffer position = bits[position]?.getD false

@[simp] theorem length_msbBits
    (value width : Nat) :
    (msbBits value width).length = width := by
  induction width with
  | zero =>
      rfl
  | succ width inductionHypothesis =>
      simp [msbBits, inductionHypothesis]

/-- Positions of a spelled-out number count down from its top bit. -/
theorem getElem?_msbBits
    (value width position : Nat) :
    (msbBits value width)[position]?.getD false =
      (decide (position < width) && value.testBit (width - 1 - position)) := by
  induction width generalizing position with
  | zero =>
      simp [msbBits]
  | succ width inductionHypothesis =>
      cases position with
      | zero =>
          simp [msbBits]
      | succ position =>
          have sameIndex :
              width - (position + 1) = width - 1 - position := by
            omega
          simp [msbBits, inductionHypothesis, sameIndex]

/-- No position past the last byte is set. -/
theorem getBit_eq_false_of_length_le
    {buffer : List UInt8}
    {position : Nat}
    (beyond : 8 * buffer.length ≤ position) :
    getBit buffer position = false := by
  have outside : buffer.length ≤ position / 8 := by
    omega
  simp [getBit, List.getElem?_eq_none outside]

/-- Leading positions of a concatenation belong to its first buffer. -/
theorem getBit_append_left
    {first : List UInt8}
    (second : List UInt8)
    {position : Nat}
    (inside : position < 8 * first.length) :
    getBit (first ++ second) position = getBit first position := by
  have byteInside : position / 8 < first.length := by
    omega
  simp [getBit, List.getElem?_append_left byteInside]

/-- Positions behind the first buffer belong to the second one. -/
theorem getBit_append_right
    (first second : List UInt8)
    (position : Nat) :
    getBit (first ++ second) (8 * first.length + position) =
      getBit second position := by
  have sameByte :
      (8 * first.length + position) / 8 =
        first.length + position / 8 := by
    omega
  have sameBit :
      (8 * first.length + position) % 8 = position % 8 := by
    omega
  rw [getBit, getBit, sameByte, sameBit,
    List.getElem?_append_right (Nat.le_add_right _ _),
    Nat.add_sub_cancel_left]

/-- A fresh zero byte adds no set position. -/
theorem getBit_append_zero
    (buffer : List UInt8)
    (position : Nat) :
    getBit (buffer ++ [0]) position = getBit buffer position := by
  by_cases inside : position < 8 * buffer.length
  · exact getBit_append_left [0] inside
  · have beyond : 8 * buffer.length ≤ position := by
      omega
    obtain ⟨rest, shape⟩ := Nat.exists_eq_add_of_le beyond
    rw [getBit_eq_false_of_length_le beyond, shape,
      getBit_append_right]
    cases wide : rest / 8 <;> simp [getBit, wide]

/-- A slice of a buffer shows the bits of its bytes and no others. -/
theorem getBit_slice
    (buffer : List UInt8)
    (start length position : Nat) :
    getBit ((buffer.drop start).take length) position =
      (decide (position < 8 * length) &&
        getBit buffer (8 * start + position)) := by
  by_cases inside : position < 8 * length
  · have byteInside : position / 8 < length := by
      omega
    have sameByte :
        (8 * start + position) / 8 = start + position / 8 := by
      omega
    have sameBit : (8 * start + position) % 8 = position % 8 := by
      omega
    simp [getBit, byteInside, inside, sameByte, sameBit,
      List.getElem?_drop]
  · have byteOutside : ¬ position / 8 < length := by
      omega
    simp [getBit, byteOutside, inside]

/-- Zero bytes behind a buffer read like its end. -/
theorem getBit_append_zeros
    (buffer : List UInt8)
    (count position : Nat) :
    getBit (buffer ++ List.replicate count 0) position =
      getBit buffer position := by
  induction count with
  | zero =>
      simp
  | succ count inductionHypothesis =>
      rw [List.replicate_succ', ← List.append_assoc, getBit_append_zero,
        inductionHypothesis]

/-- Bytes are determined by their eight bits. -/
private theorem byte_ext
    {first second : UInt8}
    (same :
      ∀ index, index < 8 →
        first.toNat.testBit index = second.toNat.testBit index) :
    first = second := by
  apply UInt8.toNat_inj.mp
  apply Nat.eq_of_testBit_eq
  intro index
  by_cases low : index < 8
  · exact same index low
  · have large : 2 ^ 8 ≤ 2 ^ index :=
      Nat.pow_le_pow_right (by decide) (by omega)
    have firstSmall : first.toNat < 2 ^ index :=
      lt_of_lt_of_le first.toNat_lt large
    have secondSmall : second.toNat < 2 ^ index :=
      lt_of_lt_of_le second.toNat_lt large
    rw [Nat.testBit_lt_two_pow firstSmall,
      Nat.testBit_lt_two_pow secondSmall]

/-- Buffers of one length that agree at every position are equal. -/
theorem eq_of_getBit_eq
    {first second : List UInt8}
    (sameLength : first.length = second.length)
    (sameBits :
      ∀ position, getBit first position = getBit second position) :
    first = second := by
  apply List.ext_getElem sameLength
  intro index firstInside secondInside
  apply byte_ext
  intro bit bitInside
  have atPosition := sameBits (8 * index + (7 - bit))
  have byteIndex : (8 * index + (7 - bit)) / 8 = index := by
    omega
  have bitIndex : 7 - (8 * index + (7 - bit)) % 8 = bit := by
    omega
  rw [getBit, getBit, byteIndex, bitIndex,
    List.getElem?_eq_getElem firstInside,
    List.getElem?_eq_getElem secondInside] at atPosition
  exact atPosition

@[simp] theorem length_orBit
    (buffer : List UInt8)
    (position : Nat)
    (bit : Bool) :
    (orBit buffer position bit).length = buffer.length := by
  simp [orBit]

/-- Setting a bit of an existing byte changes that position only. -/
theorem getBit_orBit
    {buffer : List UInt8}
    {target : Nat}
    (inside : target < 8 * buffer.length)
    (bit : Bool)
    (position : Nat) :
    getBit (orBit buffer target bit) position =
      (getBit buffer position || (decide (position = target) && bit)) := by
  have byteInside : target / 8 < buffer.length := by
    omega
  by_cases sameByte : target / 8 = position / 8
  · have positionInside : position / 8 < buffer.length := by
      omega
    have shifted :
        (UInt8.ofNat (bit.toNat <<< (7 - target % 8))).toNat =
          bit.toNat <<< (7 - target % 8) := by
      have small : 7 - target % 8 < 8 := by
        omega
      generalize 7 - target % 8 = amount at small
      interval_cases amount <;> cases bit <;> rfl
    have samePosition :
        (7 - target % 8 = 7 - position % 8) ↔ position = target := by
      omega
    simp only [getBit, orBit, List.getElem?_modify, sameByte, ↓reduceIte,
      List.getElem?_eq_getElem positionInside, Option.map_eq_map, Option.map_some,
      Option.getD_some, UInt8.toNat_or, Nat.testBit_or]
    rw [shifted]
    congr 1
    cases bit with
    | false =>
        simp
    | true =>
        rw [Bool.toNat_true, Nat.one_shiftLeft, Nat.testBit_two_pow,
          Bool.and_true]
        exact decide_eq_decide.mpr samePosition
  · have different : position ≠ target := by
      rintro rfl
      exact sameByte rfl
    simp [getBit, orBit, sameByte, different]

/-- A buffer without set bits. -/
def Clear
    (buffer : List UInt8) : Prop :=
  ∀ position, getBit buffer position = false

/-- Clear buffers concatenate to a clear buffer. -/
theorem Clear.append
    {first second : List UInt8}
    (firstClear : Clear first)
    (secondClear : Clear second) :
    Clear (first ++ second) := by
  intro position
  by_cases inside : position < 8 * first.length
  · rw [getBit_append_left second inside]
    exact firstClear position
  · obtain ⟨rest, rfl⟩ := Nat.exists_eq_add_of_le (not_lt.mp inside)
    rw [getBit_append_right]
    exact secondClear rest

/-- A zero is spelled out in clear bits. -/
theorem eq_false_of_mem_msbBits_zero
    {width : Nat}
    {bit : Bool}
    (member : bit ∈ msbBits 0 width) :
    bit = false := by
  induction width with
  | zero =>
      simp [msbBits] at member
  | succ width inductionHypothesis =>
      rcases List.mem_cons.mp member with isHead | inRest
      · simpa using isHead
      · exact inductionHypothesis inRest

namespace Represents

/-- The empty buffer represents the empty bit string. -/
theorem nil : Represents [] [] where
  length_eq := rfl
  getBit_eq := by
    intro position
    simp [getBit]

/-- A bit string has at most one representation. -/
theorem unique
    {first second : List UInt8}
    {bits : List Bool}
    (firstRepresents : Represents first bits)
    (secondRepresents : Represents second bits) :
    first = second := by
  apply eq_of_getBit_eq
  · rw [firstRepresents.length_eq, secondRepresents.length_eq]
  · intro position
    rw [firstRepresents.getBit_eq, secondRepresents.getBit_eq]

/-- The bit string of a buffer always fits its bytes. -/
theorem bits_length_le
    {buffer : List UInt8}
    {bits : List Bool}
    (represents : Represents buffer bits) :
    bits.length ≤ 8 * buffer.length := by
  have sized := represents.length_eq
  omega

/--
Writing one bit at the end, in a fresh zero byte whenever the last one is
full, extends the represented string by that bit.
-/
theorem push
    {buffer : List UInt8}
    {bits : List Bool}
    (represents : Represents buffer bits)
    (bit : Bool) :
    Represents
      (orBit
        (if bits.length / 8 ≥ buffer.length then buffer ++ [0] else buffer)
        bits.length bit)
      (bits ++ [bit]) := by
  have sized := represents.length_eq
  generalize grownShape :
    (if bits.length / 8 ≥ buffer.length then buffer ++ [0] else buffer) =
      grown
  have grownLength : grown.length = (bits.length + 1 + 7) / 8 := by
    subst grownShape
    split
    · simp only [List.length_append, List.length_singleton]
      omega
    · omega
  have grownBits :
      ∀ position, getBit grown position = bits[position]?.getD false := by
    intro position
    rw [← represents.getBit_eq position, ← grownShape]
    split
    · exact getBit_append_zero buffer position
    · rfl
  constructor
  · simp [grownLength]
  · intro position
    have inside : bits.length < 8 * grown.length := by
      omega
    rw [getBit_orBit inside, grownBits position]
    rcases Nat.lt_trichotomy position bits.length with
      before | same | after
    · have different : position ≠ bits.length := by
        omega
      simp [List.getElem?_append_left before, different]
    · subst same
      simp
    · have different : position ≠ bits.length := by
        omega
      have beyond : (bits ++ [bit]).length ≤ position := by
        simp only [List.length_append, List.length_singleton]
        omega
      simp [List.getElem?_eq_none (Nat.le_of_lt after),
        List.getElem?_eq_none beyond, different]

end Represents

/-- A buffer just long enough for an offset and clear from it on. -/
structure Aligned
    (buf : List UInt8)
    (bitOffset : Nat) : Prop where
  length_eq :
    buf.length = (bitOffset + 7) / 8
  clear :
    ∀ position, bitOffset ≤ position → getBit buf position = false

/-- The leading bits of a buffer. -/
def leadingBits
    (buf : List UInt8)
    (count : Nat) : List Bool :=
  (List.range count).map (getBit buf)

@[simp] theorem length_leadingBits
    (buf : List UInt8)
    (count : Nat) :
    (leadingBits buf count).length = count := by
  simp [leadingBits]

/-- An aligned buffer represents its bits in front of the offset. -/
theorem Aligned.represents
    {buf : List UInt8}
    {bitOffset : Nat}
    (aligned : Aligned buf bitOffset) :
    Represents buf (leadingBits buf bitOffset) where
  length_eq := by
    rw [length_leadingBits]
    exact aligned.length_eq
  getBit_eq := by
    intro position
    by_cases inside : position < bitOffset
    · simp [leadingBits, inside]
    · simp [leadingBits, inside, aligned.clear position (not_lt.mp inside)]

/-- A represented bit string leaves its buffer aligned behind it. -/
theorem Represents.aligned
    {buf : List UInt8}
    {bits : List Bool}
    (represents : Represents buf bits) :
    Aligned buf bits.length where
  length_eq := represents.length_eq
  clear := by
    intro position beyond
    rw [represents.getBit_eq, List.getElem?_eq_none beyond]
    rfl

/-- Digits in front of the lowest `width` bits are spelled out in front. -/
theorem msbBits_mul_add
    (high : Nat)
    {low width : Nat}
    (fits : low < 2 ^ width)
    (count : Nat) :
    msbBits (high * 2 ^ width + low) (count + width) =
      msbBits high count ++ msbBits low width := by
  have bitOf :
      ∀ index, (high * 2 ^ width + low).testBit index =
        if index < width then
          low.testBit index
        else
          high.testBit (index - width) := by
    intro index
    rw [Nat.mul_comm]
    exact Nat.testBit_two_pow_mul_add high fits index
  have lowBits :
      ∀ visited, visited ≤ width →
        msbBits (high * 2 ^ width + low) visited = msbBits low visited := by
    intro visited
    induction visited with
    | zero =>
        intro _
        rfl
    | succ index inductionHypothesis =>
        intro inside
        have later := inductionHypothesis (Nat.le_of_succ_le inside)
        simp only [msbBits, later, bitOf, Nat.lt_of_succ_le inside, if_true]
  induction count with
  | zero =>
      simp only [Nat.zero_add, msbBits, List.nil_append]
      exact lowBits width (Nat.le_refl width)
  | succ count inductionHypothesis =>
      have sameIndex : count + 1 + width = (count + width) + 1 := by
        omega
      have above : ¬ count + width < width := by
        omega
      simp only [sameIndex, msbBits, inductionHypothesis, List.cons_append,
        bitOf, above, if_false, Nat.add_sub_cancel]

/-- Only the low `width` bits of a number are spelled out. -/
theorem msbBits_mod
    (value width : Nat) :
    msbBits (value % 2 ^ width) width = msbBits value width := by
  have same :
      ∀ visited, visited ≤ width →
        msbBits (value % 2 ^ width) visited = msbBits value visited := by
    intro visited
    induction visited with
    | zero =>
        intro _
        rfl
    | succ index inductionHypothesis =>
        intro inside
        have later := inductionHypothesis (Nat.le_of_succ_le inside)
        simp only [msbBits, later, Nat.testBit_mod_two_pow,
          Nat.lt_of_succ_le inside, decide_true, Bool.true_and]
  exact same width (Nat.le_refl width)

/--
Numbers whose bits are those of consecutive stretches of one bit sequence: the
whole is the front shifted by the width of the back, plus the back.
-/
theorem eq_mul_add_of_stretches
    (bits : Nat → Bool)
    {whole front back frontWidth backWidth : Nat}
    (ofWhole :
      ∀ index, whole.testBit index =
        (decide (index < frontWidth + backWidth) &&
          bits (frontWidth + backWidth - 1 - index)))
    (ofFront :
      ∀ index, front.testBit index =
        (decide (index < frontWidth) && bits (frontWidth - 1 - index)))
    (ofBack :
      ∀ index, back.testBit index =
        (decide (index < backWidth) &&
          bits (frontWidth + (backWidth - 1 - index)))) :
    whole = front * 2 ^ backWidth + back := by
  have small : back < 2 ^ backWidth := by
    apply Nat.lt_pow_two_of_testBit
    intro index beyond
    simp [ofBack, not_lt.mpr beyond]
  apply Nat.eq_of_testBit_eq
  intro index
  rw [Nat.mul_comm, Nat.testBit_two_pow_mul_add front small, ofWhole]
  by_cases low : index < backWidth
  · have samePosition :
        frontWidth + backWidth - 1 - index =
          frontWidth + (backWidth - 1 - index) := by
      omega
    have visited : index < frontWidth + backWidth := by
      omega
    simp only [low, visited, ofBack, samePosition, if_true]
  · have samePosition :
        frontWidth + backWidth - 1 - index =
          frontWidth - 1 - (index - backWidth) := by
      omega
    have visited :
        index < frontWidth + backWidth ↔
          index - backWidth < frontWidth := by
      omega
    simp only [low, visited, ofFront, samePosition, if_false]

end TsnGen.BitBuffer
