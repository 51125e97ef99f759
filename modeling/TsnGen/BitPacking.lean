import TsnGen.BitBuffer
import TsnGen.ProtocolModel

namespace TsnGen

open BitBuffer

/-!
# The bit loops

`PacketBuilder::appendBits` and `PacketDecoder::extractBits` are two separately
written loops over the bits of one field.  Both count down in a signed `int`
started from the unsigned field width.  Each loop is specified here against
the bit string of its buffer: the writer appends the field's bits to the
represented string, the reader returns the number spelled by the bits at its
offset.
-/

/-- One field: its short name, current value, and bit width. -/
structure Field where
  name : String
  value : UInt64
  bits : UInt32
  deriving Repr, DecidableEq

/--
The first index of a loop
`for (int i = static_cast<int>(numBits) - 1; i >= 0; --i)`.  The subtraction
wraps as the compiled code does: at `2^31` it goes from the least `int` to the
greatest.
-/
def loopStart
    (numBits : UInt32) : Int :=
  (numBits.toBitVec - 1).toInt

/--
How often such a loop runs.  Widths above `2^31` have a negative start and are
never visited.
-/
def loopCount
    (numBits : UInt32) : Nat :=
  (loopStart numBits + 1).toNat

/-- The first index is negative for a width of zero and above `2^31`. -/
theorem loopStart_eq
    (numBits : UInt32) :
    loopStart numBits =
      if numBits.toNat ≤ 2 ^ 31 then (numBits.toNat : Int) - 1
      else (numBits.toNat : Int) - 1 - 2 ^ 32 := by
  have bounded := numBits.toNat_lt
  have one : (1 : BitVec 32).toNat = 1 := rfl
  rw [loopStart, BitVec.toInt_eq_toNat_cond, BitVec.toNat_sub, one,
    UInt32.toNat_toBitVec]
  by_cases narrow : numBits.toNat ≤ 2 ^ 31
  · rw [if_pos narrow]
    split <;> omega
  · rw [if_neg narrow]
    split <;> omega

/-- Up to `2^31` the loop visits every bit of the field. -/
theorem loopCount_eq_toNat_of_le
    {numBits : UInt32}
    (narrow : numBits.toNat ≤ 2 ^ 31) :
    loopCount numBits = numBits.toNat := by
  rw [loopCount, loopStart_eq, if_pos narrow]
  omega

/-- Below `2^31` in particular. -/
theorem loopCount_eq_toNat
    {numBits : UInt32}
    (narrow : numBits.toNat < 2 ^ 31) :
    loopCount numBits = numBits.toNat :=
  loopCount_eq_toNat_of_le (Nat.le_of_lt narrow)

/-- A 64-bit value has no bits from position 64 on. -/
theorem testBit_eq_false_of_le
    (value : UInt64)
    {index : Nat}
    (high : 64 ≤ index) :
    value.toNat.testBit index = false := by
  have large : 2 ^ 64 ≤ 2 ^ index :=
    Nat.pow_le_pow_right (by decide) high
  exact Nat.testBit_lt_two_pow (lt_of_lt_of_le value.toNat_lt large)

/-- The value a field of the given width carries on the wire. -/
def wireValue
    (value : UInt64)
    (bits : UInt32) : UInt64 :=
  UInt64.ofNat (value.toNat % 2 ^ min bits.toNat 64)

/-- The carried value is the reported one modulo the representable width. -/
theorem toNat_wireValue
    (value : UInt64)
    (bits : UInt32) :
    (wireValue value bits).toNat = value.toNat % 2 ^ min bits.toNat 64 := by
  have bounded : value.toNat % 2 ^ min bits.toNat 64 < 2 ^ 64 :=
    lt_of_le_of_lt (Nat.mod_le _ _) value.toNat_lt
  rw [wireValue, UInt64.toNat_ofNat_of_lt' bounded]

/-- Bits of a carried value are the reported bits inside the field. -/
theorem testBit_wireValue
    (value : UInt64)
    (bits : UInt32)
    (index : Nat) :
    (wireValue value bits).toNat.testBit index =
      (decide (index < bits.toNat) && value.toNat.testBit index) := by
  rw [toNat_wireValue, Nat.testBit_mod_two_pow]
  by_cases low : index < 64
  · simp [low]
  · simp [testBit_eq_false_of_le value (not_lt.mp low)]

namespace PacketBuilder

/-- The bit of a value the writer emits at loop index `i`. -/
def bitAt
    (value : UInt64)
    (i : Nat) : Nat :=
  if i < 64 then ((value >>> UInt64.ofNat i) &&& 1).toNat else 0

/-- The writer's loop, counting down to its last index. -/
def appendBitsLoop
    (value : UInt64) :
    Nat → List UInt8 × Nat → List UInt8 × Nat
  | 0, state => state
  | i + 1, (buf, bitOffset) =>
      let bit := bitAt value i
      let byteIdx := bitOffset / 8
      let bitInByte := 7 - bitOffset % 8
      let grown := if byteIdx ≥ buf.length then buf ++ [0] else buf
      appendBitsLoop value i
        (grown.modify byteIdx
            fun byte => byte ||| UInt8.ofNat (bit <<< bitInByte),
          bitOffset + 1)

/-- Append the low `numBits` of a value, growing the buffer as needed. -/
def appendBits
    (buf : List UInt8)
    (bitOffset : Nat)
    (value : UInt64)
    (numBits : UInt32) : List UInt8 × Nat :=
  appendBitsLoop value (loopCount numBits) (buf, bitOffset)

/-- The shift-and-mask of the writer selects the value's bit. -/
theorem bitAt_eq_testBit
    (value : UInt64)
    (i : Nat) :
    bitAt value i = (value.toNat.testBit i).toNat := by
  unfold bitAt
  split
  next low =>
    have small : i < UInt64.size := by
      simp only [UInt64.size]
      omega
    rw [UInt64.toNat_and, UInt64.toNat_shiftRight,
      UInt64.toNat_ofNat_of_lt' small, Nat.mod_eq_of_lt low,
      UInt64.toNat_one, Nat.and_one_is_mod,
      Nat.testBit_eq_decide_div_mod_eq, Nat.shiftRight_eq_div_pow]
    rcases Nat.mod_two_eq_zero_or_one (value.toNat / 2 ^ i) with
      even | odd
    · simp [even]
    · simp [odd]
  next high =>
    simp [testBit_eq_false_of_le value (not_lt.mp high)]

/--
The writer's loop appends the bits it visits to the represented string and
leaves its offset at the new end.
-/
theorem appendBitsLoop_represents
    (value : UInt64)
    (count : Nat)
    {buf : List UInt8}
    {bits : List Bool}
    (represents : Represents buf bits) :
    Represents (appendBitsLoop value count (buf, bits.length)).1
        (bits ++ msbBits value.toNat count) ∧
      (appendBitsLoop value count (buf, bits.length)).2 =
        bits.length + count := by
  induction count generalizing buf bits with
  | zero =>
      simpa [appendBitsLoop, msbBits] using represents
  | succ i inductionHypothesis =>
      have pushed := represents.push (value.toNat.testBit i)
      have later := inductionHypothesis pushed
      have longer :
          (bits ++ [value.toNat.testBit i]).length = bits.length + 1 := by
        simp
      rw [longer, orBit, ← bitAt_eq_testBit] at later
      simp only [appendBitsLoop, msbBits]
      refine ⟨?_, ?_⟩
      · simpa using later.1
      · rw [later.2]
        omega

/-- Appending a field extends the represented string by the field's bits. -/
theorem appendBits_represents
    {buf : List UInt8}
    {bits : List Bool}
    (represents : Represents buf bits)
    (value : UInt64)
    (numBits : UInt32) :
    Represents (appendBits buf bits.length value numBits).1
        (bits ++ msbBits value.toNat (loopCount numBits)) ∧
      (appendBits buf bits.length value numBits).2 =
        bits.length + loopCount numBits :=
  appendBitsLoop_represents value (loopCount numBits) represents

end PacketBuilder

namespace PacketDecoder

/-- The reader's loop, counting down to its last index. -/
def extractBitsLoop
    (buf : List UInt8) :
    Nat → UInt64 × Nat → UInt64 × Nat
  | 0, state => state
  | i + 1, (value, bitOffset) =>
      let byteIdx := bitOffset / 8
      let bitInByte := 7 - bitOffset % 8
      let accumulated :=
        if byteIdx < buf.length ∧ i < 64 then
          let bit :=
            (buf.getD byteIdx 0 >>> UInt8.ofNat bitInByte) &&& 1
          value ||| (bit.toUInt64 <<< UInt64.ofNat i)
        else
          value
      extractBitsLoop buf i (accumulated, bitOffset + 1)

/-- Read a field of `numBits`, returning its low 64 bits. -/
def extractBits
    (buf : List UInt8)
    (bitOffset : Nat)
    (numBits : UInt32) : UInt64 × Nat :=
  extractBitsLoop buf (loopCount numBits) (0, bitOffset)

/-- The shift-and-mask of the reader selects the buffer's bit. -/
private theorem byteBit_eq_getBit
    (buf : List UInt8)
    (bitOffset : Nat) :
    ((buf.getD (bitOffset / 8) 0 >>> UInt8.ofNat (7 - bitOffset % 8)) &&& 1).toNat =
      (getBit buf bitOffset).toNat := by
  have small : 7 - bitOffset % 8 < 8 := by
    omega
  have bounded : 7 - bitOffset % 8 < UInt8.size := by
    simp only [UInt8.size]
    omega
  rw [getBit, List.getD_eq_getElem?_getD, UInt8.toNat_and,
    UInt8.toNat_shiftRight, UInt8.toNat_ofNat_of_lt' bounded,
    Nat.mod_eq_of_lt small, UInt8.toNat_one, Nat.and_one_is_mod,
    Nat.testBit_eq_decide_div_mod_eq, Nat.shiftRight_eq_div_pow]
  rcases Nat.mod_two_eq_zero_or_one
      ((buf[bitOffset / 8]?.getD 0).toNat / 2 ^ (7 - bitOffset % 8)) with
    even | odd
  · simp [even]
  · simp [odd]

/-- One accepted reader step sets the loop index's bit of the value. -/
private theorem testBit_accumulate
    (buf : List UInt8)
    (bitOffset : Nat)
    (value : UInt64)
    {i : Nat}
    (low : i < 64)
    (index : Nat) :
    (value |||
        (((buf.getD (bitOffset / 8) 0 >>> UInt8.ofNat (7 - bitOffset % 8)) &&& 1).toUInt64 <<<
          UInt64.ofNat i)).toNat.testBit index =
      (value.toNat.testBit index ||
        (decide (index = i) && getBit buf bitOffset)) := by
  have bounded : i < UInt64.size := by
    simp only [UInt64.size]
    omega
  rw [UInt64.toNat_or, Nat.testBit_or, UInt64.toNat_shiftLeft,
    UInt8.toNat_toUInt64, byteBit_eq_getBit,
    UInt64.toNat_ofNat_of_lt' bounded, Nat.mod_eq_of_lt low,
    Nat.testBit_mod_two_pow]
  congr 1
  cases getBit buf bitOffset with
  | false =>
      simp
  | true =>
      rw [Bool.toNat_true, Nat.one_shiftLeft, Nat.testBit_two_pow,
        Bool.and_true]
      by_cases sameIndex : index = i
      · simp [sameIndex, low]
      · simp [sameIndex, Ne.symm sameIndex]

/-- A reader step sets the loop index's bit, if the value has room for it. -/
theorem testBit_extractStep
    (buf : List UInt8)
    (bitOffset : Nat)
    (value : UInt64)
    (i index : Nat) :
    (if bitOffset / 8 < buf.length ∧ i < 64 then
        value |||
          (((buf.getD (bitOffset / 8) 0 >>>
              UInt8.ofNat (7 - bitOffset % 8)) &&& 1).toUInt64 <<<
            UInt64.ofNat i)
      else value).toNat.testBit index =
      (value.toNat.testBit index ||
        (decide (index = i ∧ i < 64) && getBit buf bitOffset)) := by
  split
  next accepted =>
    rw [testBit_accumulate buf bitOffset value accepted.2]
    simp [accepted.2]
  next refused =>
    by_cases low : i < 64
    · have beyond : 8 * buf.length ≤ bitOffset := by
        omega
      simp [getBit_eq_false_of_length_le beyond]
    · simp [low]

/-- The bit of one step and those of the later steps are those of both. -/
theorem extractStep_or_later
    (bits : Nat → Bool)
    (i index : Nat) :
    ((decide (index = i ∧ i < 64) && bits i) ||
        (decide (index < i ∧ index < 64) && bits index)) =
      (decide (index < i + 1 ∧ index < 64) && bits index) := by
  rcases Nat.lt_trichotomy index i with below | same | above
  · have different : index ≠ i := by
      omega
    simp [below, different, Nat.lt_succ_of_lt below]
  · subst same
    simp
  · have different : index ≠ i := by
      omega
    have notVisited : ¬ index < i + 1 := by
      omega
    have notLater : ¬ index < i := by
      omega
    simp [different, notVisited, notLater]

/--
The reader's loop sets exactly the visited bits below 64 that are set in the
buffer, and moves its offset by the number of visited bits.
-/
theorem extractBitsLoop_spec
    (buf : List UInt8)
    (count : Nat)
    (value : UInt64)
    (bitOffset : Nat) :
    (extractBitsLoop buf count (value, bitOffset)).2 = bitOffset + count ∧
      ∀ index,
        (extractBitsLoop buf count (value, bitOffset)).1.toNat.testBit index =
          (value.toNat.testBit index ||
            (decide (index < count ∧ index < 64) &&
              getBit buf (bitOffset + (count - 1 - index)))) := by
  induction count generalizing value bitOffset with
  | zero =>
      simp [extractBitsLoop]
  | succ i inductionHypothesis =>
      simp only [extractBitsLoop]
      refine ⟨?_, ?_⟩
      · rw [(inductionHypothesis _ _).1]
        omega
      · intro index
        have laterBit :
            (decide (index < i ∧ index < 64) &&
                getBit buf (bitOffset + 1 + (i - 1 - index))) =
              (decide (index < i ∧ index < 64) &&
                getBit buf (bitOffset + (i - index))) := by
          by_cases below : index < i
          · have samePosition :
                bitOffset + 1 + (i - 1 - index) =
                  bitOffset + (i - index) := by
              omega
            rw [samePosition]
          · simp [below]
        have bothBits :=
          extractStep_or_later
            (fun bit => getBit buf (bitOffset + (i - bit))) i index
        simp only [Nat.sub_self, Nat.add_zero] at bothBits
        rw [(inductionHypothesis _ _).2, testBit_extractStep, Bool.or_assoc,
          laterBit, bothBits, Nat.add_sub_cancel]

/-- Extraction leaves the offset behind the field. -/
theorem extractBits_offset
    (buf : List UInt8)
    (bitOffset : Nat)
    (numBits : UInt32) :
    (extractBits buf bitOffset numBits).2 =
      bitOffset + loopCount numBits :=
  (extractBitsLoop_spec buf (loopCount numBits) 0 bitOffset).1

/-- The extracted value has the buffer's bits, top bit of the field first. -/
theorem testBit_extractBits
    (buf : List UInt8)
    (bitOffset : Nat)
    (numBits : UInt32)
    (index : Nat) :
    (extractBits buf bitOffset numBits).1.toNat.testBit index =
      (decide (index < loopCount numBits ∧ index < 64) &&
        getBit buf (bitOffset + (loopCount numBits - 1 - index))) := by
  rw [extractBits, (extractBitsLoop_spec _ _ _ _).2]
  simp

/--
Where the buffer holds the bits of a value at the offset, extraction returns
that value as carried by the field.
-/
theorem extractBits_of_msbBits
    {buf : List UInt8}
    {bitOffset : Nat}
    {value : UInt64}
    {numBits : UInt32}
    (narrow : numBits.toNat < 2 ^ 31)
    (held :
      ∀ position, position < numBits.toNat →
        getBit buf (bitOffset + position) =
          value.toNat.testBit (numBits.toNat - 1 - position)) :
    (extractBits buf bitOffset numBits).1 = wireValue value numBits := by
  apply UInt64.toNat_inj.mp
  apply Nat.eq_of_testBit_eq
  intro index
  rw [testBit_extractBits, testBit_wireValue, loopCount_eq_toNat narrow]
  by_cases visited : index < numBits.toNat
  · have sameIndex :
        numBits.toNat - 1 - (numBits.toNat - 1 - index) = index := by
      omega
    rw [held _ (by omega), sameIndex]
    by_cases low : index < 64
    · simp [visited, low]
    · simp [testBit_eq_false_of_le value (not_lt.mp low)]
  · simp [visited]

end PacketDecoder

end TsnGen
