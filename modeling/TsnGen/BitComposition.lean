import TsnGen.DecoderOffsets

namespace TsnGen

open BitBuffer

/-!
# Bit loops compose

Between two calls of the writer the buffer is just long enough for the offset
and clear from it on.  Under this invariant the writer touches existing bytes
only and keeps it.  A field written in two parts is the field written at once,
and a field read in two parts is the field read at once, at every alignment.
-/

namespace PacketBuilder

/--
The writer's loop with its access checked: there is no result once it reaches
for a byte that the buffer does not have.
-/
def appendBitsLoopChecked
    (value : UInt64) :
    Nat → List UInt8 × Nat → Option (List UInt8 × Nat)
  | 0, state => some state
  | i + 1, (buf, bitOffset) =>
      let bit := bitAt value i
      let byteIdx := bitOffset / 8
      let bitInByte := 7 - bitOffset % 8
      let grown := if byteIdx ≥ buf.length then buf ++ [0] else buf
      if byteIdx < grown.length then
        appendBitsLoopChecked value i
          (grown.modify byteIdx
              fun byte => byte ||| UInt8.ofNat (bit <<< bitInByte),
            bitOffset + 1)
      else
        none

/-- Append the low `numBits` of a value, every access checked. -/
def appendBitsChecked
    (buf : List UInt8)
    (bitOffset : Nat)
    (value : UInt64)
    (numBits : UInt32) : Option (List UInt8 × Nat) :=
  appendBitsLoopChecked value (loopCount numBits) (buf, bitOffset)

/-- One fresh byte is enough for a bit right behind a buffer. -/
theorem byteIdx_lt_grown
    {buf : List UInt8}
    {bitOffset : Nat}
    (reached : bitOffset ≤ 8 * buf.length) :
    bitOffset / 8 <
      (if bitOffset / 8 ≥ buf.length then buf ++ [0] else buf).length := by
  by_cases full : bitOffset / 8 ≥ buf.length
  · simp only [full, if_true, List.length_append, List.length_singleton]
    omega
  · simp only [full, if_false]
    exact not_le.mp full

/-- From an offset within the buffer on no access misses. -/
theorem appendBitsLoopChecked_eq
    (value : UInt64)
    (count : Nat)
    {buf : List UInt8}
    {bitOffset : Nat}
    (reached : bitOffset ≤ 8 * buf.length) :
    appendBitsLoopChecked value count (buf, bitOffset) =
      some (appendBitsLoop value count (buf, bitOffset)) := by
  induction count generalizing buf bitOffset with
  | zero =>
      rfl
  | succ i inductionHypothesis =>
      have existing := byteIdx_lt_grown reached
      simp only [appendBitsLoopChecked, appendBitsLoop, existing, if_true]
      apply inductionHypothesis
      simp only [List.length_modify]
      omega

/-- One bit behind the offset, in a fresh byte where the last one is full. -/
def pushBit
    (state : List UInt8 × Nat)
    (bit : Bool) : List UInt8 × Nat :=
  (orBit
    (if state.2 / 8 ≥ state.1.length then state.1 ++ [0] else state.1)
    state.2 bit, state.2 + 1)

/-- The writer's loop pushes the bits it spells out, one after the other. -/
theorem appendBitsLoop_eq_foldl
    (value : UInt64)
    (count : Nat)
    (state : List UInt8 × Nat) :
    appendBitsLoop value count state =
      (msbBits value.toNat count).foldl pushBit state := by
  induction count generalizing state with
  | zero =>
      rfl
  | succ i inductionHypothesis =>
      simp only [appendBitsLoop, msbBits, List.foldl_cons,
        inductionHypothesis, pushBit, orBit, bitAt_eq_testBit]

/-- Below `2^31` a field pushes all the bits of its width. -/
theorem appendBits_eq_foldl
    (buf : List UInt8)
    (bitOffset : Nat)
    (value : UInt64)
    {numBits : UInt32}
    (narrow : numBits.toNat < 2 ^ 31) :
    appendBits buf bitOffset value numBits =
      (msbBits value.toNat numBits.toNat).foldl pushBit
        (buf, bitOffset) := by
  rw [appendBits, loopCount_eq_toNat narrow, appendBitsLoop_eq_foldl]

/-- The number that two fields spell, one behind the other. -/
def joined
    (v1 v2 : UInt64)
    (n1 n2 : UInt32) : UInt64 :=
  UInt64.ofNat
    (v1.toNat % 2 ^ n1.toNat * 2 ^ n2.toNat + v2.toNat % 2 ^ n2.toNat)

/-- Within 64 bits nothing of the joined number is lost. -/
theorem toNat_joined
    (v1 v2 : UInt64)
    {n1 n2 : UInt32}
    (fits : n1.toNat + n2.toNat ≤ 64) :
    (joined v1 v2 n1 n2).toNat =
      v1.toNat % 2 ^ n1.toNat * 2 ^ n2.toNat +
        v2.toNat % 2 ^ n2.toNat := by
  have front : v1.toNat % 2 ^ n1.toNat < 2 ^ n1.toNat :=
    Nat.mod_lt _ (Nat.two_pow_pos _)
  have back : v2.toNat % 2 ^ n2.toNat < 2 ^ n2.toNat :=
    Nat.mod_lt _ (Nat.two_pow_pos _)
  have bounded :
      v1.toNat % 2 ^ n1.toNat * 2 ^ n2.toNat + v2.toNat % 2 ^ n2.toNat <
        2 ^ 64 :=
    calc
      _ < v1.toNat % 2 ^ n1.toNat * 2 ^ n2.toNat + 2 ^ n2.toNat :=
        Nat.add_lt_add_left back _
      _ = (v1.toNat % 2 ^ n1.toNat + 1) * 2 ^ n2.toNat :=
        (Nat.succ_mul _ _).symm
      _ ≤ 2 ^ n1.toNat * 2 ^ n2.toNat := Nat.mul_le_mul_right _ front
      _ = 2 ^ (n1.toNat + n2.toNat) := (Nat.pow_add 2 _ _).symm
      _ ≤ 2 ^ 64 := Nat.pow_le_pow_right (by decide) fits
  exact UInt64.toNat_ofNat_of_lt' bounded

end PacketBuilder

/-- The sum of two widths does not wrap where it stays within 64. -/
theorem toNat_add_width
    {n1 n2 : UInt32}
    (fits : n1.toNat + n2.toNat ≤ 64) :
    (n1 + n2).toNat = n1.toNat + n2.toNat := by
  rw [UInt32.toNat_add]
  exact Nat.mod_eq_of_lt (lt_of_le_of_lt fits (by decide))

namespace PacketBuilder

/--
Two fields of at most 64 bits together are written like their joined number.
-/
theorem appendBits_appendBits
    (buf : List UInt8)
    (bitOffset : Nat)
    (v1 v2 : UInt64)
    {n1 n2 : UInt32}
    (fits : n1.toNat + n2.toNat ≤ 64) :
    appendBits (appendBits buf bitOffset v1 n1).1
        (appendBits buf bitOffset v1 n1).2 v2 n2 =
      appendBits buf bitOffset (joined v1 v2 n1 n2) (n1 + n2) := by
  have sum := toNat_add_width fits
  have narrow1 : n1.toNat < 2 ^ 31 := by
    omega
  have narrow2 : n2.toNat < 2 ^ 31 := by
    omega
  have narrowSum : (n1 + n2).toNat < 2 ^ 31 := by
    omega
  have back : v2.toNat % 2 ^ n2.toNat < 2 ^ n2.toNat :=
    Nat.mod_lt _ (Nat.two_pow_pos _)
  have spelled :
      msbBits (joined v1 v2 n1 n2).toNat (n1 + n2).toNat =
        msbBits v1.toNat n1.toNat ++ msbBits v2.toNat n2.toNat := by
    rw [toNat_joined v1 v2 fits, sum, msbBits_mul_add _ back, msbBits_mod,
      msbBits_mod]
  simp only [appendBits_eq_foldl _ _ _ narrow1,
    appendBits_eq_foldl _ _ _ narrow2,
    appendBits_eq_foldl _ _ _ narrowSum, spelled, List.foldl_append]

/-- All that a call of the writer keeps of an aligned buffer. -/
structure Appends
    (buf : List UInt8)
    (bitOffset : Nat)
    (value : UInt64)
    (numBits : UInt32) : Prop where
  accesses_exist :
    appendBitsChecked buf bitOffset value numBits =
      some (appendBits buf bitOffset value numBits)
  moved :
    (appendBits buf bitOffset value numBits).2 =
      bitOffset + numBits.toNat
  aligned :
    Aligned (appendBits buf bitOffset value numBits).1
      (appendBits buf bitOffset value numBits).2
  keeps :
    ∀ position, position < bitOffset →
      getBit (appendBits buf bitOffset value numBits).1 position =
        getBit buf position

/-- The writer keeps aligned buffers aligned. -/
theorem appends_of_aligned
    {buf : List UInt8}
    {bitOffset : Nat}
    (aligned : Aligned buf bitOffset)
    (value : UInt64)
    {numBits : UInt32}
    (narrow : numBits.toNat < 2 ^ 31) :
    Appends buf bitOffset value numBits := by
  have appended :=
    appendBits_represents aligned.represents value numBits
  rw [length_leadingBits, loopCount_eq_toNat narrow] at appended
  obtain ⟨extended, moved⟩ := appended
  refine ⟨?_, moved, ?_, ?_⟩
  · have reached : bitOffset ≤ 8 * buf.length := by
      have sized := aligned.length_eq
      omega
    exact appendBitsLoopChecked_eq value (loopCount numBits) reached
  · rw [moved]
    simpa using extended.aligned
  · intro position inside
    rw [extended.getBit_eq,
      List.getElem?_append_left (by simpa using inside),
      ← aligned.represents.getBit_eq]

end PacketBuilder

namespace PacketDecoder

/-- A field of at most 64 bits is read in two parts as at once. -/
theorem extractBits_extractBits
    (buf : List UInt8)
    (bitOffset : Nat)
    {n1 n2 : UInt32}
    (fits : n1.toNat + n2.toNat ≤ 64) :
    (extractBits buf bitOffset (n1 + n2)).1.toNat =
        (extractBits buf bitOffset n1).1.toNat * 2 ^ n2.toNat +
          (extractBits buf (extractBits buf bitOffset n1).2 n2).1.toNat ∧
      (extractBits buf bitOffset (n1 + n2)).2 =
        (extractBits buf (extractBits buf bitOffset n1).2 n2).2 := by
  have sum := toNat_add_width fits
  have count1 : loopCount n1 = n1.toNat :=
    loopCount_eq_toNat (by omega)
  have count2 : loopCount n2 = n2.toNat :=
    loopCount_eq_toNat (by omega)
  have countSum : loopCount (n1 + n2) = n1.toNat + n2.toNat := by
    rw [loopCount_eq_toNat (by omega), sum]
  constructor
  · apply eq_mul_add_of_stretches fun position =>
      getBit buf (bitOffset + position)
    all_goals
      intro index
      simp only [testBit_extractBits, extractBits_offset, count1, count2,
        countSum, Nat.add_assoc]
      congr 1
      apply decide_eq_decide.mpr
      omega
  · simp only [extractBits_offset, count1, count2, countSum, Nat.add_assoc]

/-- The same with an offset that wraps at `2^64`. -/
theorem extractBits64_extractBits64
    (buf : List UInt8)
    (bitOffset : UInt64)
    {n1 n2 : UInt32}
    (fits : n1.toNat + n2.toNat ≤ 64) :
    (extractBits64 buf bitOffset (n1 + n2)).1.toNat =
        (extractBits64 buf bitOffset n1).1.toNat * 2 ^ n2.toNat +
          (extractBits64 buf
            (extractBits64 buf bitOffset n1).2 n2).1.toNat ∧
      (extractBits64 buf bitOffset (n1 + n2)).2 =
        (extractBits64 buf (extractBits64 buf bitOffset n1).2 n2).2 := by
  have sum := toNat_add_width fits
  have count1 : loopCount n1 = n1.toNat :=
    loopCount_eq_toNat (by omega)
  have count2 : loopCount n2 = n2.toNat :=
    loopCount_eq_toNat (by omega)
  have countSum : loopCount (n1 + n2) = n1.toNat + n2.toNat := by
    rw [loopCount_eq_toNat (by omega), sum]
  constructor
  · apply eq_mul_add_of_stretches fun position =>
      getBit buf (bitOffset + UInt64.ofNat position).toNat
    all_goals
      intro index
      simp only [testBit_extractBits64, extractBits64_offset, count1, count2,
        countSum, UInt64.ofNat_add, UInt64.add_assoc]
      congr 1
      apply decide_eq_decide.mpr
      omega
  · simp only [extractBits64_offset, count1, count2, countSum,
      UInt64.ofNat_add, UInt64.add_assoc]

end PacketDecoder

open PacketBuilder PacketDecoder

/--
Between calls the writer finds and leaves an aligned buffer, touches existing
bytes only and keeps all earlier bits.  Within 64 bits two writes are one write
of the joined number, and two reads are one read, also where the offset wraps.
-/
theorem bit_loops_compose
    (buf : List UInt8)
    (bitOffset : Nat) :
    (Aligned buf bitOffset →
        ∀ (value : UInt64) (numBits : UInt32), numBits.toNat < 2 ^ 31 →
          Appends buf bitOffset value numBits) ∧
      (∀ (v1 v2 : UInt64) (n1 n2 : UInt32), n1.toNat + n2.toNat ≤ 64 →
        (joined v1 v2 n1 n2).toNat =
            v1.toNat % 2 ^ n1.toNat * 2 ^ n2.toNat +
              v2.toNat % 2 ^ n2.toNat ∧
          appendBits (appendBits buf bitOffset v1 n1).1
              (appendBits buf bitOffset v1 n1).2 v2 n2 =
            appendBits buf bitOffset (joined v1 v2 n1 n2) (n1 + n2)) ∧
      (∀ n1 n2 : UInt32, n1.toNat + n2.toNat ≤ 64 →
        (extractBits buf bitOffset (n1 + n2)).1.toNat =
            (extractBits buf bitOffset n1).1.toNat * 2 ^ n2.toNat +
              (extractBits buf
                (extractBits buf bitOffset n1).2 n2).1.toNat ∧
          (extractBits buf bitOffset (n1 + n2)).2 =
            (extractBits buf (extractBits buf bitOffset n1).2 n2).2) ∧
      ∀ (offset : UInt64) (n1 n2 : UInt32), n1.toNat + n2.toNat ≤ 64 →
        (extractBits64 buf offset (n1 + n2)).1.toNat =
            (extractBits64 buf offset n1).1.toNat * 2 ^ n2.toNat +
              (extractBits64 buf
                (extractBits64 buf offset n1).2 n2).1.toNat ∧
          (extractBits64 buf offset (n1 + n2)).2 =
            (extractBits64 buf (extractBits64 buf offset n1).2 n2).2 := by
  refine ⟨?_, ?_, ?_, ?_⟩
  · intro aligned value numBits narrow
    exact appends_of_aligned aligned value narrow
  · intro v1 v2 n1 n2 fits
    exact ⟨toNat_joined v1 v2 fits,
      appendBits_appendBits buf bitOffset v1 v2 fits⟩
  · intro n1 n2 fits
    exact extractBits_extractBits buf bitOffset fits
  · intro offset n1 n2 fits
    exact extractBits64_extractBits64 buf offset fits

/-- Thirteen bits behind the three that fill the front of a byte. -/
theorem bit_loops_compose_unaligned :
    Appends [0xA0] 3 0x1234 13 ∧
      appendBits (appendBits [0xA0] 3 0x12 5).1
          (appendBits [0xA0] 3 0x12 5).2 0x34 8 =
        appendBits [0xA0] 3 (joined 0x12 0x34 5 8) (5 + 8) ∧
      (extractBits [0xA0, 0x3C] 3 (5 + 6)).2 =
        (extractBits [0xA0, 0x3C] (extractBits [0xA0, 0x3C] 3 5).2 6).2 := by
  have aligned : Aligned [0xA0] 3 := by
    refine ⟨rfl, ?_⟩
    intro position beyond
    by_cases inside : position < 8
    · interval_cases position <;> rfl
    · exact getBit_eq_false_of_length_le (not_lt.mp inside)
  obtain ⟨writes, joins, -, -⟩ := bit_loops_compose [0xA0] 3
  obtain ⟨-, -, reads, -⟩ := bit_loops_compose [0xA0, 0x3C] 3
  exact ⟨writes aligned 0x1234 13 (by decide),
    (joins 0x12 0x34 5 8 (by decide)).2, (reads 5 6 (by decide)).2⟩

end TsnGen
