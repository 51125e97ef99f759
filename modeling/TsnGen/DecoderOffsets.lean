import TsnGen.LayerWindow

namespace TsnGen

open BitBuffer PacketBuilder

/-!
# Offsets of the decoder

`PacketDecoder::decode` counts bytes and bits in `size_t`.  The decoder is
given here once more with offsets that wrap at `2^64`.  Where a layer ends
below that bound the two agree, so that the results about natural offsets are
results about the machine; beyond it a bit position comes round to the front
of the buffer, and exactly then a byte outside of the window may be read.
-/

namespace PacketDecoder

/-- The reader's loop with a `size_t` offset. -/
def extractBitsLoop64
    (buf : List UInt8) :
    Nat → UInt64 × UInt64 → UInt64 × UInt64
  | 0, state => state
  | i + 1, (value, bitOffset) =>
      let byteIdx := bitOffset.toNat / 8
      let bitInByte := 7 - bitOffset.toNat % 8
      let accumulated :=
        if byteIdx < buf.length ∧ i < 64 then
          let bit :=
            (buf.getD byteIdx 0 >>> UInt8.ofNat bitInByte) &&& 1
          value ||| (bit.toUInt64 <<< UInt64.ofNat i)
        else
          value
      extractBitsLoop64 buf i (accumulated, bitOffset + 1)

/-- Read a field of `numBits` from a `size_t` offset. -/
def extractBits64
    (buf : List UInt8)
    (bitOffset : UInt64)
    (numBits : UInt32) : UInt64 × UInt64 :=
  extractBitsLoop64 buf (loopCount numBits) (0, bitOffset)

/-- One iteration over the variable references, with a `size_t` offset. -/
def decodeStep64
    (varDb : Database Var)
    (bytes : List UInt8)
    (state : List (String × UInt64) × UInt64)
    (ref : String) : List (String × UInt64) × UInt64 :=
  match varDb.getElement ref with
  | none => state
  | some var =>
      if var.size = 0 then
        state
      else
        let extracted := extractBits64 bytes state.2 var.size
        (state.1 ++ [(shortName ref, extracted.1)], extracted.2)

/-- Decode a buffer from a `size_t` byte offset. -/
def decode64
    (iface : ProtocolInterface)
    (varDb : Database Var)
    (bytes : List UInt8)
    (byteOffset : UInt64) : BuiltPacket :=
  let fields :=
    (iface.varRefs.foldl (decodeStep64 varDb bytes) ([], byteOffset * 8)).1
  let layerLen := UInt64.ofNat (layerBytes iface varDb)
  let stop := min (byteOffset + layerLen).toNat bytes.length
  { bytes :=
      if byteOffset.toNat < stop then
        (bytes.drop byteOffset.toNat).take (stop - byteOffset.toNat)
      else
        []
    fields := fields }

/-- Read fields of given names and widths from a `size_t` offset on. -/
def readFields64
    (bytes : List UInt8) :
    List (String × UInt32) → UInt64 → List (String × UInt64)
  | [], _ => []
  | (name, bits) :: rest, bitOffset =>
      let extracted := extractBits64 bytes bitOffset bits
      (name, extracted.1) :: readFields64 bytes rest extracted.2

/--
The loop reads the bits at its wrapped positions, and leaves its offset behind
the visited bits.
-/
theorem extractBitsLoop64_spec
    (buf : List UInt8)
    (count : Nat)
    (value bitOffset : UInt64) :
    (extractBitsLoop64 buf count (value, bitOffset)).2 =
        bitOffset + UInt64.ofNat count ∧
      ∀ index,
        (extractBitsLoop64 buf count
            (value, bitOffset)).1.toNat.testBit index =
          (value.toNat.testBit index ||
            (decide (index < count ∧ index < 64) &&
              getBit buf
                (bitOffset + UInt64.ofNat (count - 1 - index)).toNat)) := by
  induction count generalizing value bitOffset with
  | zero =>
      simp [extractBitsLoop64]
  | succ i inductionHypothesis =>
      simp only [extractBitsLoop64]
      refine ⟨?_, ?_⟩
      · rw [(inductionHypothesis _ _).1, UInt64.add_assoc,
          UInt64.add_comm 1, UInt64.ofNat_add]
        rfl
      · intro index
        have laterBit :
            (decide (index < i ∧ index < 64) &&
                getBit buf
                  (bitOffset + 1 + UInt64.ofNat (i - 1 - index)).toNat) =
              (decide (index < i ∧ index < 64) &&
                getBit buf (bitOffset + UInt64.ofNat (i - index)).toNat) := by
          by_cases below : index < i
          · have oneMore : i - index = i - 1 - index + 1 := by
              omega
            rw [oneMore, UInt64.ofNat_add, UInt64.add_assoc,
              UInt64.add_comm 1]
            rfl
          · simp [below]
        have bothBits :=
          extractStep_or_later
            (fun bit =>
              getBit buf (bitOffset + UInt64.ofNat (i - bit)).toNat) i index
        have atOffset : bitOffset + UInt64.ofNat 0 = bitOffset :=
          UInt64.add_zero bitOffset
        simp only [Nat.sub_self, atOffset] at bothBits
        rw [(inductionHypothesis _ _).2, testBit_extractStep, Bool.or_assoc,
          laterBit, bothBits, Nat.add_sub_cancel]

/-- Extraction leaves the wrapped offset behind the field. -/
theorem extractBits64_offset
    (buf : List UInt8)
    (bitOffset : UInt64)
    (numBits : UInt32) :
    (extractBits64 buf bitOffset numBits).2 =
      bitOffset + UInt64.ofNat (loopCount numBits) :=
  (extractBitsLoop64_spec buf (loopCount numBits) 0 bitOffset).1

/-- The extracted value has the bits of the wrapped positions. -/
theorem testBit_extractBits64
    (buf : List UInt8)
    (bitOffset : UInt64)
    (numBits : UInt32)
    (index : Nat) :
    (extractBits64 buf bitOffset numBits).1.toNat.testBit index =
      (decide (index < loopCount numBits ∧ index < 64) &&
        getBit buf
          (bitOffset +
            UInt64.ofNat (loopCount numBits - 1 - index)).toNat) := by
  rw [extractBits64, (extractBitsLoop64_spec _ _ _ _).2]
  simp

/-- Decoding reads the declared fields from the layer's first bit on. -/
theorem decode64_fields
    (iface : ProtocolInterface)
    (varDb : Database Var)
    (bytes : List UInt8)
    (byteOffset : UInt64) :
    (decode64 iface varDb bytes byteOffset).fields =
      readFields64 bytes (declaredShape varDb iface.varRefs)
        (byteOffset * 8) := by
  have general :
      ∀ (refs : List String)
        (state : List (String × UInt64) × UInt64),
        (refs.foldl (decodeStep64 varDb bytes) state).1 =
          state.1 ++
            readFields64 bytes (declaredShape varDb refs) state.2 := by
    intro refs
    induction refs with
    | nil =>
        intro state
        simp [declaredShape, layout, readFields64]
    | cons ref rest inductionHypothesis =>
        intro state
        rw [List.foldl_cons, inductionHypothesis]
        cases resolved : varDb.getElement ref with
        | none =>
            simp [decodeStep64, declaredShape, layout, resolved]
        | some var =>
            by_cases empty : var.size = 0
            · simp [decodeStep64, declaredShape, layout, resolved, empty]
            · simp [decodeStep64, declaredShape, layout, resolved, empty,
                readFields64]
  simp [decode64, general]

/--
Two reads of one field give the same value if the buffers agree at the wrapped
positions of its low 64 bits.
-/
theorem extractBits64_eq_iff
    (first second : List UInt8)
    (firstOffset secondOffset : UInt64)
    {bits : UInt32}
    (narrow : bits.toNat < 2 ^ 31) :
    (extractBits64 first firstOffset bits).1 =
        (extractBits64 second secondOffset bits).1 ↔
      ∀ position, bits.toNat - 64 ≤ position → position < bits.toNat →
        getBit first (firstOffset + UInt64.ofNat position).toNat =
          getBit second (secondOffset + UInt64.ofNat position).toNat := by
  have counted := loopCount_eq_toNat narrow
  constructor
  · intro same position high inside
    have sameBit :
        bits.toNat - 1 - (bits.toNat - 1 - position) = position := by
      omega
    have visited :
        bits.toNat - 1 - position < bits.toNat ∧
          bits.toNat - 1 - position < 64 := by
      omega
    have bitwise :=
      congrArg
        (fun value : UInt64 =>
          value.toNat.testBit (bits.toNat - 1 - position)) same
    simp only [testBit_extractBits64, counted, sameBit, visited, and_self,
      decide_true, Bool.true_and] at bitwise
    exact bitwise
  · intro agree
    apply UInt64.toNat_inj.mp
    apply Nat.eq_of_testBit_eq
    intro index
    rw [testBit_extractBits64, testBit_extractBits64, counted]
    by_cases visited : index < bits.toNat ∧ index < 64
    · rw [agree (bits.toNat - 1 - index) (by omega) (by omega)]
    · simp [visited]

/-- The kept bits of a layer: the low 64 of its first field, then the rest. -/
theorem getElem?_keptBits_cons_iff
    (entry : String × UInt32)
    (rest : List (String × UInt32))
    (position : Nat) :
    (keptBits (entry :: rest))[position]? = some true ↔
      (entry.2.toNat - 64 ≤ position ∧ position < entry.2.toNat) ∨
        (entry.2.toNat ≤ position ∧
          (keptBits rest)[position - entry.2.toNat]? = some true) := by
  have headLength :
      (List.replicate (entry.2.toNat - 64) false ++
        List.replicate (min entry.2.toNat 64) true).length =
          entry.2.toNat := by
    simp only [List.length_append, List.length_replicate]
    omega
  simp only [keptBits, List.flatMap_cons]
  by_cases inHead : position < entry.2.toNat
  · rw [List.getElem?_append_left (by omega)]
    by_cases high : position < entry.2.toNat - 64
    · rw [List.getElem?_append_left (by simpa using high)]
      simp only [List.getElem?_replicate, high, if_true,
        Option.some.injEq, Bool.false_eq_true, false_iff]
      rintro (⟨kept, -⟩ | ⟨beyond, -⟩)
      · exact absurd high (not_lt.mpr kept)
      · exact absurd inHead (not_lt.mpr beyond)
    · have low :
          position - (entry.2.toNat - 64) < min entry.2.toNat 64 := by
        omega
      rw [List.getElem?_append_right (by simpa using high)]
      simp only [List.length_replicate, List.getElem?_replicate, low,
        if_true, true_iff]
      exact Or.inl ⟨not_lt.mp high, inHead⟩
  · rw [List.getElem?_append_right (by omega), headLength]
    constructor
    · intro kept
      exact Or.inr ⟨not_lt.mp inHead, kept⟩
    · rintro (⟨-, inside⟩ | ⟨-, kept⟩)
      · exact absurd inside inHead
      · exact kept

/--
Two reads of one shape give the same fields if the buffers agree at the wrapped
positions of the kept bits.
-/
theorem readFields64_eq_iff
    (first second : List UInt8)
    (firstOffset secondOffset : UInt64)
    {shape : List (String × UInt32)}
    (narrow : ∀ entry ∈ shape, entry.2.toNat < 2 ^ 31) :
    readFields64 first shape firstOffset =
        readFields64 second shape secondOffset ↔
      ∀ position, (keptBits shape)[position]? = some true →
        getBit first (firstOffset + UInt64.ofNat position).toNat =
          getBit second (secondOffset + UInt64.ofNat position).toNat := by
  induction shape generalizing firstOffset secondOffset with
  | nil =>
      simp [readFields64, keptBits]
  | cons entry rest inductionHypothesis =>
      have entryNarrow := narrow entry List.mem_cons_self
      have later :=
        inductionHypothesis
          (firstOffset + UInt64.ofNat entry.2.toNat)
          (secondOffset + UInt64.ofNat entry.2.toNat)
          fun other member => narrow other (List.mem_cons_of_mem _ member)
      have shifted :
          ∀ (bitOffset : UInt64) {position : Nat},
            entry.2.toNat ≤ position →
            bitOffset + UInt64.ofNat entry.2.toNat +
                UInt64.ofNat (position - entry.2.toNat) =
              bitOffset + UInt64.ofNat position := by
        intro bitOffset position beyond
        rw [UInt64.add_assoc, ← UInt64.ofNat_add,
          Nat.add_sub_cancel' beyond]
      simp only [readFields64, List.cons.injEq, Prod.mk.injEq, true_and,
        extractBits64_offset, loopCount_eq_toNat entryNarrow, later,
        extractBits64_eq_iff first second firstOffset secondOffset
          entryNarrow, getElem?_keptBits_cons_iff]
      constructor
      · rintro ⟨headAgrees, restAgrees⟩ position
          (⟨high, inside⟩ | ⟨beyond, kept⟩)
        · exact headAgrees position high inside
        · have agrees := restAgrees (position - entry.2.toNat) kept
          rw [shifted firstOffset beyond, shifted secondOffset beyond]
            at agrees
          exact agrees
      · intro agrees
        refine ⟨?_, ?_⟩
        · intro position high inside
          exact agrees position (Or.inl ⟨high, inside⟩)
        · intro position kept
          have beyond : entry.2.toNat ≤ entry.2.toNat + position :=
            Nat.le_add_right _ _
          have sameRest :
              entry.2.toNat + position - entry.2.toNat = position :=
            Nat.add_sub_cancel_left _ _
          have agree :=
            agrees (entry.2.toNat + position)
              (Or.inr ⟨beyond, by rw [sameRest]; exact kept⟩)
          rw [← shifted firstOffset beyond, ← shifted secondOffset beyond,
            sameRest] at agree
          exact agree

/--
No counted bit of the layer is read at a wrapped position that shows another
bit, and the end of the slice wraps only where nothing is cut off.
-/
structure WrapsUnseen
    (iface : ProtocolInterface)
    (varDb : Database Var)
    (bytes : List UInt8)
    (byteOffset : UInt64) : Prop where
  bits :
    ∀ position,
      (keptBits (declaredShape varDb iface.varRefs))[position]? =
        some true →
      getBit bytes ((8 * byteOffset.toNat + position) % 2 ^ 64) =
        getBit bytes (8 * byteOffset.toNat + position % 2 ^ 64)
  slice :
    2 ^ 64 ≤ byteOffset.toNat + layerBytes iface varDb →
      bytes.length ≤
        max byteOffset.toNat
          ((byteOffset.toNat + layerBytes iface varDb) % 2 ^ 64)

/-- The wrapped slice is the whole window if its end wraps unseen. -/
theorem decode64_bytes_iff
    (iface : ProtocolInterface)
    (varDb : Database Var)
    (bytes : List UInt8)
    (byteOffset : UInt64) :
    (decode64 iface varDb bytes byteOffset).bytes =
        (bytes.drop byteOffset.toNat).take (layerBytes iface varDb) ↔
      (2 ^ 64 ≤ byteOffset.toNat + layerBytes iface varDb →
        bytes.length ≤
          max byteOffset.toNat
            ((byteOffset.toNat + layerBytes iface varDb) % 2 ^ 64)) := by
  have bounded := byteOffset.toNat_lt
  have wrappedEnd :
      (byteOffset + UInt64.ofNat (layerBytes iface varDb)).toNat =
        (byteOffset.toNat + layerBytes iface varDb) % 2 ^ 64 := by
    rw [UInt64.toNat_add, UInt64.toNat_ofNat', Nat.add_mod_mod]
  have emptySlice :
      ∀ stop : Nat,
        (if byteOffset.toNat < stop then
            (bytes.drop byteOffset.toNat).take (stop - byteOffset.toNat)
          else []) =
          (bytes.drop byteOffset.toNat).take (stop - byteOffset.toNat) := by
    intro stop
    split
    · rfl
    · rw [Nat.sub_eq_zero_of_le (by omega), List.take_zero]
  simp only [decode64, wrappedEnd, emptySlice, List.take_eq_take_iff,
    List.length_drop]
  by_cases fits : byteOffset.toNat + layerBytes iface varDb < 2 ^ 64
  · rw [Nat.mod_eq_of_lt fits]
    refine iff_of_true ?_ fun wraps => absurd fits (not_lt.mpr wraps)
    omega
  · have wraps := not_lt.mp fits
    have wrapped :
        (byteOffset.toNat + layerBytes iface varDb) % 2 ^ 64 <
          byteOffset.toNat + layerBytes iface varDb :=
      (Nat.mod_lt _ (by decide)).trans_le wraps
    simp only [wraps, forall_const]
    generalize (byteOffset.toNat + layerBytes iface varDb) % 2 ^ 64 =
      stop at wrapped
    omega

/-- Offsets that stay below `2^64` add up as numbers. -/
theorem toNat_add_ofNat
    {bitOffset : UInt64}
    {count : Nat}
    (fits : bitOffset.toNat + count < 2 ^ 64) :
    (bitOffset + UInt64.ofNat count).toNat = bitOffset.toNat + count := by
  rw [UInt64.toNat_add, UInt64.toNat_ofNat', Nat.add_mod_mod,
    Nat.mod_eq_of_lt fits]

/-- Below `2^64` both loops read the same value. -/
theorem extractBits64_eq_extractBits
    (buf : List UInt8)
    (bitOffset : UInt64)
    (numBits : UInt32)
    (fits : bitOffset.toNat + loopCount numBits < 2 ^ 64) :
    (extractBits64 buf bitOffset numBits).1 =
      (extractBits buf bitOffset.toNat numBits).1 := by
  apply UInt64.toNat_inj.mp
  apply Nat.eq_of_testBit_eq
  intro index
  rw [testBit_extractBits64, testBit_extractBits,
    toNat_add_ofNat (by omega)]

/-- Below `2^64` both readers give the same fields. -/
theorem readFields64_eq_readFields
    (bytes : List UInt8)
    {shape : List (String × UInt32)}
    {bitOffset : UInt64}
    (fits : bitOffset.toNat + visitedBits shape < 2 ^ 64) :
    readFields64 bytes shape bitOffset =
      readFields bytes shape bitOffset.toNat := by
  induction shape generalizing bitOffset with
  | nil =>
      rfl
  | cons entry rest inductionHypothesis =>
      simp only [visitedBits, List.map_cons, List.sum_cons] at fits
      have moved :
          (bitOffset + UInt64.ofNat (loopCount entry.2)).toNat =
            bitOffset.toNat + loopCount entry.2 :=
        toNat_add_ofNat (by omega)
      have later :
          readFields64 bytes rest
              (bitOffset + UInt64.ofNat (loopCount entry.2)) =
            readFields bytes rest
              (bitOffset.toNat + loopCount entry.2) := by
        rw [← moved]
        apply inductionHypothesis
        rw [moved, visitedBits]
        omega
      have headValue :=
        extractBits64_eq_extractBits bytes bitOffset entry.2 (by omega)
      simp only [readFields64, readFields, extractBits64_offset,
        extractBits_offset, later, headValue]

/--
Where the layer ends below `2^61` bytes, decoding at the machine offset is
decoding at the number.
-/
theorem decode64_eq_decode
    (iface : ProtocolInterface)
    (varDb : Database Var)
    (bytes : List UInt8)
    {byteOffset : UInt64}
    (fits :
      byteOffset.toNat + layerBytes iface varDb < 2 ^ 61) :
    decode64 iface varDb bytes byteOffset =
      decode iface varDb bytes byteOffset.toNat := by
  have bitOffset : (byteOffset * 8).toNat = byteOffset.toNat * 8 := by
    rw [UInt64.toNat_mul]
    exact Nat.mod_eq_of_lt (by simp; omega)
  have visited :=
    visitedBits_le (declaredShape varDb iface.varRefs)
  have whole := layerBytes_eq iface varDb
  apply BuiltPacket.ext
  · rw [decode_bytes]
    apply (decode64_bytes_iff iface varDb bytes byteOffset).mpr
    intro wraps
    omega
  · rw [decode64_fields, decode_fields, ← bitOffset]
    apply readFields64_eq_readFields
    omega

/-- A bit position of a layer wraps at `2^64`. -/
theorem toNat_bitPosition
    (byteOffset : UInt64)
    (position : Nat) :
    (byteOffset * 8 + UInt64.ofNat position).toNat =
      (8 * byteOffset.toNat + position) % 2 ^ 64 := by
  rw [UInt64.toNat_add, UInt64.toNat_ofNat', UInt64.toNat_mul,
    Nat.add_mod_mod, Nat.mod_add_mod, Nat.mul_comm]
  rfl

/-- Kept bits lie inside the bytes of the layer. -/
theorem mod_lt_layerBits
    {iface : ProtocolInterface}
    {varDb : Database Var}
    {position : Nat}
    (inside :
      position <
        (keptBits (declaredShape varDb iface.varRefs)).length) :
    position % 2 ^ 64 < 8 * layerBytes iface varDb := by
  have lower := Nat.mod_le position (2 ^ 64)
  rw [length_keptBits] at inside
  rw [layerBytes_eq]
  omega

/--
Decoding at any `size_t` offset gives the slice of the layer and the fields of
that slice, extended with zeros, exactly where the offsets wrap unseen.
-/
theorem decode64_local_iff
    (iface : ProtocolInterface)
    {varDb : Database Var}
    (narrow : NarrowWidths varDb)
    (bytes : List UInt8)
    (byteOffset : UInt64) :
    let slice :=
      (bytes.drop byteOffset.toNat).take (layerBytes iface varDb)
    let extended :=
      slice ++ List.replicate (layerBytes iface varDb - slice.length) 0
    ((decode64 iface varDb bytes byteOffset).bytes = slice ∧
        (decode64 iface varDb bytes byteOffset).fields =
          (decode64 iface varDb extended 0).fields) ↔
      WrapsUnseen iface varDb bytes byteOffset := by
  intro slice extended
  have narrowShape :
      ∀ entry ∈ declaredShape varDb iface.varRefs,
        entry.2.toNat < 2 ^ 31 :=
    fun entry member => narrow.declaredShape member
  have readExtended :
      ∀ position,
        position < (keptBits (declaredShape varDb iface.varRefs)).length →
        getBit extended (0 * 8 + UInt64.ofNat position).toNat =
          getBit bytes (8 * byteOffset.toNat + position % 2 ^ 64) := by
    intro position inside
    have wrapped :
        (0 * 8 + UInt64.ofNat position).toNat = position % 2 ^ 64 := by
      rw [UInt64.zero_mul, UInt64.zero_add, UInt64.toNat_ofNat']
    rw [wrapped, getBit_append_zeros, getBit_slice]
    simp only [mod_lt_layerBits inside, decide_true, Bool.true_and]
  rw [decode64_bytes_iff, decode64_fields, decode64_fields,
    readFields64_eq_iff _ _ _ _ narrowShape]
  have sameCondition :
      (∀ position,
          (keptBits (declaredShape varDb iface.varRefs))[position]? =
            some true →
          getBit bytes (byteOffset * 8 + UInt64.ofNat position).toNat =
            getBit extended (0 * 8 + UInt64.ofNat position).toNat) ↔
        ∀ position,
          (keptBits (declaredShape varDb iface.varRefs))[position]? =
            some true →
          getBit bytes ((8 * byteOffset.toNat + position) % 2 ^ 64) =
            getBit bytes (8 * byteOffset.toNat + position % 2 ^ 64) := by
    refine forall_congr' fun position => forall_congr' fun kept => ?_
    obtain ⟨inside, -⟩ := List.getElem?_eq_some_iff.mp kept
    rw [toNat_bitPosition, readExtended position inside]
  rw [sameCondition]
  constructor
  · rintro ⟨slice, bits⟩
    exact ⟨bits, slice⟩
  · rintro ⟨bits, slice⟩
    exact ⟨slice, bits⟩

/-- A layer that ends below `2^61` bytes wraps nowhere. -/
theorem WrapsUnseen.of_fits
    {iface : ProtocolInterface}
    {varDb : Database Var}
    (bytes : List UInt8)
    {byteOffset : UInt64}
    (fits : byteOffset.toNat + layerBytes iface varDb < 2 ^ 61) :
    WrapsUnseen iface varDb bytes byteOffset where
  bits := by
    intro position kept
    obtain ⟨inside, -⟩ := List.getElem?_eq_some_iff.mp kept
    rw [length_keptBits] at inside
    rw [layerBytes_eq] at fits
    rw [Nat.mod_eq_of_lt (by omega), Nat.mod_eq_of_lt (by omega)]
  slice := by
    intro wraps
    omega

theorem decode64_local_unaligned :
    NarrowWidths unalignedVarDb ∧
      (decode64 unalignedInterface unalignedVarDb [7, 255] 1).bytes =
          [255] ∧
        (decode64 unalignedInterface unalignedVarDb [7, 255] 1).fields =
          (decode64 unalignedInterface unalignedVarDb
            (255 :: List.replicate 9 0) 0).fields :=
  ⟨by decide,
    (decode64_local_iff unalignedInterface
      (by decide : NarrowWidths unalignedVarDb) [7, 255] 1).mpr
        (WrapsUnseen.of_fits [7, 255] (by decide))⟩

/-- At `2^61` the first bit of the buffer is read once more. -/
theorem wrapped_offset_reads_front :
    ¬ ∀ (iface : ProtocolInterface) (varDb : Database Var)
        (bytes : List UInt8) (byteOffset : UInt64),
      NarrowWidths varDb →
      (decode64 iface varDb bytes byteOffset).bytes =
          (bytes.drop byteOffset.toNat).take (layerBytes iface varDb) ∧
        (decode64 iface varDb bytes byteOffset).fields =
          (decode64 iface varDb
            ((bytes.drop byteOffset.toNat).take (layerBytes iface varDb) ++
              List.replicate
                (layerBytes iface varDb -
                  ((bytes.drop byteOffset.toNat).take
                    (layerBytes iface varDb)).length) 0) 0).fields := by
  intro always
  have read :=
    (always soleInterface (soleVarDb 8) [255]
      (UInt64.ofNat (2 ^ 61)) (by decide)).2
  have beyond :
      ([255] : List UInt8).drop (UInt64.ofNat (2 ^ 61)).toNat = [] :=
    List.drop_eq_nil_of_le (by decide)
  rw [beyond] at read
  revert read
  decide

end PacketDecoder

end TsnGen
