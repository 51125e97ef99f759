import Mathlib.Data.List.Basic
import TsnGen.ByteOrder

namespace TsnGen

/-!
# AXI-Stream beats

A packet travels as beats of up to eight bytes.  Byte `i` of a chunk stands in
bits `8i` to `8i + 7` of `tdata`, bit `i` of `tkeep` says that it is valid, and
`tlast` marks the last beat of the packet.
-/

/-- One beat, with the fields of the packed struct in their order. -/
structure AxiStreamBeat where
  tdata : UInt64
  tkeep : UInt8
  tlast : UInt8
  deriving Repr, DecidableEq

namespace AxiStreamBeat

/-- Bytes of payload in a full beat. -/
def tdataBytes : Nat :=
  8

/-- The packing loop: byte `i` is or-ed in at bit `8i`. -/
def packFrom
    (tdata : UInt64)
    (i : Nat) :
    List UInt8 → UInt64
  | [] => tdata
  | byte :: rest =>
      packFrom (tdata ||| byte.toUInt64 <<< UInt64.ofNat (i * 8)) (i + 1) rest

/-- The beat of a chunk of at most eight bytes. -/
def ofChunk
    (chunk : List UInt8)
    (isLast : Bool) : AxiStreamBeat where
  tdata := packFrom 0 0 chunk
  tkeep := ((1 : UInt32) <<< UInt32.ofNat chunk.length - 1).toUInt8
  tlast := if isLast then 1 else 0

/-- The valid bytes of a beat: byte `i` where bit `i` of `tkeep` is set. -/
def payload
    (beat : AxiStreamBeat) : List UInt8 :=
  (List.range tdataBytes).filterMap fun i =>
    if beat.tkeep.toUInt32 &&& (1 : UInt32) <<< UInt32.ofNat i ≠ 0 then
      some (beat.tdata >>> UInt64.ofNat (i * 8)).toUInt8
    else
      none

/-- The memory image of the packed struct. -/
def bytes
    (order : ByteOrder)
    (beat : AxiStreamBeat) : List UInt8 :=
  order.bytes 8 beat.tdata.toNat ++ [beat.tkeep, beat.tlast]

/-- The struct in ten bytes of memory. -/
def ofBytes
    (order : ByteOrder)
    (memory : List UInt8) : AxiStreamBeat where
  tdata := UInt64.ofNat (order.value (memory.take 8))
  tkeep := memory.getD 8 0
  tlast := memory.getD 9 0

@[simp] theorem length_bytes
    (order : ByteOrder)
    (beat : AxiStreamBeat) :
    (beat.bytes order).length = 10 := by
  simp [bytes]

/-- A beat is read back as it was stored. -/
theorem ofBytes_bytes
    (order : ByteOrder)
    (beat : AxiStreamBeat) :
    ofBytes order (beat.bytes order) = beat := by
  obtain ⟨tdata, tkeep, tlast⟩ := beat
  have word :
      UInt64.ofNat (order.value (order.bytes 8 tdata.toNat)) = tdata := by
    have small : tdata.toNat % 256 ^ 8 = tdata.toNat :=
      Nat.mod_eq_of_lt tdata.toNat_lt
    rw [ByteOrder.value_bytes, small, UInt64.ofNat_toNat]
  simp [ofBytes, bytes, word]

/-- A packed byte contributes its bits at its own place. -/
theorem testBit_packFrom
    {i : Nat}
    {chunk : List UInt8}
    (fits : i + chunk.length ≤ 8)
    (tdata : UInt64)
    {position : Nat}
    (inside : position < 64) :
    (packFrom tdata i chunk).toNat.testBit position =
      (tdata.toNat.testBit position ||
        (decide (8 * i ≤ position) &&
          (chunk.getD (position / 8 - i) 0).toNat.testBit
            (position % 8))) := by
  induction chunk generalizing tdata i with
  | nil =>
      simp [packFrom]
  | cons byte rest inductionHypothesis =>
      rw [List.length_cons] at fits
      rw [packFrom, inductionHypothesis (by omega)]
      have shift : (UInt64.ofNat (i * 8)).toNat % 64 = 8 * i := by
        rw [UInt64.toNat_ofNat']
        omega
      rw [UInt64.toNat_or, Nat.testBit_or, UInt64.toNat_shiftLeft, shift,
        Nat.testBit_mod_two_pow, Nat.testBit_shiftLeft]
      simp only [inside, decide_true, Bool.true_and, UInt8.toNat_toUInt64,
        ge_iff_le]
      rw [Bool.or_assoc]
      congr 1
      by_cases below : position < 8 * i
      · have notYet : ¬ 8 * i ≤ position := by omega
        have notLater : ¬ 8 * (i + 1) ≤ position := by omega
        simp [notYet, notLater]
      · have reached : 8 * i ≤ position := by omega
        by_cases own : position < 8 * (i + 1)
        · have notLater : ¬ 8 * (i + 1) ≤ position := by omega
          have index : position / 8 - i = 0 := by omega
          have offset : position - 8 * i = position % 8 := by omega
          simp [reached, notLater, index, offset]
        · have later : 8 * (i + 1) ≤ position := by omega
          have index : position / 8 - i = position / 8 - (i + 1) + 1 := by
            omega
          have clear : byte.toNat.testBit (position - 8 * i) = false := by
            refine Nat.testBit_lt_two_pow
              (lt_of_lt_of_le byte.toNat_lt ?_)
            exact Nat.pow_le_pow_right (by decide) (by omega)
          simp [reached, later, index, clear]

/-- Byte `i` of a packed chunk is byte `i` of the chunk. -/
theorem byte_packFrom
    {chunk : List UInt8}
    (fits : chunk.length ≤ 8)
    {i : Nat}
    (inside : i < 8) :
    (packFrom 0 0 chunk >>> UInt64.ofNat (i * 8)).toUInt8 =
      chunk.getD i 0 := by
  have shift : (UInt64.ofNat (i * 8)).toNat % 64 = 8 * i := by
    rw [UInt64.toNat_ofNat']
    omega
  apply UInt8.toNat_inj.mp
  apply Nat.eq_of_testBit_eq
  intro position
  rw [UInt64.toNat_toUInt8, UInt64.toNat_shiftRight, shift,
    Nat.testBit_mod_two_pow, Nat.testBit_shiftRight]
  by_cases low : position < 8
  · have index : (8 * i + position) / 8 - 0 = i := by omega
    have offset : (8 * i + position) % 8 = position := by omega
    rw [testBit_packFrom (by omega) 0 (by omega), index, offset]
    simp [low]
  · have clear : (chunk.getD i 0).toNat.testBit position = false := by
      refine Nat.testBit_lt_two_pow
        (lt_of_lt_of_le (chunk.getD i 0).toNat_lt ?_)
      exact Nat.pow_le_pow_right (by decide) (by omega)
    rw [clear]
    simp [low]

/-- The mask of a chunk keeps exactly the bytes of the chunk. -/
theorem keep_iff :
    ∀ size < 9, ∀ i < 8,
      ((1 : UInt32) <<< UInt32.ofNat size - 1).toUInt8.toUInt32 &&&
          (1 : UInt32) <<< UInt32.ofNat i ≠ 0 ↔
        i < size := by
  decide

/-- Looking up consecutive positions yields an initial part of a list. -/
theorem filterMap_range_getElem?
    (items : List α)
    (count : Nat) :
    (List.range count).filterMap (fun i => items[i]?) =
      items.take count := by
  induction count with
  | zero =>
      rfl
  | succ count inductionHypothesis =>
      rw [List.range_succ, List.filterMap_append, inductionHypothesis,
        List.take_add_one]
      cases found : items[count]? with
      | none =>
          simp [found]
      | some item =>
          simp [found]

/-- A beat carries its chunk. -/
theorem payload_ofChunk
    {chunk : List UInt8}
    (fits : chunk.length ≤ 8)
    (isLast : Bool) :
    (ofChunk chunk isLast).payload = chunk := by
  have lookedUp :
      ∀ i ∈ List.range tdataBytes,
        (if ((1 : UInt32) <<< UInt32.ofNat chunk.length - 1).toUInt8.toUInt32
              &&& (1 : UInt32) <<< UInt32.ofNat i ≠ 0 then
            some (packFrom 0 0 chunk >>> UInt64.ofNat (i * 8)).toUInt8
          else
            none) = chunk[i]? := by
    intro i member
    have inside : i < 8 := List.mem_range.mp member
    rw [byte_packFrom fits inside]
    simp only [keep_iff chunk.length (by omega) i inside]
    split
    next valid =>
      simp [valid]
    next missing =>
      simpa using missing
  rw [payload, ofChunk, List.filterMap_congr lookedUp,
    filterMap_range_getElem?]
  exact List.take_of_length_le fits

/-- The beats of a packet: full ones, and a last one of what remains. -/
def framing
    (packet : List UInt8) : List AxiStreamBeat :=
  match packet with
  | [] => []
  | first :: rest =>
      ofChunk ((first :: rest).take tdataBytes)
          ((first :: rest).length ≤ tdataBytes) ::
        framing ((first :: rest).drop tdataBytes)
termination_by packet.length
decreasing_by
  simp only [tdataBytes, List.length_drop, List.length_cons]
  omega

@[simp] theorem framing_nil :
    framing [] = [] := by
  rw [framing]

/-- The first beat of a packet and those behind it. -/
theorem framing_cons
    (first : UInt8)
    (rest : List UInt8) :
    framing (first :: rest) =
      ofChunk ((first :: rest).take 8) ((first :: rest).length ≤ 8) ::
        framing ((first :: rest).drop 8) := by
  rw [framing]
  rfl

/-- A packet of at most eight bytes is one beat. -/
theorem framing_of_short
    {packet : List UInt8}
    (present : packet ≠ [])
    (short : packet.length ≤ 8) :
    framing packet = [ofChunk packet true] := by
  obtain ⟨first, rest, rfl⟩ := List.exists_cons_of_ne_nil present
  rw [framing_cons, List.take_of_length_le short,
    List.drop_of_length_le short, framing_nil]
  simp only [short, decide_true]

/-- A longer packet starts with a full beat. -/
theorem framing_of_long
    {packet : List UInt8}
    (long : 8 < packet.length) :
    framing packet =
      ofChunk (packet.take 8) false :: framing (packet.drop 8) := by
  cases packet with
  | nil =>
      simp at long
  | cons first rest =>
      rw [framing_cons]
      simp only [not_le.mpr long, decide_false]

/-- Induction over the beats of a packet with at least one byte. -/
theorem framing_induction
    {motive : (packet : List UInt8) → packet ≠ [] → Prop}
    (short :
      ∀ packet present, packet.length ≤ 8 → motive packet present)
    (long :
      ∀ packet present, 8 < packet.length →
        (rest : packet.drop 8 ≠ []) → motive (packet.drop 8) rest →
          motive packet present)
    (packet : List UInt8)
    (present : packet ≠ []) :
    motive packet present := by
  by_cases fits : packet.length ≤ 8
  · exact short packet present fits
  · have rest : packet.drop 8 ≠ [] := by
      rw [ne_eq, List.drop_eq_nil_iff]
      exact fits
    exact long packet present (by omega) rest
      (framing_induction short long (packet.drop 8) rest)
termination_by packet.length
decreasing_by
  rw [List.length_drop]
  omega

/--
How a packet is framed: all beats but the last are full and not marked, and
the last is marked and keeps a run of bytes from the first on.
-/
def WellFramed
    (beats : List AxiStreamBeat) : Prop :=
  ∃ full last,
    beats = full ++ [last] ∧
      (∀ beat ∈ full, beat.tkeep = 0xFF ∧ beat.tlast = 0) ∧
        last.tlast = 1 ∧
          ∃ size, 1 ≤ size ∧ size ≤ 8 ∧ last.tkeep.toNat = 2 ^ size - 1

theorem toNat_keep :
    ∀ size < 9,
      ((1 : UInt32) <<< UInt32.ofNat size - 1).toUInt8.toNat =
        2 ^ size - 1 := by
  decide

/-- Every packet with a byte is framed so. -/
theorem wellFramed_framing
    {packet : List UInt8}
    (present : packet ≠ []) :
    WellFramed (framing packet) := by
  induction packet, present using framing_induction with
  | short packet present fits =>
      have positive := List.length_pos_iff.mpr present
      refine ⟨[], ofChunk packet true, framing_of_short present fits,
        by simp, rfl, packet.length, positive, fits, ?_⟩
      exact toNat_keep packet.length (by omega)
  | long packet _ long _ inductionHypothesis =>
      obtain ⟨full, last, shape, fullBeats, lastBeat⟩ :=
        inductionHypothesis
      refine ⟨ofChunk (packet.take 8) false :: full, last, ?_, ?_, lastBeat⟩
      · rw [framing_of_long long, shape, List.cons_append]
      · intro beat member
        rcases List.mem_cons.mp member with rfl | inFull
        · have eight : (packet.take 8).length = 8 := by
            rw [List.length_take]
            omega
          simp only [ofChunk, eight]
          decide
        · exact fullBeats beat inFull

end AxiStreamBeat

end TsnGen
