import Mathlib.Data.Nat.Digits.Defs

namespace TsnGen

/-!
# Words in memory

Fixed-width words as the bytes that a host of either byte order keeps them in.
Reading a word back on the host that stored it gives the word; reading it on
the other kind of host gives the word with its bytes reversed.
-/

/-- Which end of a word comes first in memory. -/
inductive ByteOrder where
  | little
  | big
  deriving Repr, DecidableEq

/-- The lowest bytes of a number, least significant first. -/
def littleBytes : Nat → Nat → List UInt8
  | 0, _ => []
  | size + 1, value => UInt8.ofNat value :: littleBytes size (value / 256)

/-- The number spelled by bytes, least significant first. -/
def littleValue
    (bytes : List UInt8) : Nat :=
  Nat.ofDigits 256 (bytes.map UInt8.toNat)

@[simp] theorem length_littleBytes
    (size value : Nat) :
    (littleBytes size value).length = size := by
  induction size generalizing value with
  | zero =>
      rfl
  | succ size inductionHypothesis =>
      rw [littleBytes, List.length_cons, inductionHypothesis]

@[simp] theorem littleValue_nil :
    littleValue [] = 0 :=
  rfl

@[simp] theorem littleValue_cons
    (byte : UInt8)
    (bytes : List UInt8) :
    littleValue (byte :: bytes) = byte.toNat + 256 * littleValue bytes := by
  simp [littleValue, Nat.ofDigits_cons]

/-- Bytes spell the number they were taken from, as far as they reach. -/
theorem littleValue_littleBytes
    (size value : Nat) :
    littleValue (littleBytes size value) = value % 256 ^ size := by
  induction size generalizing value with
  | zero =>
      simp [littleBytes, Nat.mod_one]
  | succ size inductionHypothesis =>
      have lowest : (UInt8.ofNat value).toNat = value % 256 :=
        UInt8.toNat_ofNat'
      rw [littleBytes, littleValue_cons, inductionHypothesis, lowest,
        Nat.pow_succ', Nat.mod_mul]

/-- Bytes are those of the number they spell. -/
theorem littleBytes_littleValue
    (bytes : List UInt8) :
    littleBytes bytes.length (littleValue bytes) = bytes := by
  induction bytes with
  | nil =>
      rfl
  | cons byte rest inductionHypothesis =>
      have small := byte.toNat_lt
      have lowest :
          UInt8.ofNat (byte.toNat + 256 * littleValue rest) = byte := by
        apply UInt8.toNat_inj.mp
        rw [UInt8.toNat_ofNat']
        omega
      have others :
          (byte.toNat + 256 * littleValue rest) / 256 =
            littleValue rest := by
        omega
      rw [List.length_cons, littleBytes, littleValue_cons, lowest, others,
        inductionHypothesis]

/-- Bytes spell a number below the power of their count. -/
theorem littleValue_lt
    (bytes : List UInt8) :
    littleValue bytes < 256 ^ bytes.length := by
  have bound :=
    @Nat.ofDigits_lt_base_pow_length 256 (bytes.map UInt8.toNat)
      (by decide) ?_
  · simpa [littleValue] using bound
  · intro digit member
    obtain ⟨byte, -, rfl⟩ := List.mem_map.mp member
    exact byte.toNat_lt

namespace ByteOrder

/-- The bytes that a host keeps a word of some size in. -/
def bytes
    (order : ByteOrder)
    (size value : Nat) : List UInt8 :=
  match order with
  | little => littleBytes size value
  | big => (littleBytes size value).reverse

/-- The word that a host reads from bytes. -/
def value
    (order : ByteOrder)
    (bytes : List UInt8) : Nat :=
  match order with
  | little => littleValue bytes
  | big => littleValue bytes.reverse

@[simp] theorem length_bytes
    (order : ByteOrder)
    (size value : Nat) :
    (order.bytes size value).length = size := by
  cases order with
  | little =>
      exact length_littleBytes size value
  | big =>
      simp [bytes]

/-- A host reads back what it stored. -/
theorem value_bytes
    (order : ByteOrder)
    (size value : Nat) :
    order.value (order.bytes size value) = value % 256 ^ size := by
  cases order with
  | little =>
      exact littleValue_littleBytes size value
  | big =>
      rw [ByteOrder.value, bytes, List.reverse_reverse,
        littleValue_littleBytes]

/-- A host of the other order reads the bytes in reverse. -/
theorem value_bytes_of_ne
    {reader writer : ByteOrder}
    (differ : reader ≠ writer)
    (size value : Nat) :
    reader.value (writer.bytes size value) =
      littleValue (littleBytes size value).reverse := by
  cases reader with
  | little =>
      cases writer with
      | little =>
          exact absurd rfl differ
      | big =>
          rfl
  | big =>
      cases writer with
      | little =>
          rfl
      | big =>
          exact absurd rfl differ

end ByteOrder

end TsnGen
