import Mathlib.Data.Bool.AllAny
import Mathlib.Tactic.IntervalCases
import TsnGen.Literal

namespace TsnGen

open Numeral

/-!
# Hexadecimal texts

`Session::toHex` prints two lower-case digits a byte.  `Session::fromHex` hands
every two characters to `strtoul`, whose own grammar skips blanks and takes a
sign, so it accepts a pair of one of these and a digit besides the pairs of two
digits.
-/

/-- The characters of a C string, up to the first NUL. -/
def cString
    (text : List Char) : List Char :=
  text.takeWhile fun letter => letter ≠ '\x00'

/--
`strtoul(text, &end, base)`: the value, and how far behind the start `end` is.
A minus sign negates modulo `2^64`, and too large a magnitude saturates.
-/
def strtoul
    (text : List Char)
    (base : Nat) : UInt64 × Nat :=
  match scan base text with
  | none => (0, 0)
  | some literal =>
      if literal.magnitude < 2 ^ 64 then
        let value := UInt64.ofNat literal.magnitude
        (if literal.negative then 0 - value else value, literal.consumed)
      else
        (UInt64.ofNat (2 ^ 64 - 1), literal.consumed)

namespace Session

/-- The digits of the printer. -/
def kHex : List Char :=
  "0123456789abcdef".toList

/-- The two characters of a byte. -/
def hexPair
    (byte : UInt8) : List Char :=
  [kHex.getD (byte >>> 4).toNat '0', kHex.getD (byte &&& 0xF).toNat '0']

/-- Print bytes in hexadecimal. -/
def toHex
    (bytes : List UInt8) : String :=
  String.ofList (bytes.flatMap hexPair)

/-- The loop of the reader over pairs of characters. -/
def fromHexLoop :
    List Char → List UInt8 → Bool × List UInt8
  | first :: second :: rest, out =>
      let parsed := strtoul (cString [first, second]) 16
      if parsed.2 ≠ 2 then
        (false, out)
      else
        fromHexLoop rest (out ++ [parsed.1.toUInt8])
  | _, out => (true, out)

/-- Read hexadecimal text; an odd length leaves `out` as it is. -/
def fromHex
    (hex : String)
    (out : List UInt8) : Bool × List UInt8 :=
  if hex.toList.length % 2 ≠ 0 then
    (false, out)
  else
    fromHexLoop hex.toList []

example : fromHex "0aFf" [] = (true, [10, 255]) := by
  decide

end Session

/-- One of `0` to `9`, `a` to `f` and `A` to `F`. -/
def isHexChar
    (letter : Char) : Bool :=
  ('0' ≤ letter && letter ≤ '9') || ('a' ≤ letter && letter ≤ 'f') ||
    ('A' ≤ letter && letter ≤ 'F')

/-- A blank or a sign. -/
def isPad
    (letter : Char) : Bool :=
  isSpace letter || letter = '+' || letter = '-'

/-- Every hexadecimal digit is one of these. -/
def hexChars : List Char :=
  "0123456789abcdefABCDEF".toList

/-- The range tests compare the numbers of the characters. -/
theorem isHexChar_iff
    (letter : Char) :
    isHexChar letter = true ↔
      (48 ≤ letter.toNat ∧ letter.toNat ≤ 57) ∨
        (97 ≤ letter.toNat ∧ letter.toNat ≤ 102) ∨
          (65 ≤ letter.toNat ∧ letter.toNat ≤ 70) := by
  simp only [isHexChar, Bool.or_eq_true, Bool.and_eq_true,
    decide_eq_true_eq, or_assoc]
  exact Iff.rfl

theorem mem_hexChars
    {letter : Char}
    (digit : isHexChar letter = true) :
    letter ∈ hexChars := by
  have recovered : Char.ofNat letter.toNat ∈ hexChars := by
    rcases (isHexChar_iff letter).mp digit with
      ⟨low, high⟩ | ⟨low, high⟩ | ⟨low, high⟩
    all_goals interval_cases letter.toNat <;> decide
  rwa [Char.ofNat_toNat] at recovered

/-- The digits of base 16 are these characters. -/
theorem isDigit_sixteen
    (letter : Char) :
    isDigit 16 letter = isHexChar letter := by
  have decimal : ('0' ≤ letter ∧ letter ≤ '9') ↔
      48 ≤ letter.toNat ∧ letter.toNat ≤ 57 :=
    Iff.rfl
  have lower : ('a' ≤ letter ∧ letter ≤ 'z') ↔
      97 ≤ letter.toNat ∧ letter.toNat ≤ 122 :=
    Iff.rfl
  have upper : ('A' ≤ letter ∧ letter ≤ 'Z') ↔
      65 ≤ letter.toNat ∧ letter.toNat ≤ 90 :=
    Iff.rfl
  have zero : '0'.toNat = 48 := rfl
  have lowerA : 'a'.toNat = 97 := rfl
  have upperA : 'A'.toNat = 65 := rfl
  apply Bool.eq_iff_iff.mpr
  rw [isHexChar_iff, isDigit, digitValue]
  simp only [decimal, lower, upper, zero, lowerA, upperA]
  split_ifs with isDecimal isLower isUpper
  · simp only [decide_eq_true_eq]
    omega
  · simp only [decide_eq_true_eq]
    omega
  · simp only [decide_eq_true_eq]
    omega
  · simp only [false_iff]
    omega

/-- A digit is neither a blank nor a sign. -/
theorem isPad_of_isHexChar
    {letter : Char}
    (digit : isHexChar letter = true) :
    isPad letter = false := by
  have visible : ∀ letter ∈ hexChars, isPad letter = false :=
    List.all_iff_forall_prop.mp (by decide)
  exact visible letter (mem_hexChars digit)

/-- A conversion never goes on behind its text. -/
theorem strtoul_le
    (text : List Char)
    (base : Nat) :
    (strtoul text base).2 ≤ text.length := by
  unfold strtoul
  split
  next =>
    exact Nat.zero_le _
  next literal scanned =>
    have inside : literal.consumed ≤ text.length := by
      rw [scan_eq] at scanned
      dsimp only at scanned
      split at scanned
      · cases scanned
      · cases scanned
        exact Nat.sub_le _ _
    split
    · exact inside
    · exact inside

/-- Two characters are too few for a prefix with a digit behind it. -/
private theorem stripBase_sixteen
    {text : List Char}
    (short : text.length ≤ 2) :
    stripBase 16 text = (16, text) := by
  unfold stripBase
  split
  next =>
    simp at short
  next =>
    rfl
  next =>
    rfl

/-- A short text is read up to its first character that is no digit. -/
private theorem scan_of_split
    {text digits : List Char}
    {negative : Bool}
    (split : splitSign (text.dropWhile isSpace) = (negative, digits))
    (short : digits.length ≤ 2) :
    scan 16 text =
      if (digits.takeWhile isHexChar).isEmpty then
        none
      else
        some {
          negative := negative
          magnitude := ofDigits 16 (digits.takeWhile isHexChar)
          consumed :=
            text.length -
              (digits.length - (digits.takeWhile isHexChar).length) } := by
  have sameDigits : isDigit 16 = isHexChar := funext isDigit_sixteen
  rw [scan_eq]
  simp only [split, stripBase_sixteen short, sameDigits]

/-- Behind a blank or a sign one digit is read, if it is there. -/
private theorem scan_padded
    {first : Char}
    (pad : isPad first = true)
    (second : Char) :
    (∃ literal, scan 16 [first, second] = some literal ∧
        literal.consumed = 2) ↔
      isHexChar second = true := by
  have behind :
      ∃ negative rest,
        splitSign ([first, second].dropWhile isSpace) = (negative, rest) ∧
          (rest = [second] ∨ rest = [] ∧ isHexChar second = false) := by
    by_cases blank : isSpace first = true
    · by_cases blankSecond : isSpace second = true
      · have notDigit : isHexChar second = false := by
          by_contra digit
          have noPad := isPad_of_isHexChar (Bool.not_eq_false _ ▸ digit)
          simp [isPad, blankSecond] at noPad
        exact ⟨false, [], by simp [blank, blankSecond, splitSign],
          Or.inr ⟨rfl, notDigit⟩⟩
      · by_cases sign : second = '-' ∨ second = '+'
        · rcases sign with rfl | rfl
          · exact ⟨true, [], by simp [blank, blankSecond, splitSign],
              Or.inr ⟨rfl, rfl⟩⟩
          · exact ⟨false, [], by simp [blank, blankSecond, splitSign],
              Or.inr ⟨rfl, rfl⟩⟩
        · exact ⟨false, [second],
            by simp [blank, blankSecond, splitSign_eq_self sign],
            Or.inl rfl⟩
    · have sign : first = '+' ∨ first = '-' := by
        simpa [isPad, blank] using pad
      rcases sign with rfl | rfl
      · exact ⟨false, [second], rfl, Or.inl rfl⟩
      · exact ⟨true, [second], rfl, Or.inl rfl⟩
  obtain ⟨negative, rest, split, rfl | ⟨rfl, notDigit⟩⟩ := behind
  · rw [scan_of_split split (by simp)]
    by_cases digit : isHexChar second = true
    · simp [digit]
    · simp [digit]
  · rw [scan_of_split split (by simp)]
    simp [notDigit]

/-- Two characters of which the first is no pad are read as digits. -/
private theorem scan_unpadded
    {first : Char}
    (noPad : isPad first = false)
    (second : Char) :
    scan 16 [first, second] =
      if isHexChar first then
        if isHexChar second then
          some {
            negative := false
            magnitude := ofDigits 16 [first, second]
            consumed := 2 }
        else
          some {
            negative := false
            magnitude := ofDigits 16 [first]
            consumed := 1 }
      else
        none := by
  simp only [isPad, Bool.or_eq_false_iff, decide_eq_false_iff_not]
    at noPad
  obtain ⟨⟨visible, noPlus⟩, noMinus⟩ := noPad
  have unsigned : ¬ (first = '-' ∨ first = '+') := by
    rintro (minus | plus)
    · exact noMinus minus
    · exact noPlus plus
  have split :
      splitSign ([first, second].dropWhile isSpace) =
        (false, [first, second]) := by
    simp [visible, splitSign_eq_self unsigned]
  rw [scan_of_split split (by simp)]
  by_cases digit : isHexChar first = true
  · by_cases later : isHexChar second = true
    · simp [digit, later]
    · simp [digit, later]
  · simp [digit]

/-- The conversion reads all of a pair: a digit behind a digit or a pad. -/
theorem strtoul_pair_iff
    (first second : Char) :
    (strtoul (cString [first, second]) 16).2 = 2 ↔
      isHexChar second = true ∧
        (isHexChar first = true ∨ isPad first = true) := by
  have fromScan (text : List Char) :
      (strtoul text 16).2 = 2 ↔
        ∃ literal, scan 16 text = some literal ∧ literal.consumed = 2 := by
    unfold strtoul
    cases scan 16 text with
    | none =>
        simp
    | some literal =>
        by_cases bounded : literal.magnitude < 2 ^ 64
        · simp only [bounded, if_true, Option.some.injEq, exists_eq_left']
        · simp only [bounded, if_false, Option.some.injEq, exists_eq_left']
  by_cases ended : first = '\x00' ∨ second = '\x00'
  · have shorter : (cString [first, second]).length ≤ 1 := by
      rcases ended with rfl | rfl
      · simp [cString]
      · by_cases atOnce : first = '\x00'
        · simp [cString, atOnce]
        · simp [cString, atOnce]
    have tooShort := strtoul_le (cString [first, second]) 16
    have unread : (strtoul (cString [first, second]) 16).2 ≠ 2 := by
      omega
    refine iff_of_false unread ?_
    rintro ⟨digit, front⟩
    rcases ended with rfl | rfl
    · rcases front with isDigit | pad
      · cases isDigit
      · cases pad
    · cases digit
  · obtain ⟨firstGoesOn, secondGoesOn⟩ := not_or.mp ended
    have whole : cString [first, second] = [first, second] := by
      simp [cString, firstGoesOn, secondGoesOn]
    rw [whole, fromScan]
    by_cases pad : isPad first = true
    · rw [scan_padded pad]
      simp [pad]
    · rw [scan_unpadded (by simpa using pad)]
      by_cases digit : isHexChar first = true
      · by_cases later : isHexChar second = true
        · simp [digit, later]
        · simp [digit, later]
      · simp [digit, pad]

/-- The value of a hexadecimal digit, and how the printer writes it. -/
theorem exists_digit_of_isHexChar
    {letter : Char}
    (digit : isHexChar letter = true) :
    ∃ value < 16,
      digitValue letter = some value ∧
        Session.kHex.getD value '0' = letter.toLower := by
  have table :
      ∀ letter ∈ hexChars, ∃ value < 16,
        digitValue letter = some value ∧
          Session.kHex.getD value '0' = letter.toLower :=
    List.all_iff_forall_prop.mp (by decide)
  exact table letter (mem_hexChars digit)

/-- A pair of digits is read as the byte that is printed as the pair. -/
theorem hexPair_strtoul
    {first second : Char}
    (firstDigit : isHexChar first = true)
    (secondDigit : isHexChar second = true) :
    Session.hexPair
        (strtoul (cString [first, second]) 16).1.toUInt8 =
      [first.toLower, second.toLower] := by
  obtain ⟨high, highSmall, isHigh, highPrinted⟩ :=
    exists_digit_of_isHexChar firstDigit
  obtain ⟨low, lowSmall, isLow, lowPrinted⟩ :=
    exists_digit_of_isHexChar secondDigit
  have firstGoesOn : first ≠ '\x00' := by
    rintro rfl
    cases firstDigit
  have secondGoesOn : second ≠ '\x00' := by
    rintro rfl
    cases secondDigit
  have whole : cString [first, second] = [first, second] := by
    simp [cString, firstGoesOn, secondGoesOn]
  have magnitude : ofDigits 16 [first, second] = 16 * high + low := by
    simp [ofDigits, isHigh, isLow, Nat.mul_comm]
  have bounded : 16 * high + low < 2 ^ 64 := by
    omega
  have read :
      (strtoul (cString [first, second]) 16).1 =
        UInt64.ofNat (16 * high + low) := by
    simp only [whole, strtoul,
      scan_unpadded (isPad_of_isHexChar firstDigit), firstDigit,
      secondDigit, magnitude, bounded, if_true, Bool.false_eq_true,
      if_false]
  have byte :
      (UInt64.ofNat (16 * high + low)).toUInt8.toNat = 16 * high + low := by
    simp
    omega
  rw [read, Session.hexPair]
  have front :
      ((UInt64.ofNat (16 * high + low)).toUInt8 >>> 4).toNat = high := by
    rw [UInt8.toNat_shiftRight, byte]
    simp [Nat.shiftRight_eq_div_pow]
    omega
  have back :
      ((UInt64.ofNat (16 * high + low)).toUInt8 &&& 0xF).toNat = low := by
    rw [UInt8.toNat_and, byte]
    have masked :
        (16 * high + low) &&& 15 = (16 * high + low) % 16 :=
      Nat.and_two_pow_sub_one_eq_mod (16 * high + low) 4
    change (16 * high + low) &&& 15 = low
    omega
  rw [front, back, highPrinted, lowPrinted]

/-- The pairs that the reader takes a text apart into. -/
def charPairs :
    List Char → List (Char × Char)
  | first :: second :: rest => (first, second) :: charPairs rest
  | _ => []

/-- Every character of a text of even length is in one of its pairs. -/
theorem forall_charPairs_iff
    {property : Char → Prop}
    {text : List Char}
    (even : text.length % 2 = 0) :
    (∀ pair ∈ charPairs text, property pair.1 ∧ property pair.2) ↔
      ∀ letter ∈ text, property letter := by
  induction text using charPairs.induct with
  | case1 first second rest inductionHypothesis =>
      have restEven : rest.length % 2 = 0 := by
        simp only [List.length_cons] at even
        omega
      simp only [charPairs, List.forall_mem_cons,
        inductionHypothesis restEven, and_assoc]
  | case2 text noPair =>
      cases text with
      | nil =>
          simp [charPairs]
      | cons first rest =>
          cases rest with
          | nil =>
              simp at even
          | cons second later =>
              exact absurd rfl (noPair first second later)

namespace Session

/-- The printed digits tell a byte. -/
theorem hexPair_injective :
    Function.Injective hexPair := by
  have table :
      ∀ first < 16, ∀ second < 16,
        kHex.getD first '0' = kHex.getD second '0' → first = second := by
    decide
  have high (byte : UInt8) : (byte >>> 4).toNat = byte.toNat / 16 := by
    rw [UInt8.toNat_shiftRight]
    exact Nat.shiftRight_eq_div_pow byte.toNat 4
  have low (byte : UInt8) : (byte &&& 0xF).toNat = byte.toNat % 16 := by
    rw [UInt8.toNat_and]
    exact Nat.and_two_pow_sub_one_eq_mod byte.toNat 4
  intro first second same
  simp only [hexPair, high, low, List.cons.injEq, and_true] at same
  have firstSmall := first.toNat_lt
  have secondSmall := second.toNat_lt
  have sameHigh := table _ (by omega) _ (by omega) same.1
  have sameLow := table _ (by omega) _ (by omega) same.2
  apply UInt8.toNat_inj.mp
  omega

/-- The printer writes lower-case digits only. -/
theorem exists_digits_of_hexPair
    (byte : UInt8) :
    ∃ first second,
      hexPair byte = [first, second] ∧
        (isHexChar first = true ∧ first.toLower = first) ∧
          isHexChar second = true ∧ second.toLower = second := by
  have table :
      ∀ value < 16,
        isHexChar (kHex.getD value '0') = true ∧
          (kHex.getD value '0').toLower = kHex.getD value '0' := by
    decide
  have high : (byte >>> 4).toNat < 16 := by
    have small := byte.toNat_lt
    have shifted : (byte >>> 4).toNat = byte.toNat / 2 ^ 4 := by
      rw [UInt8.toNat_shiftRight]
      exact Nat.shiftRight_eq_div_pow byte.toNat 4
    omega
  have low : (byte &&& 0xF).toNat < 16 := by
    rw [UInt8.toNat_and]
    exact Nat.lt_of_le_of_lt Nat.and_le_right (by decide)
  exact ⟨_, _, rfl, table _ high, table _ low⟩

/-- The loop succeeds if every pair is a digit behind a digit or a pad. -/
theorem fromHexLoop_accepts_iff
    (text : List Char)
    (out : List UInt8) :
    (fromHexLoop text out).1 = true ↔
      ∀ pair ∈ charPairs text,
        isHexChar pair.2 = true ∧
          (isHexChar pair.1 = true ∨ isPad pair.1 = true) := by
  induction text using charPairs.induct generalizing out with
  | case1 first second rest inductionHypothesis =>
      have readable := strtoul_pair_iff first second
      by_cases whole : (strtoul (cString [first, second]) 16).2 = 2
      · simp only [fromHexLoop, whole, ne_eq, not_true_eq_false, if_false,
          charPairs, List.forall_mem_cons, inductionHypothesis]
        rw [and_iff_right (readable.mp whole)]
      · simp only [fromHexLoop, whole, ne_eq, not_false_eq_true, if_true,
          charPairs, List.forall_mem_cons, Bool.false_eq_true, false_iff]
        rintro ⟨isReadable, -⟩
        exact whole (readable.mpr isReadable)
  | case2 text noPair =>
      simp [fromHexLoop, charPairs]

/-- What the loop reads off digits is printed as these digits, lower-cased. -/
theorem fromHexLoop_prints
    {text : List Char}
    (even : text.length % 2 = 0)
    (digits : ∀ letter ∈ text, isHexChar letter = true)
    (out : List UInt8) :
    (fromHexLoop text out).2.flatMap hexPair =
      out.flatMap hexPair ++ text.map Char.toLower := by
  induction text using charPairs.induct generalizing out with
  | case1 first second rest inductionHypothesis =>
      have restEven : rest.length % 2 = 0 := by
        simp only [List.length_cons] at even
        omega
      simp only [List.forall_mem_cons] at digits
      obtain ⟨firstDigit, secondDigit, restDigits⟩ := digits
      have whole :=
        (strtoul_pair_iff first second).mpr
          ⟨secondDigit, Or.inl firstDigit⟩
      have printed := hexPair_strtoul firstDigit secondDigit
      simp [fromHexLoop, whole, inductionHypothesis restEven restDigits,
        printed]
  | case2 text noPair =>
      cases text with
      | nil =>
          simp [fromHexLoop]
      | cons first rest =>
          cases rest with
          | nil =>
              simp at even
          | cons second later =>
              exact absurd rfl (noPair first second later)

/-- Printed bytes are read back. -/
theorem fromHexLoop_printed
    (bytes out : List UInt8) :
    fromHexLoop (bytes.flatMap hexPair) out = (true, out ++ bytes) := by
  induction bytes generalizing out with
  | nil =>
      simp [fromHexLoop]
  | cons byte rest inductionHypothesis =>
      obtain ⟨first, second, pair, ⟨firstDigit, firstLower⟩, secondDigit,
        secondLower⟩ := exists_digits_of_hexPair byte
      have whole :=
        (strtoul_pair_iff first second).mpr
          ⟨secondDigit, Or.inl firstDigit⟩
      have read :
          (strtoul (cString [first, second]) 16).1.toUInt8 = byte := by
        apply hexPair_injective
        rw [hexPair_strtoul firstDigit secondDigit, firstLower,
          secondLower, pair]
      simp [pair, fromHexLoop, whole, read, inductionHypothesis]

/-- The reader takes exactly hexadecimal text, and takes it for its bytes. -/
structure ReadsExactlyHex
    (hex : String)
    (out : List UInt8) : Prop where
  accepts :
    (fromHex hex out).1 = true ↔
      hex.toList.length % 2 = 0 ∧
        ∀ letter ∈ hex.toList, isHexChar letter = true
  prints :
    (fromHex hex out).1 = true →
      (toHex (fromHex hex out).2).toList = hex.toList.map Char.toLower

/--
A text of pairs, each a digit behind a digit or behind a blank or a sign, with
at least one of the latter.
-/
structure PaddedPairs
    (hex : String) : Prop where
  even : hex.toList.length % 2 = 0
  readable :
    ∀ pair ∈ charPairs hex.toList,
      isHexChar pair.2 = true ∧
        (isHexChar pair.1 = true ∨ isPad pair.1 = true)
  padded : ∃ pair ∈ charPairs hex.toList, isPad pair.1 = true

/-- The reader accepts texts of readable pairs. -/
theorem fromHex_accepts_iff
    (hex : String)
    (out : List UInt8) :
    (fromHex hex out).1 = true ↔
      hex.toList.length % 2 = 0 ∧
        ∀ pair ∈ charPairs hex.toList,
          isHexChar pair.2 = true ∧
            (isHexChar pair.1 = true ∨ isPad pair.1 = true) := by
  by_cases even : hex.toList.length % 2 = 0
  · simp only [fromHex, even, ne_eq, not_true_eq_false, if_false, true_and,
      fromHexLoop_accepts_iff]
  · simp [fromHex, even]

/--
The reader accepts exactly hexadecimal text and recovers it lower-cased, but for
texts of readable pairs with a blank or a sign in one of them.  Printed bytes
are always read back.
-/
theorem hex_read_exactly_iff
    (hex : String)
    (out : List UInt8) :
    (ReadsExactlyHex hex out ↔ ¬ PaddedPairs hex) ∧
      ∀ bytes, fromHex (toHex bytes) out = (true, bytes) := by
  constructor
  · constructor
    · rintro reads ⟨even, readable, pair, member, pad⟩
      have accepted :=
        (fromHex_accepts_iff hex out).mpr ⟨even, readable⟩
      have digits :=
        (forall_charPairs_iff even).mpr (reads.accepts.mp accepted).2
      have noPad := isPad_of_isHexChar (digits pair member).1
      rw [noPad] at pad
      cases pad
    · intro unpadded
      have accepts :
          (fromHex hex out).1 = true ↔
            hex.toList.length % 2 = 0 ∧
              ∀ letter ∈ hex.toList, isHexChar letter = true := by
        rw [fromHex_accepts_iff]
        refine and_congr_right fun even => ?_
        rw [← forall_charPairs_iff even]
        constructor
        · intro readable pair member
          obtain ⟨second, first⟩ := readable pair member
          refine ⟨first.resolve_right ?_, second⟩
          intro pad
          exact unpadded ⟨even, readable, pair, member, pad⟩
        · intro digits pair member
          obtain ⟨first, second⟩ := digits pair member
          exact ⟨second, Or.inl first⟩
      refine ⟨accepts, ?_⟩
      intro accepted
      obtain ⟨even, digits⟩ := accepts.mp accepted
      have printed := fromHexLoop_prints even digits []
      simpa [fromHex, even, toHex] using printed
  · intro bytes
    have even : (toHex bytes).toList.length % 2 = 0 := by
      have pairs :
          ∀ bytes : List UInt8,
            (bytes.flatMap hexPair).length = 2 * bytes.length := by
        intro bytes
        induction bytes with
        | nil =>
            rfl
        | cons byte rest inductionHypothesis =>
            simp only [List.flatMap_cons, List.length_append,
              inductionHypothesis, hexPair, List.length_cons,
              List.length_nil]
            omega
      simp [toHex, pairs]
    simp only [fromHex, even, ne_eq, not_true_eq_false, if_false]
    simp [toHex, fromHexLoop_printed]

/-- A plus sign and a digit are taken for a byte. -/
theorem signed_pair_accepted :
    ¬ ∀ (hex : String) (out : List UInt8), ReadsExactlyHex hex out := by
  intro always
  have accepted : (fromHex "+5" []).1 = true := by
    decide
  have digits := ((always "+5" []).accepts.mp accepted).2
  exact absurd (digits '+' (by decide)) (by decide)

end Session

end TsnGen
