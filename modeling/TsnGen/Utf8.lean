import Mathlib.Data.List.Basic

namespace TsnGen.Utf8

/-!
# UTF-8 in byte strings

A byte string is a list of characters, each of which stands for one byte.  It is
UTF-8 if it is the encoding of a list of scalar values.  Bytes below `0x80` only
stand for themselves, so a text may be cut behind and before such a byte.
-/

/-- The bytes of a scalar value. -/
def encode
    (scalar : Char) : List Char :=
  (String.utf8EncodeChar scalar).map fun byte => Char.ofNat byte.toNat

/-- The byte string is the encoding of a list of scalar values. -/
def IsUtf8
    (text : List Char) : Prop :=
  ∃ scalars : List Char, text = scalars.flatMap encode

/-- A byte that is a scalar value of its own. -/
def IsAscii
    (letter : Char) : Prop :=
  letter.toNat < 0x80

instance
    (letter : Char) :
    Decidable (IsAscii letter) :=
  inferInstanceAs (Decidable (letter.toNat < 0x80))

/-- Every byte is a scalar value of its own. -/
def AsciiText
    (text : List Char) : Prop :=
  ∀ letter ∈ text, IsAscii letter

instance
    (text : List Char) :
    Decidable (AsciiText text) :=
  List.decidableBAll _ text

/-- A scalar value below `0x80` is encoded as itself. -/
theorem encode_of_isAscii
    {scalar : Char}
    (ascii : IsAscii scalar) :
    encode scalar = [scalar] := by
  have bounded : scalar.val.toNat ≤ 0x7f :=
    Nat.le_of_lt_succ ascii
  have byte : (UInt8.ofNat scalar.val.toNat).toNat = scalar.toNat := by
    rw [UInt8.toNat_ofNat']
    exact Nat.mod_eq_of_lt (by
      change scalar.toNat < 256
      exact Nat.lt_trans ascii (by decide))
  simp only [encode, String.utf8EncodeChar, bounded, if_true, List.map_cons,
    List.map_nil, byte, Char.ofNat_toNat]

/-- Every byte of a longer encoding is at least `0x80`. -/
theorem not_isAscii_of_mem_encode
    {scalar byte : Char}
    (wide : ¬ IsAscii scalar)
    (member : byte ∈ encode scalar) :
    ¬ IsAscii byte := by
  have above : ¬ scalar.val.toNat ≤ 0x7f := by
    intro small
    exact wide (Nat.lt_succ_of_le small)
  have marked :
      ∀ code ∈ String.utf8EncodeChar scalar, 0x80 ≤ code.toNat := by
    intro code isCode
    simp only [String.utf8EncodeChar, above, if_false] at isCode
    split at isCode
    · simp only [List.mem_cons, List.not_mem_nil, or_false] at isCode
      rcases isCode with rfl | rfl
      · simp only [UInt8.toNat_ofNat']
        omega
      · simp only [UInt8.toNat_ofNat']
        omega
    · split at isCode
      · simp only [List.mem_cons, List.not_mem_nil, or_false] at isCode
        rcases isCode with rfl | rfl | rfl
        all_goals simp only [UInt8.toNat_ofNat']
        all_goals omega
      · simp only [List.mem_cons, List.not_mem_nil, or_false] at isCode
        rcases isCode with rfl | rfl | rfl | rfl
        all_goals simp only [UInt8.toNat_ofNat']
        all_goals omega
  obtain ⟨code, isCode, rfl⟩ := List.mem_map.mp member
  have isByte := code.toNat_lt
  have kept : (Char.ofNat code.toNat).toNat = code.toNat := by
    rw [Char.ofNat, dif_pos (Or.inl (by omega))]
    rfl
  intro ascii
  have small : code.toNat < 0x80 := by
    rw [← kept]
    exact ascii
  exact absurd (marked code isCode) (by omega)

theorem isUtf8_nil : IsUtf8 [] :=
  ⟨[], rfl⟩

/-- Encodings are joined to an encoding. -/
theorem isUtf8_append
    {front back : List Char}
    (frontValid : IsUtf8 front)
    (backValid : IsUtf8 back) :
    IsUtf8 (front ++ back) := by
  obtain ⟨frontScalars, rfl⟩ := frontValid
  obtain ⟨backScalars, rfl⟩ := backValid
  exact ⟨frontScalars ++ backScalars, List.flatMap_append.symm⟩

/-- A text may be cut at a byte below `0x80`. -/
theorem isUtf8_append_cons_iff
    {front back : List Char}
    {letter : Char}
    (ascii : IsAscii letter) :
    IsUtf8 (front ++ letter :: back) ↔ IsUtf8 front ∧ IsUtf8 back := by
  constructor
  · rintro ⟨scalars, encoded⟩
    induction scalars generalizing front with
    | nil =>
        simp at encoded
    | cons scalar rest inductionHypothesis =>
        rw [List.flatMap_cons, List.append_eq_append_iff] at encoded
        rcases encoded with ⟨behind, isEncode, isBack⟩ |
          ⟨behind, isFront, isRest⟩
        · cases behind with
          | nil =>
              rw [List.append_nil] at isEncode
              have atStart :=
                @inductionHypothesis [] isBack
              exact ⟨⟨[scalar], by simp [isEncode]⟩, atStart.2⟩
          | cons first later =>
              rw [List.cons_append, List.cons.injEq] at isBack
              obtain ⟨rfl, isBack⟩ := isBack
              have narrow : IsAscii scalar := by
                by_contra wide
                exact not_isAscii_of_mem_encode wide
                  (by simp [isEncode]) ascii
              rw [encode_of_isAscii narrow,
                List.singleton_eq_append_iff] at isEncode
              rcases isEncode with ⟨rfl, same⟩ | ⟨-, absent⟩
              · obtain ⟨-, rfl⟩ := List.cons.inj same
                exact ⟨isUtf8_nil, rest, isBack⟩
              · cases absent
        · obtain ⟨behindValid, backValid⟩ :=
            inductionHypothesis isRest.symm
          rw [isFront]
          exact ⟨isUtf8_append ⟨[scalar], by simp⟩ behindValid, backValid⟩
  · rintro ⟨frontValid, backValid⟩
    have single : IsUtf8 [letter] :=
      ⟨[letter], by simp [encode_of_isAscii ascii]⟩
    have joined := isUtf8_append frontValid (isUtf8_append single backValid)
    exact joined

/-- A byte below `0x80` in front does not matter. -/
theorem isUtf8_cons_iff
    {back : List Char}
    {letter : Char}
    (ascii : IsAscii letter) :
    IsUtf8 (letter :: back) ↔ IsUtf8 back := by
  have cut := @isUtf8_append_cons_iff [] back letter ascii
  rw [List.nil_append] at cut
  rw [cut]
  exact and_iff_right isUtf8_nil

/-- A text of bytes below `0x80` is UTF-8. -/
theorem isUtf8_of_asciiText
    {text : List Char}
    (ascii : AsciiText text) :
    IsUtf8 text := by
  induction text with
  | nil =>
      exact isUtf8_nil
  | cons letter rest inductionHypothesis =>
      rw [AsciiText, List.forall_mem_cons] at ascii
      exact (isUtf8_cons_iff ascii.1).mpr (inductionHypothesis ascii.2)

end TsnGen.Utf8
