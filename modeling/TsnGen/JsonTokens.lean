import TsnGen.Json

namespace TsnGen.Json

/-!
# Strings and numbers of JSON texts

What the reader makes of a string that is copied between quotes without an
escape: it is read back if and only if nothing in it has a meaning of its own.
An escape is never longer than what it is written with, so a string that is read
as itself has none.
-/

section Strings

/-- A character that stands for itself in a string. -/
structure IsPlain
    (letter : Char) : Prop where
  noQuote : letter ≠ '"'
  noBackslash : letter ≠ '\\'
  noControl : isControl letter = false

theorem isPlain_iff
    (letter : Char) :
    IsPlain letter ↔
      letter ≠ '"' ∧ letter ≠ '\\' ∧ isControl letter = false :=
  ⟨fun plain => ⟨plain.noQuote, plain.noBackslash, plain.noControl⟩,
    fun plain => ⟨plain.1, plain.2.1, plain.2.2⟩⟩

instance
    (letter : Char) :
    Decidable (IsPlain letter) :=
  decidable_of_iff _ (isPlain_iff letter).symm

/-- Every character stands for itself. -/
def PlainText
    (text : List Char) : Prop :=
  ∀ letter ∈ text, IsPlain letter

instance
    (text : List Char) :
    Decidable (PlainText text) :=
  List.decidableBAll _ text

/-- A string between quotes, without any escape. -/
def quoted
    (text : List Char) : List Char :=
  '"' :: (text ++ ['"'])

/-- The encoding of a scalar value has at most four bytes. -/
private theorem length_encode_le
    (scalar : Char) :
    (Utf8.encode scalar).length ≤ 4 := by
  rw [Utf8.encode, List.length_map, String.length_utf8EncodeChar]
  exact Char.utf8Size_le_four scalar

/-- The quote is no hexadecimal digit. -/
private theorem ne_quote_of_hexDigit
    {letter : Char}
    {value : Nat}
    (digit : hexDigit? letter = some value) :
    letter ≠ '"' := by
  rintro rfl
  cases digit

/-- A code unit is written with four characters, none of which is a quote. -/
private theorem readUnit_spec
    {text rest : List Char}
    {unit : Nat}
    (read : readUnit text = some (unit, rest)) :
    ∃ used, text = used ++ rest ∧ used.length = 4 ∧ '"' ∉ used := by
  unfold readUnit at read
  split at read
  · next first second third fourth later =>
      simp only [Option.bind_eq_bind, Option.bind_eq_some_iff,
        Option.some.injEq, Prod.mk.injEq] at read
      obtain ⟨_, isFirst, _, isSecond, _, isThird, _, isFourth, -, rfl⟩ :=
        read
      refine ⟨[first, second, third, fourth], rfl, rfl, ?_⟩
      simp [(ne_quote_of_hexDigit isFirst).symm,
        (ne_quote_of_hexDigit isSecond).symm,
        (ne_quote_of_hexDigit isThird).symm,
        (ne_quote_of_hexDigit isFourth).symm]
  · cases read

private theorem readLowUnit_spec
    {high : Nat}
    {text meant rest : List Char}
    (read : readLowUnit high text = some (meant, rest)) :
    ∃ used, text = used ++ rest ∧ meant.length ≤ used.length ∧
      '"' ∉ used := by
  unfold readLowUnit at read
  split at read
  · next later =>
      simp only [Option.bind_eq_bind, Option.bind_eq_some_iff] at read
      obtain ⟨⟨low, behind⟩, isLow, decoded⟩ := read
      obtain ⟨used, rfl, four, noQuote⟩ := readUnit_spec isLow
      dsimp only at decoded
      split at decoded
      · simp only [Option.some.injEq, Prod.mk.injEq] at decoded
        obtain ⟨rfl, rfl⟩ := decoded
        refine ⟨'\\' :: 'u' :: used, rfl, ?_, by simp [noQuote]⟩
        apply Nat.le_trans (length_encode_le _)
        simp only [List.length_cons, four]
        decide
      · cases decoded
  · cases read

private theorem readScalar_spec
    {text meant rest : List Char}
    (read : readScalar text = some (meant, rest)) :
    ∃ used, text = used ++ rest ∧ meant.length ≤ used.length ∧
      '"' ∉ used := by
  simp only [readScalar, Option.bind_eq_bind, Option.bind_eq_some_iff]
    at read
  obtain ⟨⟨unit, behind⟩, isUnit, decoded⟩ := read
  obtain ⟨used, rfl, four, noQuote⟩ := readUnit_spec isUnit
  dsimp only at decoded
  split at decoded
  · simp only [Option.some.injEq, Prod.mk.injEq] at decoded
    obtain ⟨rfl, rfl⟩ := decoded
    refine ⟨used, rfl, ?_, noQuote⟩
    rw [four]
    exact length_encode_le _
  · split at decoded
    · obtain ⟨more, rfl, shorter, noMore⟩ := readLowUnit_spec decoded
      refine ⟨used ++ more, by simp, ?_, by simp [noQuote, noMore]⟩
      rw [List.length_append]
      exact Nat.le_trans shorter (Nat.le_add_left _ _)
    · cases decoded

/-- An escape is never longer than what it is written with. -/
theorem readEscape_spec
    {text meant rest : List Char}
    (read : readEscape text = some (meant, rest)) :
    ∃ used, text = used ++ rest ∧ meant.length ≤ used.length ∧
      ('"' ∈ used → used = ['"'] ∧ meant = ['"']) := by
  cases text with
  | nil =>
      cases read
  | cons letter later =>
      rw [readEscape] at read
      split at read
      next isScalar =>
        obtain ⟨used, rfl, shorter, noQuote⟩ := readScalar_spec read
        refine ⟨letter :: used, rfl, Nat.le_succ_of_le shorter, ?_⟩
        rw [isScalar]
        intro quote
        rcases List.mem_cons.mp quote with same | later
        · cases same
        · exact absurd later noQuote
      next =>
        simp only [Option.map_eq_some_iff, Prod.mk.injEq] at read
        obtain ⟨meantLetter, isMeant, rfl, rfl⟩ := read
        refine ⟨[letter], rfl, Nat.le_refl 1, ?_⟩
        intro quote
        obtain rfl := List.mem_singleton.mp quote
        cases isMeant
        exact ⟨rfl, rfl⟩

/-- An escape is not read as the text that it is written with. -/
private theorem readChars_escape_ne
    {fuel : Nat}
    {first text rest behind : List Char}
    (noQuote : '"' ∉ first)
    (later :
      ∀ {first text : List Char}, '"' ∉ first →
        readChars fuel (text ++ '"' :: rest) =
            some (first ++ text, behind) →
          first = [] ∧ PlainText text ∧ behind = rest) :
    (do
      let (meant, rest) ← readEscape (text ++ '"' :: rest)
      let (letters, rest) ← readChars fuel rest
      some (meant ++ letters, rest)) ≠
        some (first ++ '\\' :: text, behind) := by
  intro read
  simp only [Option.bind_eq_bind, Option.bind_eq_some_iff,
    Option.some.injEq, Prod.mk.injEq] at read
  obtain ⟨⟨meant, after⟩, escape, ⟨letters, _⟩, isRead, joined, rfl⟩ := read
  dsimp only at isRead joined later
  obtain ⟨used, isUsed, shorter, onlyQuote⟩ := readEscape_spec escape
  have unquoted : '"' ∉ used := by
    intro quote
    obtain ⟨-, rfl⟩ := onlyQuote quote
    cases first with
    | nil =>
        simp at joined
    | cons early _ =>
        obtain ⟨rfl, -⟩ := List.cons.inj joined
        simp at noQuote
  have inText : ∃ unread, text = used ++ unread ∧
      after = unread ++ '"' :: rest := by
    rcases List.append_eq_append_iff.mp isUsed with
      ⟨unread, isUsed, isAfter⟩ | ⟨unread, isText, isAfter⟩
    · cases unread with
      | nil =>
          exact ⟨[], by simpa using isUsed.symm, by simpa using isAfter.symm⟩
      | cons quote _ =>
          obtain ⟨rfl, -⟩ := List.cons.inj isAfter
          simp [isUsed] at unquoted
    · exact ⟨unread, isText, isAfter⟩
  obtain ⟨unread, rfl, rfl⟩ := inText
  rw [← List.cons_append, ← List.append_assoc] at joined
  rcases List.append_eq_append_iff.mp joined with
    ⟨lag, isLag, isLetters⟩ | ⟨more, tooLong, -⟩
  · have noLagQuote : '"' ∉ lag := by
      intro quote
      have inFront : '"' ∈ first ++ '\\' :: used := by
        rw [isLag]
        exact List.mem_append_right _ quote
      simp [noQuote, unquoted] at inFront
    rw [isLetters] at isRead
    obtain ⟨rfl, -, -⟩ := later noLagQuote isRead
    have sameLength := congrArg List.length isLag
    simp at sameLength
    omega
  · have sameLength := congrArg List.length tooLong
    simp at sameLength
    omega

/--
What is read up to a quote is the text in front of it, with something else
first: then there is nothing first, and the text is plain.
-/
private theorem plain_of_readChars_append
    {fuel : Nat}
    {first text rest behind : List Char}
    (noQuote : '"' ∉ first)
    (read :
      readChars fuel (text ++ '"' :: rest) =
        some (first ++ text, behind)) :
    first = [] ∧ PlainText text ∧ behind = rest := by
  induction fuel generalizing first text with
  | zero =>
      cases read
  | succ fuel inductionHypothesis =>
      cases text with
      | nil =>
          simp only [List.nil_append, readChars, if_true, List.append_nil,
            Option.some.injEq, Prod.mk.injEq] at read
          obtain ⟨isFirst, isBehind⟩ := read
          exact ⟨isFirst.symm, by simp [PlainText], isBehind.symm⟩
      | cons letter text =>
          rw [List.cons_append, readChars] at read
          split at read
          next isQuote =>
            simp at read
          next notQuote =>
            split at read
            next isEscape =>
              subst isEscape
              exact absurd read
                (readChars_escape_ne noQuote inductionHypothesis)
            next notEscape =>
              split at read
              · cases read
              next visible =>
                simp only [Option.bind_eq_bind, Option.bind_eq_some_iff,
                  Option.some.injEq, Prod.mk.injEq] at read
                obtain ⟨⟨letters, after⟩, isRead, joined, rfl⟩ := read
                cases first with
                | nil =>
                    obtain ⟨-, rfl⟩ := List.cons.inj joined
                    obtain ⟨-, plain, isRest⟩ :=
                      @inductionHypothesis [] letters (by simp) isRead
                    refine ⟨rfl, ?_, isRest⟩
                    exact List.forall_mem_cons.mpr
                      ⟨⟨notQuote, notEscape, by simpa using visible⟩, plain⟩
                | cons early later =>
                    obtain ⟨-, isLetters⟩ := List.cons.inj joined
                    have lagging :
                        letters = (later ++ [letter]) ++ text := by
                      rw [List.append_assoc]
                      exact isLetters
                    have noLagQuote : '"' ∉ later ++ [letter] := by
                      simp only [List.mem_cons, not_or] at noQuote
                      simp [noQuote.2, Ne.symm notQuote]
                    rw [lagging] at isRead
                    obtain ⟨absent, -, -⟩ :=
                      inductionHypothesis noLagQuote isRead
                    simp at absent

/-- A plain text is read up to the quote behind it. -/
private theorem readChars_plain
    {text : List Char}
    (plain : PlainText text)
    {fuel : Nat}
    (enough : text.length < fuel)
    (rest : List Char) :
    readChars fuel (text ++ '"' :: rest) = some (text, rest) := by
  induction text generalizing fuel with
  | nil =>
      cases fuel with
      | zero =>
          cases enough
      | succ fuel =>
          simp [readChars]
  | cons letter text inductionHypothesis =>
      cases fuel with
      | zero =>
          cases enough
      | succ fuel =>
          obtain ⟨isPlain, plain⟩ := List.forall_mem_cons.mp plain
          have fewer : text.length < fuel :=
            Nat.lt_of_succ_lt_succ enough
          simp [readChars, isPlain.noQuote, isPlain.noBackslash,
            isPlain.noControl, inductionHypothesis plain fewer]

/-- A copied string is read as itself exactly if it is plain. -/
theorem readString_quoted_iff
    (text rest behind : List Char) :
    readString (quoted text ++ rest) = some (text, behind) ↔
      PlainText text ∧ behind = rest := by
  have copied :
      quoted text ++ rest = '"' :: (text ++ '"' :: rest) := by
    simp [quoted]
  simp only [copied, readString, expect, if_true, Option.bind_eq_bind,
    Option.bind_some]
  constructor
  · intro read
    exact (@plain_of_readChars_append _ [] text rest behind (by simp)
      read).2
  · rintro ⟨plain, rfl⟩
    apply readChars_plain plain
    rw [List.length_append, List.length_cons]
    omega

theorem readString_quoted
    {text : List Char}
    (plain : PlainText text)
    (rest : List Char) :
    readString (quoted text ++ rest) = some (text, rest) :=
  (readString_quoted_iff text rest rest).mpr ⟨plain, rfl⟩

end Strings

section Numbers

/-- Decimal digits without a leading zero. -/
structure IsDecimal
    (literal : List Char) : Prop where
  present : literal ≠ []
  digits : ∀ letter ∈ literal, letter.isDigit = true
  noLeadingZero : literal.head? = some '0' → literal = ['0']

/-- Nothing, or a character that ends a value. -/
def Delimited
    (rest : List Char) : Prop :=
  ∀ letter ∈ rest.head?, letter = ',' ∨ letter = ']' ∨ letter = '}'

theorem delimited_nil : Delimited [] := by
  simp [Delimited]

/-- Only zero is printed with a zero in front. -/
private theorem eq_zero_of_head_toDigits
    (number : Nat)
    (zero : (Nat.toDigits 10 number).head? = some '0') :
    number = 0 := by
  induction number using Nat.strongRecOn with
  | ind number inductionHypothesis =>
      rcases Nat.lt_or_ge number 10 with single | more
      · rw [Nat.toDigits_of_lt_base single] at zero
        simpa using zero
      · rw [Nat.toDigits_of_base_le (by decide) more,
          List.head?_append_of_ne_nil _ Nat.toDigits_ne_nil] at zero
        have front :=
          inductionHypothesis (number / 10) (by omega) zero
        omega

/-- The digits of a number are decimal. -/
theorem isDecimal_toDigits
    (number : Nat) :
    IsDecimal (Nat.toDigits 10 number) where
  present := Nat.toDigits_ne_nil
  digits := fun letter member =>
    Nat.isDigit_of_mem_toDigits (by decide) (by decide) member
  noLeadingZero := by
    intro zero
    rw [eq_zero_of_head_toDigits number zero]
    exact Nat.toDigits_zero 10

/-- The digits tell a number. -/
theorem toDigits_injective :
    Function.Injective (Nat.toDigits 10) :=
  Function.LeftInverse.injective fun _ =>
    Nat.ofDigitChars_ten_toDigits

private theorem readOptional_absent
    {allowed : Char → Bool}
    {text : List Char}
    (absent : ∀ letter ∈ text.head?, allowed letter = false) :
    readOptional allowed text = ([], text) := by
  cases text with
  | nil =>
      rfl
  | cons letter rest =>
      have refused : allowed letter = false :=
        absent letter rfl
      simp [readOptional, refused]

/-- No part of a number goes on behind the end of a value. -/
private theorem Delimited.absent
    {rest : List Char}
    (ended : Delimited rest)
    {allowed : Char → Bool}
    (refused : [',', ']', '}'].map allowed = [false, false, false]) :
    ∀ letter ∈ rest.head?, allowed letter = false := by
  intro letter member
  simp only [List.map_cons, List.map_nil, List.cons.injEq, and_true]
    at refused
  rcases ended letter member with rfl | rfl | rfl
  · exact refused.1
  · exact refused.2.1
  · exact refused.2.2

private theorem readDigits_append
    {digits rest : List Char}
    (present : digits ≠ [])
    (areDigits : ∀ letter ∈ digits, letter.isDigit = true)
    (ended : ∀ letter ∈ rest.head?, letter.isDigit = false) :
    readDigits (digits ++ rest) = some (digits, rest) := by
  have noMore :
      rest.takeWhile Char.isDigit = [] ∧ rest.dropWhile Char.isDigit = rest := by
    cases rest with
    | nil =>
        exact ⟨rfl, rfl⟩
    | cons letter rest =>
        have noDigit := ended letter rfl
        simp [noDigit]
  have taken :
      (digits ++ rest).takeWhile Char.isDigit = digits := by
    rw [List.takeWhile_append_of_pos areDigits, noMore.1, List.append_nil]
  have dropped :
      (digits ++ rest).dropWhile Char.isDigit = rest := by
    rw [List.dropWhile_append_of_pos areDigits, noMore.2]
  simp [readDigits, taken, dropped, present]

/-- The whole part of a decimal number is all of it. -/
private theorem readWhole_of_isDecimal
    {literal rest : List Char}
    (decimal : IsDecimal literal)
    (ended : Delimited rest) :
    readWhole (literal ++ rest) = some (literal, rest) := by
  by_cases zero : literal.head? = some '0'
  · rw [decimal.noLeadingZero zero]
    rfl
  · have noZero :
        ∀ letter ∈ (literal ++ rest).head?,
          decide (letter = '0') = false := by
      rw [List.head?_append_of_ne_nil _ decimal.present]
      intro letter member
      apply decide_eq_false
      rintro rfl
      exact zero member
    simp only [readWhole, readOptional_absent noZero]
    exact readDigits_append decimal.present decimal.digits
      (ended.absent rfl)

/-- Decimal digits are read up to the end of the value. -/
theorem readNumber_of_isDecimal
    {literal rest : List Char}
    (decimal : IsDecimal literal)
    (ended : Delimited rest) :
    readNumber (literal ++ rest) = some (literal, rest) := by
  have unsigned :
      ∀ letter ∈ (literal ++ rest).head?, decide (letter = '-') = false := by
    rw [List.head?_append_of_ne_nil _ decimal.present]
    intro letter member
    have digit := decimal.digits letter (List.mem_of_mem_head? member)
    apply decide_eq_false
    rintro rfl
    cases digit
  have noFraction : readFraction rest = some ([], rest) := by
    rw [readFraction, readOptional_absent (ended.absent rfl)]
  have noExponent : readExponent rest = some ([], rest) := by
    rw [readExponent, readOptional_absent (ended.absent rfl)]
  simp [readNumber, readOptional_absent unsigned,
    readWhole_of_isDecimal decimal ended, noFraction, noExponent]

end Numbers

end TsnGen.Json
