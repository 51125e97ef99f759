import TsnGen.Yaml

namespace TsnGen.Numeral

/-!
# Integer literals

What a scalar says as an integer, independently of how the library scans it: an
unsigned literal is decimal, hexadecimal behind `0x` or octal behind `0`, and
its value fits 64 bits.  The conversions of the library also skip blanks and
accept a sign behind them, so they read a larger set of texts, the padded
literals.
-/

/-- Digits of a base, at least one, whose value fits 64 bits. -/
def digits?
    (base : Nat)
    (digits : List Char) : Option Nat :=
  if digits ≠ [] ∧ digits.all (isDigit base) ∧
      ofDigits base digits < 2 ^ 64 then
    some (ofDigits base digits)
  else
    none

/-- An unsigned decimal, hexadecimal or octal literal. -/
def unsigned? : List Char → Option Nat
  | '0' :: 'x' :: digits => digits? 16 digits
  | '0' :: 'X' :: digits => digits? 16 digits
  | '0' :: digits => digits? 8 ('0' :: digits)
  | digits => digits? 10 digits

/-- Split an optional sign off. -/
def splitSign
    (text : List Char) : Bool × List Char :=
  match text with
  | '-' :: rest => (true, rest)
  | '+' :: rest => (false, rest)
  | _ => (false, text)

/-- The integer of a sign and a magnitude. -/
def withSign
    (negative : Bool)
    (magnitude : Nat) : Int :=
  if negative then -magnitude else magnitude

/-- An unsigned literal with an optional sign in front. -/
def signed?
    (text : List Char) : Option Int :=
  let split := splitSign text
  (unsigned? split.2).map (withSign split.1)

/-- The integer a scalar says: its whole text is an unsigned literal. -/
def unsignedLiteral?
    (text : String) : Option Int :=
  (unsigned? text.toList).map (withSign false)

/-- An unsigned literal, or blanks and then a literal that may be signed. -/
def paddedLiteral?
    (text : String) : Option Int :=
  match text.toList with
  | [] => none
  | first :: rest =>
      if first = '-' ∨ first = '+' then
        none
      else
        signed? ((first :: rest).dropWhile isSpace)

/-- Whether a text starts with a blank. -/
def startsBlank
    (text : String) : Bool :=
  (text.toList.head?).any isSpace

example : unsignedLiteral? "0x22F0" = some 0x22F0 := by
  decide

example : paddedLiteral? " -5" = some (-5) := by
  decide

/-- Digits of a base, at least one and as many as there are. -/
def wholeDigits?
    (base : Nat)
    (digits : List Char) : Option Nat :=
  if digits ≠ [] ∧ digits.all (isDigit base) then
    some (ofDigits base digits)
  else
    none

/-- Read a literal in the base that its first characters tell. -/
def byPrefix
    (read : Nat → List Char → Option Nat) :
    List Char → Option Nat
  | '0' :: 'x' :: digits => read 16 digits
  | '0' :: 'X' :: digits => read 16 digits
  | '0' :: digits => read 8 ('0' :: digits)
  | digits => read 10 digits

/-- The integer of a literal: an optional sign and any number of digits. -/
def integerLiteral?
    (text : String) : Option Int :=
  let split := splitSign text.toList
  (byPrefix wholeDigits? split.2).map (withSign split.1)

example : integerLiteral? "-0x100000000" = some (-4294967296) := by
  decide

/-- A reading of digits takes nothing but digits, and at least one. -/
structure StrictReading
    (read : Nat → List Char → Option Nat) : Prop where
  present : ∀ base, read base [] = none
  strict :
    ∀ {base digits letter}, letter ∈ digits →
      isDigit base letter = false → read base digits = none

/-- A text with a character that is no digit is not all digits. -/
private theorem all_isDigit_eq_false
    {base : Nat}
    {digits : List Char}
    {letter : Char}
    (member : letter ∈ digits)
    (other : isDigit base letter = false) :
    digits.all (isDigit base) = false := by
  apply List.all_eq_false.mpr
  exact ⟨letter, member, by simp [other]⟩

theorem strictReading_digits? :
    StrictReading digits? where
  present := by
    intro base
    simp [digits?]
  strict := by
    intro base digits letter member other
    simp [digits?, all_isDigit_eq_false member other]

theorem strictReading_wholeDigits? :
    StrictReading wholeDigits? where
  present := by
    intro base
    simp [wholeDigits?]
  strict := by
    intro base digits letter member other
    simp [wholeDigits?, all_isDigit_eq_false member other]

/-- A hexadecimal prefix counts only in front of a hexadecimal digit. -/
theorem StrictReading.behind_mark
    {read : Nat → List Char → Option Nat}
    (reading : StrictReading read)
    {mark digit : Char}
    (isMark : mark = 'x' ∨ mark = 'X')
    (rest : List Char) :
    read 16 (digit :: rest) =
      if isDigit 16 digit then
        read 16 (digit :: rest)
      else
        read 8 ('0' :: mark :: digit :: rest) := by
  by_cases hexadecimal : isDigit 16 digit = true
  · simp [hexadecimal]
  · have markOther : isDigit 8 mark = false := by
      rcases isMark with rfl | rfl <;> decide
    rw [if_neg hexadecimal,
      reading.strict List.mem_cons_self (by simpa using hexadecimal),
      reading.strict (by simp) markOther]

/-- Base detection by the library agrees with the shape of a literal. -/
theorem StrictReading.byPrefix_eq
    {read : Nat → List Char → Option Nat}
    (reading : StrictReading read)
    (text : List Char) :
    byPrefix read text =
      read (stripBase 0 text).1 (stripBase 0 text).2 := by
  have bareMark {mark : Char} (isMark : mark = 'x' ∨ mark = 'X') :
      read 16 [] = read 8 ['0', mark] := by
    have markOther : isDigit 8 mark = false := by
      rcases isMark with rfl | rfl <;> decide
    rw [reading.present, reading.strict (by simp) markOther]
  unfold byPrefix
  split
  next digits =>
    cases digits with
    | nil =>
        exact bareMark (Or.inl rfl)
    | cons digit rest =>
        rw [reading.behind_mark (Or.inl rfl)]
        by_cases hexadecimal : isDigit 16 digit = true <;>
          simp [stripBase, hexadecimal]
  next digits =>
    cases digits with
    | nil =>
        exact bareMark (Or.inr rfl)
    | cons digit rest =>
        rw [reading.behind_mark (Or.inr rfl)]
        by_cases hexadecimal : isDigit 16 digit = true <;>
          simp [stripBase, hexadecimal]
  next digits notLower notUpper =>
    cases digits with
    | nil =>
        rfl
    | cons mark rest =>
        have notMark : ¬ (mark = 'x' ∨ mark = 'X') := by
          rintro (rfl | rfl)
          · exact notLower rest rfl
          · exact notUpper rest rfl
        cases rest with
        | nil =>
            rfl
        | cons digit rest =>
            simp [stripBase, notMark]
  next notLower notUpper notOctal =>
    unfold stripBase
    split
    next mark digit rest =>
      exact absurd rfl (notOctal (mark :: digit :: rest))
    next rest _ =>
      exact absurd rfl (notOctal rest)
    next =>
      rfl

/-- An unsigned literal is read by its prefix. -/
theorem unsigned?_eq_byPrefix
    (text : List Char) :
    unsigned? text = byPrefix digits? text :=
  rfl

theorem unsigned?_eq_digits?_stripBase
    (text : List Char) :
    unsigned? text =
      digits? (stripBase 0 text).1 (stripBase 0 text).2 := by
  rw [unsigned?_eq_byPrefix, strictReading_digits?.byPrefix_eq]

/-- All of a text is read when all of its characters are digits. -/
theorem length_takeWhile_eq_iff
    (keep : Char → Bool)
    (text : List Char) :
    (text.takeWhile keep).length = text.length ↔ text.all keep = true := by
  induction text with
  | nil =>
      simp
  | cons letter rest inductionHypothesis =>
      by_cases kept : keep letter = true
      · simpa [kept] using inductionHypothesis
      · simp [kept]

/-- The scanner splits a sign off and reads the digits of the base behind it. -/
theorem scan_eq
    (base : Nat)
    (text : List Char) :
    scan base text =
      let split := splitSign (text.dropWhile isSpace)
      let stripped := stripBase base split.2
      let digits := stripped.2.takeWhile (isDigit stripped.1)
      if digits.isEmpty then
        none
      else
        some {
          negative := split.1
          magnitude := ofDigits stripped.1 digits
          consumed :=
            text.length - (stripped.2.length - digits.length) } :=
  rfl

/--
The scanner covers a text exactly when it is blanks and then a literal, and
its sign and magnitude are those of the literal.
-/
theorem scan_covers_iff
    {text : List Char}
    (present : text ≠ [])
    {value : Int} :
    signed? (text.dropWhile isSpace) = some value ↔
      ∃ literal, scan 0 text = some literal ∧
        literal.consumed = text.length ∧
          literal.magnitude < 2 ^ 64 ∧
            value = withSign literal.negative literal.magnitude := by
  rw [signed?]
  rw [unsigned?_eq_digits?_stripBase]
  rw [scan_eq]
  dsimp only
  generalize splitSign (text.dropWhile isSpace) = split
  generalize stripBase 0 split.2 = stripped
  have positive : 0 < text.length :=
    List.length_pos_iff.mpr present
  have shorter :=
    (List.takeWhile_prefix (l := stripped.2) (isDigit stripped.1)).length_le
  have covered := length_takeWhile_eq_iff (isDigit stripped.1) stripped.2
  by_cases allDigits : stripped.2.all (isDigit stripped.1) = true
  · have same : stripped.2.takeWhile (isDigit stripped.1) = stripped.2 :=
      (List.takeWhile_prefix _).eq_of_length (covered.mpr allDigits)
    rw [same]
    cases digits : stripped.2 with
    | nil =>
        simp [digits?]
    | cons digit rest =>
        rw [digits] at allDigits
        simp [digits?, allDigits, eq_comm]
  · have unread :
        (stripped.2.takeWhile (isDigit stripped.1)).length <
          stripped.2.length := by
      have different := mt covered.mp allDigits
      omega
    constructor
    · intro read
      simp [digits?, allDigits] at read
    · rintro ⟨literal, isLiteral, whole, -, -⟩
      split at isLiteral
      · cases isLiteral
      · rw [Option.some.injEq] at isLiteral
        rw [← isLiteral] at whole
        dsimp only at whole
        omega

/-- A padded literal starts with no sign and is covered by the scanner. -/
theorem paddedLiteral?_eq_some_iff
    {text : String}
    {value : Int} :
    paddedLiteral? text = some value ↔
      ∃ first rest, text.toList = first :: rest ∧
        ¬ (first = '-' ∨ first = '+') ∧
          ∃ literal, scan 0 text.toList = some literal ∧
            literal.consumed = text.toList.length ∧
              literal.magnitude < 2 ^ 64 ∧
                value = withSign literal.negative literal.magnitude := by
  unfold paddedLiteral?
  split
  next empty =>
    simp [empty]
  next first rest shape =>
    rw [shape]
    by_cases sign : first = '-' ∨ first = '+'
    · simp only [sign, ↓reduceIte, reduceCtorEq, false_iff]
      rintro ⟨other, later, same, unsigned, -⟩
      rw [List.cons.injEq] at same
      rw [← same.1] at unsigned
      exact unsigned sign
    · rw [if_neg sign, scan_covers_iff (List.cons_ne_nil first rest)]
      constructor
      · intro covered
        exact ⟨first, rest, rfl, sign, covered⟩
      · rintro ⟨_, _, _, _, covered⟩
        exact covered

/-- The unsigned conversion covers what the scanner covers within 64 bits. -/
theorem stoull_covers_iff
    {text : String}
    {length : Nat} :
    (∃ number, stoull text = some (number, length)) ↔
      ∃ literal, scan 0 text.toList = some literal ∧
        literal.consumed = length ∧ literal.magnitude < 2 ^ 64 := by
  unfold stoull
  cases scan 0 text.toList with
  | none =>
      simp
  | some literal =>
      by_cases bounded : literal.magnitude < 2 ^ 64
      · simp only [bounded, ↓reduceIte, Option.some.injEq, Prod.mk.injEq,
          exists_eq_left', and_true]
      · simp only [bounded, ↓reduceIte, reduceCtorEq, exists_false,
          false_iff]
        rintro ⟨other, same, -, small⟩
        rw [Option.some.injEq] at same
        rw [← same] at small
        exact bounded small

/-- Padded literals start with no sign and convert as a whole. -/
theorem exists_paddedLiteral?_iff
    {text : String}
    {first : Char}
    {rest : List Char}
    (shape : text.toList = first :: rest) :
    (∃ value, paddedLiteral? text = some value) ↔
      ¬ (first = '-' ∨ first = '+') ∧
        ∃ number, stoull text = some (number, text.toList.length) := by
  simp only [paddedLiteral?_eq_some_iff, stoull_covers_iff]
  constructor
  · rintro ⟨value, other, later, same, unsigned, literal, scanned, whole,
      bounded, -⟩
    rw [shape, List.cons.injEq] at same
    rw [← same.1] at unsigned
    exact ⟨unsigned, literal, scanned, whole, bounded⟩
  · rintro ⟨unsigned, literal, scanned, whole, bounded⟩
    exact ⟨_, first, rest, shape, unsigned, literal, scanned, whole,
      bounded, rfl⟩

/-- A sign wraps the magnitude modulo `2^64`. -/
theorem toNat_withSign
    (negative : Bool)
    {magnitude : Nat}
    (bounded : magnitude < 2 ^ 64) :
    ((if negative then
        0 - UInt64.ofNat magnitude
      else
        UInt64.ofNat magnitude).toNat : Int) =
      withSign negative magnitude % 2 ^ 64 := by
  have wraps : (UInt64.ofNat magnitude).toNat = magnitude := by
    simpa using bounded
  cases negative with
  | false =>
      simp only [Bool.false_eq_true, ↓reduceIte, withSign, wraps]
      omega
  | true =>
      simp only [↓reduceIte, withSign, UInt64.toNat_sub, wraps]
      simp only [UInt64.toNat_zero]
      omega

/-- The unsigned conversion reads a padded literal modulo `2^64`. -/
theorem stoull_of_paddedLiteral?
    {text : String}
    {value : Int}
    (read : paddedLiteral? text = some value) :
    ∃ number,
      stoull text = some (number, text.toList.length) ∧
        (number.toNat : Int) = value % 2 ^ 64 := by
  obtain ⟨first, rest, -, -, literal, scanned, whole, bounded, isValue⟩ :=
    paddedLiteral?_eq_some_iff.mp read
  refine
    ⟨if literal.negative then
        0 - UInt64.ofNat literal.magnitude
      else
        UInt64.ofNat literal.magnitude, ?_, ?_⟩
  · simp only [stoull, scanned, bounded, ↓reduceIte, whole]
  · rw [isValue]
    exact toNat_withSign literal.negative bounded

/-- Literals stay below `2^64`. -/
theorem lt_of_paddedLiteral?
    {text : String}
    {value : Int}
    (read : paddedLiteral? text = some value) :
    value < 2 ^ 64 := by
  obtain ⟨first, rest, -, -, literal, -, -, bounded, rfl⟩ :=
    paddedLiteral?_eq_some_iff.mp read
  unfold withSign
  split <;> omega

/-- The signed conversion reads a padded literal inside its range. -/
theorem stoll_of_paddedLiteral?
    {text : String}
    {value : Int}
    (read : paddedLiteral? text = some value) :
    stoll text =
      if -2 ^ 63 ≤ value ∧ value < 2 ^ 63 then some value else none := by
  obtain ⟨first, rest, -, -, literal, scanned, -, -, isValue⟩ :=
    paddedLiteral?_eq_some_iff.mp read
  rw [isValue, stoll, scanned]
  rfl

/-- Nothing but a decimal digit starts a literal. -/
theorem StrictReading.byPrefix_eq_none
    {read : Nat → List Char → Option Nat}
    (reading : StrictReading read)
    {first : Char}
    (other : isDigit 10 first = false)
    (rest : List Char) :
    byPrefix read (first :: rest) = none := by
  have notZero : first ≠ '0' := by
    rintro rfl
    revert other
    decide
  unfold byPrefix
  split
  next digits shape =>
    exact absurd (List.cons.inj shape).1 notZero
  next digits shape =>
    exact absurd (List.cons.inj shape).1 notZero
  next digits _ _ shape =>
    exact absurd (List.cons.inj shape).1 notZero
  next =>
    exact reading.strict List.mem_cons_self other

theorem unsigned?_eq_none
    {first : Char}
    (other : isDigit 10 first = false)
    (rest : List Char) :
    unsigned? (first :: rest) = none := by
  rw [unsigned?_eq_byPrefix]
  exact strictReading_digits?.byPrefix_eq_none other rest

/-- Without a sign in front nothing is split off. -/
theorem splitSign_eq_self
    {first : Char}
    (unsigned : ¬ (first = '-' ∨ first = '+'))
    (rest : List Char) :
    splitSign (first :: rest) = (false, first :: rest) := by
  unfold splitSign
  split
  next shape =>
    exact absurd (Or.inl (List.cons.inj shape).1) unsigned
  next shape =>
    exact absurd (Or.inr (List.cons.inj shape).1) unsigned
  next =>
    rfl

/-- Blanks are no digits. -/
theorem isDigit_of_isSpace
    {letter : Char}
    (blank : isSpace letter = true) :
    isDigit 10 letter = false := by
  have low : letter.toNat ≤ 32 := by
    simp only [isSpace, Bool.or_eq_true, decide_eq_true_eq,
      Bool.and_eq_true] at blank
    rcases blank with rfl | ⟨-, small⟩
    · decide
    · omega
  have small : letter.val.toNat ≤ 32 := low
  have below : ∀ other : Char, 33 ≤ other.val.toNat → ¬ other ≤ letter := by
    intro other large atMost
    have ordered : other.val.toNat ≤ letter.val.toNat := atMost
    omega
  have undigit : digitValue letter = none := by
    unfold digitValue
    rw [if_neg (fun bounds => below '0' (by decide) bounds.1),
      if_neg (fun bounds => below 'a' (by decide) bounds.1),
      if_neg (fun bounds => below 'A' (by decide) bounds.1)]
  simp [isDigit, undigit]

/-- The literals of the schema are the padded ones without blanks. -/
theorem unsignedLiteral?_eq_some_iff
    {text : String}
    {value : Int} :
    unsignedLiteral? text = some value ↔
      paddedLiteral? text = some value ∧ startsBlank text = false := by
  unfold unsignedLiteral? paddedLiteral? startsBlank
  cases shape : text.toList with
  | nil =>
      simp [unsigned?, digits?]
  | cons first rest =>
      by_cases blank : isSpace first = true
      · simp [unsigned?_eq_none (isDigit_of_isSpace blank), blank]
      · by_cases sign : first = '-' ∨ first = '+'
        · have other : isDigit 10 first = false := by
            rcases sign with rfl | rfl <;> decide
          simp [unsigned?_eq_none other, sign]
        · simp [blank, sign, signed?, splitSign_eq_self sign]

/-- No literal starts with a blank. -/
theorem dropWhile_isSpace_of_integerLiteral?
    {text : String}
    {value : Int}
    (read : integerLiteral? text = some value) :
    text.toList.dropWhile isSpace = text.toList := by
  have noDigits : byPrefix wholeDigits? [] = none := rfl
  unfold integerLiteral? at read
  cases shape : text.toList with
  | nil =>
      rfl
  | cons first rest =>
      rw [shape] at read
      have visible : isSpace first = false := by
        by_contra blank
        have isBlank : isSpace first = true := by
          simpa using blank
        have unsigned : ¬ (first = '-' ∨ first = '+') := by
          rintro (rfl | rfl)
          · exact absurd isBlank (by decide)
          · exact absurd isBlank (by decide)
        have unread :=
          strictReading_wholeDigits?.byPrefix_eq_none
            (isDigit_of_isSpace isBlank) rest
        simp [splitSign_eq_self unsigned, unread] at read
      simp [visible]

/-- The scanner reads all of a literal, whatever its length. -/
theorem scan_of_integerLiteral?
    {text : String}
    {value : Int}
    (read : integerLiteral? text = some value) :
    ∃ literal, scan 0 text.toList = some literal ∧
      literal.consumed = text.toList.length ∧
        value = withSign literal.negative literal.magnitude := by
  rw [scan_eq, dropWhile_isSpace_of_integerLiteral? read]
  simp only [integerLiteral?, strictReading_wholeDigits?.byPrefix_eq] at read
  dsimp only
  generalize splitSign text.toList = split at read ⊢
  generalize stripBase 0 split.2 = stripped at read ⊢
  obtain ⟨magnitude, isMagnitude, isValue⟩ := Option.map_eq_some_iff.mp read
  unfold wholeDigits? at isMagnitude
  split at isMagnitude
  next whole =>
    obtain ⟨present, allDigits⟩ := whole
    have same : stripped.2.takeWhile (isDigit stripped.1) = stripped.2 := by
      apply (List.takeWhile_prefix _).eq_of_length
      exact (length_takeWhile_eq_iff _ _).mpr allDigits
    cases isMagnitude
    simp [same, present, isValue]
  next =>
    cases isMagnitude

/-- The unsigned conversion of a literal wraps its sign, within 64 bits. -/
theorem stoull_of_integerLiteral?
    {text : String}
    {value : Int}
    (read : integerLiteral? text = some value) :
    (value.natAbs < 2 ^ 64 →
        ∃ number,
          stoull text = some (number, text.toList.length) ∧
            (number.toNat : Int) = value % 2 ^ 64) ∧
      (2 ^ 64 ≤ value.natAbs → stoull text = none) := by
  obtain ⟨literal, scanned, whole, isValue⟩ := scan_of_integerLiteral? read
  have magnitude : value.natAbs = literal.magnitude := by
    rw [isValue, withSign]
    cases literal.negative <;> simp
  constructor
  · intro bounded
    rw [magnitude] at bounded
    refine
      ⟨if literal.negative then
          0 - UInt64.ofNat literal.magnitude
        else
          UInt64.ofNat literal.magnitude, ?_, ?_⟩
    · simp only [stoull, scanned, bounded, ↓reduceIte, whole]
    · rw [isValue]
      exact toNat_withSign literal.negative bounded
  · intro large
    rw [magnitude] at large
    simp only [stoull, scanned, not_lt.mpr large, ↓reduceIte]

/-- In base 10 no prefix is split off. -/
theorem stripBase_ten
    (text : List Char) :
    stripBase 10 text = (10, text) := by
  unfold stripBase
  split
  · simp
  · rfl
  · rfl

/-- The scanner reads all of a text of decimal digits. -/
theorem scan_of_digits?
    {text : List Char}
    {number : Nat}
    (read : digits? 10 text = some number) :
    scan 10 text =
        some {
          negative := false
          magnitude := number
          consumed := text.length } ∧
      number < 2 ^ 64 := by
  unfold digits? at read
  split at read
  next shape =>
    obtain ⟨present, allDigits, bounded⟩ := shape
    rw [Option.some.injEq] at read
    obtain ⟨first, rest, rfl⟩ := List.exists_cons_of_ne_nil present
    have digit : isDigit 10 first = true :=
      List.all_eq_true.mp allDigits first List.mem_cons_self
    have visible : isSpace first = false := by
      by_contra blank
      rw [isDigit_of_isSpace (by simpa using blank)] at digit
      cases digit
    have unsigned : ¬ (first = '-' ∨ first = '+') := by
      rintro (rfl | rfl)
      · exact absurd digit (by decide)
      · exact absurd digit (by decide)
    have whole :
        (first :: rest).takeWhile (isDigit 10) = first :: rest := by
      apply (List.takeWhile_prefix _).eq_of_length
      exact (length_takeWhile_eq_iff _ _).mpr allDigits
    have unspaced :
        (first :: rest).dropWhile isSpace = first :: rest := by
      simp [visible]
    refine ⟨?_, read ▸ bounded⟩
    simp only [scan_eq, unspaced, splitSign_eq_self unsigned, stripBase_ten,
      whole, read]
    simp
  next =>
    cases read

end TsnGen.Numeral
