import TsnGen.JsonTokens
import TsnGen.TextReplace

namespace TsnGen.Json

/-!
# Printing without escapes

A printer that copies strings and names between quotes as they are.  Its texts
are read back exactly if all of these strings are plain.
-/

mutual

/-- Print a value without blanks and without escapes. -/
def print :
    Json → List Char
  | null => "null".toList
  | bool true => "true".toList
  | bool false => "false".toList
  | number literal => literal
  | string text => quoted text
  | array items => '[' :: (printItems items ++ [']'])
  | object members => '{' :: (printMembers members ++ ['}'])

/-- Print items with commas between them. -/
def printItems :
    List Json → List Char
  | [] => []
  | [item] => print item
  | item :: next :: rest => print item ++ ',' :: printItems (next :: rest)

/-- Print members with commas between them. -/
def printMembers :
    List (List Char × Json) → List Char
  | [] => []
  | [(name, value)] => quoted name ++ ':' :: print value
  | (name, value) :: next :: rest =>
      quoted name ++ ':' :: (print value ++ ',' :: printMembers (next :: rest))

end

/-- Printed items are joined by commas. -/
theorem printItems_eq_joined
    (items : List Json) :
    printItems items = TextReplace.joined [','] (items.map print) := by
  induction items with
  | nil =>
      rw [printItems]
      rfl
  | cons item more inductionHypothesis =>
      cases more with
      | nil =>
          rw [printItems]
          rfl
      | cons next more =>
          rw [printItems, inductionHypothesis]
          simp [TextReplace.joined]

/-- Printed members are joined by commas. -/
theorem printMembers_eq_joined
    (members : List (List Char × Json)) :
    printMembers members =
      TextReplace.joined [','] (members.map fun member =>
        quoted member.1 ++ ':' :: print member.2) := by
  induction members with
  | nil =>
      rw [printMembers]
      rfl
  | cons member more inductionHypothesis =>
      cases more with
      | nil =>
          rw [printMembers]
          rfl
      | cons next more =>
          rw [printMembers, inductionHypothesis]
          simp [TextReplace.joined]

mutual

/-- Properties of all strings and names of a value, and of its numbers. -/
def All
    (onText onNumber : List Char → Prop) :
    Json → Prop
  | null => True
  | bool _ => True
  | number literal => onNumber literal
  | string text => onText text
  | array items => AllItems onText onNumber items
  | object members => AllMembers onText onNumber members

def AllItems
    (onText onNumber : List Char → Prop) :
    List Json → Prop
  | [] => True
  | item :: rest =>
      All onText onNumber item ∧ AllItems onText onNumber rest

def AllMembers
    (onText onNumber : List Char → Prop) :
    List (List Char × Json) → Prop
  | [] => True
  | (name, value) :: rest =>
      (onText name ∧ All onText onNumber value) ∧
        AllMembers onText onNumber rest

end

/-- The property of items is one of each item. -/
theorem allItems_iff
    {onText onNumber : List Char → Prop}
    (items : List Json) :
    AllItems onText onNumber items ↔
      ∀ item ∈ items, All onText onNumber item := by
  induction items with
  | nil =>
      simp [AllItems]
  | cons item more inductionHypothesis =>
      rw [AllItems, List.forall_mem_cons, inductionHypothesis]

/-- The property of members is one of each name and each value. -/
theorem allMembers_iff
    {onText onNumber : List Char → Prop}
    (members : List (List Char × Json)) :
    AllMembers onText onNumber members ↔
      ∀ member ∈ members,
        onText member.1 ∧ All onText onNumber member.2 := by
  induction members with
  | nil =>
      simp [AllMembers]
  | cons member more inductionHypothesis =>
      rw [AllMembers, List.forall_mem_cons, inductionHypothesis]

/-- Every number of a value is decimal. -/
abbrev HasDecimals
    (value : Json) : Prop :=
  All (fun _ => True) IsDecimal value

/-- Every string and name of a value has a property. -/
abbrev HasTexts
    (property : List Char → Prop)
    (value : Json) : Prop :=
  All property (fun _ => True) value

/-- The first character of a printed value. -/
theorem exists_head_print
    (value : Json)
    (decimals : value.HasDecimals) :
    ∃ letter more,
      print value = letter :: more ∧ isBlank letter = false ∧ letter ≠ ']' := by
  cases value with
  | null =>
      exact ⟨'n', _, by rw [print]; rfl, rfl, by decide⟩
  | bool value =>
      cases value with
      | true =>
          exact ⟨'t', _, by rw [print]; rfl, rfl, by decide⟩
      | false =>
          exact ⟨'f', _, by rw [print]; rfl, rfl, by decide⟩
  | number literal =>
      rw [HasDecimals, All] at decimals
      cases literal with
      | nil =>
          exact absurd rfl decimals.present
      | cons letter more =>
          have digit := decimals.digits letter (by simp)
          have notBracket : letter ≠ ']' := by
            rintro rfl
            cases digit
          have notBlank : isBlank letter = false := by
            by_contra blank
            simp only [isBlank, Bool.not_eq_false, Bool.or_eq_true,
              decide_eq_true_eq] at blank
            rcases blank with ((rfl | rfl) | rfl) | rfl
            all_goals cases digit
          exact ⟨letter, more, by rw [print], notBlank, notBracket⟩
  | string text =>
      exact ⟨'"', _, by rw [print, quoted], rfl, by decide⟩
  | array items =>
      exact ⟨'[', _, by rw [print], rfl, by decide⟩
  | object members =>
      exact ⟨'{', _, by rw [print], rfl, by decide⟩

section Steps

/-- Blanks are skipped up to a character that is none. -/
theorem skipBlanks_cons
    {letter : Char}
    (visible : isBlank letter = false)
    (text : List Char) :
    skipBlanks (letter :: text) = letter :: text := by
  simp [skipBlanks, visible]

theorem skipBlanks_print
    (value : Json)
    (decimals : value.HasDecimals)
    (rest : List Char) :
    skipBlanks (print value ++ rest) = print value ++ rest := by
  obtain ⟨letter, more, printed, visible, -⟩ :=
    exists_head_print value decimals
  rw [printed, List.cons_append, skipBlanks_cons visible]

theorem readValue_quoted
    (fuel : Nat)
    (text rest : List Char) :
    readValue (fuel + 1) (quoted text ++ rest) =
      (readString (quoted text ++ rest)).map fun read =>
        (string read.1, read.2) := by
  rw [quoted, List.cons_append, readValue, if_pos rfl]
  cases readString ('"' :: (text ++ ['"'] ++ rest)) with
  | none =>
      rfl
  | some read =>
      rfl

theorem readValue_null
    (fuel : Nat)
    (rest : List Char) :
    readValue (fuel + 1) ("null".toList ++ rest) = some (null, rest) :=
  rfl

theorem readValue_true
    (fuel : Nat)
    (rest : List Char) :
    readValue (fuel + 1) ("true".toList ++ rest) = some (bool true, rest) :=
  rfl

theorem readValue_false
    (fuel : Nat)
    (rest : List Char) :
    readValue (fuel + 1) ("false".toList ++ rest) = some (bool false, rest) :=
  rfl

/-- A number is told by its first digit. -/
theorem readValue_decimal
    (fuel : Nat)
    {literal rest : List Char}
    (decimal : IsDecimal literal)
    (ended : Delimited rest) :
    readValue (fuel + 1) (literal ++ rest) = some (number literal, rest) := by
  have isNumber := readNumber_of_isDecimal decimal ended
  cases literal with
  | nil =>
      exact absurd rfl decimal.present
  | cons letter more =>
      have digit := decimal.digits letter (by simp)
      have notQuote : letter ≠ '"' := by
        rintro rfl
        cases digit
      have notBracket : letter ≠ '[' := by
        rintro rfl
        cases digit
      have notBrace : letter ≠ '{' := by
        rintro rfl
        cases digit
      rw [List.cons_append] at isNumber ⊢
      simp [readValue, notQuote, notBracket, notBrace, digit, isNumber]

/-- An array that does not end at once holds items. -/
theorem readValue_bracket
    (fuel : Nat)
    {letter : Char}
    (visible : isBlank letter = false)
    (goesOn : letter ≠ ']')
    (text : List Char) :
    readValue (fuel + 1) ('[' :: letter :: text) =
      (readItems fuel (letter :: text)).map fun read =>
        (array read.1, read.2) := by
  simp only [readValue, skipBlanks_cons visible, expect, goesOn, if_false]
  cases readItems fuel (letter :: text) with
  | none =>
      rfl
  | some read =>
      rfl

/-- An object that does not end at once holds members. -/
theorem readValue_brace
    (fuel : Nat)
    (text : List Char) :
    readValue (fuel + 1) ('{' :: '"' :: text) =
      (readMembers fuel ('"' :: text)).map fun read =>
        (object read.1, read.2) := by
  have visible : isBlank '"' = false := rfl
  simp only [readValue, skipBlanks_cons visible, expect]
  cases readMembers fuel ('"' :: text) with
  | none =>
      rfl
  | some read =>
      rfl

/-- The first item stands first. -/
theorem readValue_of_readItems
    {fuel : Nat}
    {text behind : List Char}
    {item : Json}
    {more : List Json}
    (read : readItems (fuel + 1) text = some (item :: more, behind)) :
    ∃ rest, readValue fuel text = some (item, rest) := by
  simp only [readItems, Option.bind_eq_bind, Option.bind_eq_some_iff,
    Prod.exists] at read
  obtain ⟨first, rest, isFirst, goesOn⟩ := read
  refine ⟨rest, ?_⟩
  split at goesOn
  · simp only [Option.bind_eq_some_iff, Prod.exists, Option.some.injEq,
      Prod.mk.injEq, List.cons.injEq] at goesOn
    obtain ⟨_, _, -, ⟨rfl, -⟩, -⟩ := goesOn
    exact isFirst
  · simp only [Option.bind_eq_some_iff, Option.some.injEq,
      Prod.mk.injEq, List.cons.injEq] at goesOn
    obtain ⟨_, -, ⟨rfl, -⟩, -⟩ := goesOn
    exact isFirst

/-- A bracket ends the items. -/
theorem readItems_last
    {fuel : Nat}
    {text rest : List Char}
    {item : Json}
    (read : readValue fuel text = some (item, ']' :: rest)) :
    readItems (fuel + 1) text = some ([item], rest) := by
  have visible : isBlank ']' = false := rfl
  simp [readItems, read, skipBlanks_cons visible, expect]

/-- Behind a comma the items go on. -/
theorem readItems_more
    {fuel : Nat}
    {text rest : List Char}
    {item : Json}
    (read : readValue fuel text = some (item, ',' :: rest))
    (visible : skipBlanks rest = rest) :
    readItems (fuel + 1) text =
      (readItems fuel rest).map fun more =>
        (item :: more.1, more.2) := by
  have comma : isBlank ',' = false := rfl
  simp only [readItems, read, Option.bind_eq_bind, Option.bind_some,
    skipBlanks_cons comma, expect, if_true, visible]
  cases readItems fuel rest with
  | none =>
      rfl
  | some more =>
      rfl

/-- The first member stands first: its name, a colon and its value. -/
theorem readValue_of_readMembers
    {fuel : Nat}
    {text behind name : List Char}
    {value : Json}
    {more : List (List Char × Json)}
    (read :
      readMembers (fuel + 1) text = some ((name, value) :: more, behind)) :
    ∃ middle next rest,
      readString text = some (name, middle) ∧
        expect ':' (skipBlanks middle) = some next ∧
          readValue fuel (skipBlanks next) = some (value, rest) := by
  simp only [readMembers, Option.bind_eq_bind, Option.bind_eq_some_iff,
    Prod.exists] at read
  obtain ⟨firstName, middle, isName, next, isNext, firstValue, rest, isValue,
    goesOn⟩ := read
  refine ⟨middle, next, rest, ?_⟩
  split at goesOn
  · simp only [Option.bind_eq_some_iff, Prod.exists, Option.some.injEq,
      Prod.mk.injEq, List.cons.injEq] at goesOn
    obtain ⟨_, _, -, ⟨⟨rfl, rfl⟩, -⟩, -⟩ := goesOn
    exact ⟨isName, isNext, isValue⟩
  · simp only [Option.bind_eq_some_iff, Option.some.injEq,
      Prod.mk.injEq, List.cons.injEq] at goesOn
    obtain ⟨_, -, ⟨⟨rfl, rfl⟩, -⟩, -⟩ := goesOn
    exact ⟨isName, isNext, isValue⟩

/-- A brace ends the members. -/
theorem readMembers_last
    {fuel : Nat}
    {text name middle rest : List Char}
    {value : Json}
    (isName : readString text = some (name, ':' :: middle))
    (visible : skipBlanks middle = middle)
    (isValue : readValue fuel middle = some (value, '}' :: rest)) :
    readMembers (fuel + 1) text = some ([(name, value)], rest) := by
  have colon : isBlank ':' = false := rfl
  have brace : isBlank '}' = false := rfl
  simp [readMembers, isName, skipBlanks_cons colon, expect, visible, isValue,
    skipBlanks_cons brace]

/-- Behind a comma the members go on. -/
theorem readMembers_more
    {fuel : Nat}
    {text name middle rest : List Char}
    {value : Json}
    (isName : readString text = some (name, ':' :: middle))
    (visible : skipBlanks middle = middle)
    (isValue : readValue fuel middle = some (value, ',' :: rest))
    (goesOn : skipBlanks rest = rest) :
    readMembers (fuel + 1) text =
      (readMembers fuel rest).map fun more =>
        ((name, value) :: more.1, more.2) := by
  have colon : isBlank ':' = false := rfl
  have comma : isBlank ',' = false := rfl
  simp only [readMembers, isName, skipBlanks_cons colon, expect, visible,
    isValue, skipBlanks_cons comma, Option.bind_eq_bind, Option.bind_some,
    if_true, goesOn]
  cases readMembers fuel rest with
  | none =>
      rfl
  | some more =>
      rfl

end Steps

section Reading

/-- The first character of printed items. -/
private theorem exists_head_printItems
    (item : Json)
    (more : List Json)
    (decimals : item.HasDecimals)
    (rest : List Char) :
    ∃ letter behind,
      printItems (item :: more) ++ rest = letter :: behind ∧
        isBlank letter = false ∧ letter ≠ ']' := by
  obtain ⟨letter, behind, printed, visible, goesOn⟩ :=
    exists_head_print item decimals
  cases more with
  | nil =>
      exact ⟨letter, behind ++ rest, by rw [printItems, printed]; rfl,
        visible, goesOn⟩
  | cons next more =>
      exact ⟨letter, _, by rw [printItems, printed]; rfl, visible, goesOn⟩

private theorem skipBlanks_printItems
    (item : Json)
    (more : List Json)
    (decimals : item.HasDecimals)
    (rest : List Char) :
    skipBlanks (printItems (item :: more) ++ rest) =
      printItems (item :: more) ++ rest := by
  obtain ⟨letter, behind, printed, visible, -⟩ :=
    exists_head_printItems item more decimals rest
  rw [printed, skipBlanks_cons visible]

/-- Printed members start with the quote of a name. -/
private theorem exists_head_printMembers
    (member : List Char × Json)
    (more : List (List Char × Json))
    (rest : List Char) :
    ∃ behind, printMembers (member :: more) ++ rest = '"' :: behind := by
  obtain ⟨name, value⟩ := member
  cases more with
  | nil =>
      exact ⟨_, by rw [printMembers, quoted]; rfl⟩
  | cons next more =>
      exact ⟨_, by rw [printMembers, quoted]; rfl⟩

private theorem skipBlanks_printMembers
    (member : List Char × Json)
    (more : List (List Char × Json))
    (rest : List Char) :
    skipBlanks (printMembers (member :: more) ++ rest) =
      printMembers (member :: more) ++ rest := by
  obtain ⟨behind, printed⟩ := exists_head_printMembers member more rest
  rw [printed, skipBlanks_cons rfl]

/-- The first of printed members is read if its name is plain. -/
private theorem plain_of_readMembers
    {fuel : Nat}
    {name tail behind : List Char}
    {value : Json}
    {more : List (List Char × Json)}
    (decimals : value.HasDecimals)
    (read :
      readMembers (fuel + 1) (quoted name ++ ':' :: (print value ++ tail)) =
        some ((name, value) :: more, behind)) :
    PlainText name ∧
      ∃ behindValue,
        readValue fuel (print value ++ tail) = some (value, behindValue) := by
  obtain ⟨middle, next, behindValue, isName, isNext, isValue⟩ :=
    readValue_of_readMembers read
  obtain ⟨plain, rfl⟩ := (readString_quoted_iff _ _ _).mp isName
  rw [skipBlanks_cons rfl, expect, if_pos rfl] at isNext
  cases isNext
  rw [skipBlanks_print value decimals] at isValue
  exact ⟨plain, behindValue, isValue⟩

private theorem delimited_cons
    {letter : Char}
    (ends : letter = ',' ∨ letter = ']' ∨ letter = '}')
    (rest : List Char) :
    Delimited (letter :: rest) := by
  intro first member
  obtain rfl := Option.some.inj member
  exact ends

mutual

/-- A printed value is read as itself exactly if its strings are plain. -/
theorem readValue_print_iff
    (value : Json)
    (fuel : Nat)
    (rest behind : List Char)
    (decimals : value.HasDecimals)
    (enough : (print value).length < fuel)
    (ended : Delimited rest) :
    readValue fuel (print value ++ rest) = some (value, behind) ↔
      value.HasTexts PlainText ∧ behind = rest := by
  cases fuel with
  | zero =>
      cases enough
  | succ fuel =>
      cases value with
      | null =>
          rw [print, readValue_null, HasTexts, All]
          simp [eq_comm]
      | bool value =>
          cases value with
          | true =>
              rw [print, readValue_true, HasTexts, All]
              simp [eq_comm]
          | false =>
              rw [print, readValue_false, HasTexts, All]
              simp [eq_comm]
      | number literal =>
          rw [HasDecimals, All] at decimals
          rw [print, readValue_decimal fuel decimals ended, HasTexts, All]
          simp [eq_comm]
      | string text =>
          rw [print, readValue_quoted, HasTexts, All,
            ← readString_quoted_iff]
          simp [Option.map_eq_some_iff]
      | array items =>
          rw [HasDecimals, All] at decimals
          rw [print, List.length_cons, List.length_append] at enough
          rw [print, List.cons_append, List.append_assoc, HasTexts, All]
          cases items with
          | nil =>
              rw [printItems, AllItems]
              simp [readValue, skipBlanks, isBlank, expect, eq_comm]
          | cons item more =>
              obtain ⟨letter, later, printed, visible, goesOn⟩ :=
                exists_head_printItems item more decimals.1
                  ([']'] ++ rest)
              have inside :=
                readItems_print_iff (item :: more) (by simp) fuel rest behind
                  decimals (Nat.lt_of_succ_lt_succ enough)
              rw [printed, readValue_bracket fuel visible goesOn, ← printed,
                ← inside]
              simp [Option.map_eq_some_iff]
      | object members =>
          rw [HasDecimals, All] at decimals
          rw [print, List.length_cons, List.length_append] at enough
          rw [print, List.cons_append, List.append_assoc, HasTexts, All]
          cases members with
          | nil =>
              rw [printMembers, AllMembers]
              simp [readValue, skipBlanks, isBlank, expect, eq_comm]
          | cons member more =>
              obtain ⟨later, printed⟩ :=
                exists_head_printMembers member more (['}'] ++ rest)
              have inside :=
                readMembers_print_iff (member :: more) (by simp) fuel rest
                  behind decimals (Nat.lt_of_succ_lt_succ enough)
              rw [printed, readValue_brace, ← printed, ← inside]
              simp [Option.map_eq_some_iff]

theorem readItems_print_iff
    (items : List Json)
    (present : items ≠ [])
    (fuel : Nat)
    (rest behind : List Char)
    (decimals : AllItems (fun _ => True) IsDecimal items)
    (enough : (printItems items).length + 1 < fuel) :
    readItems fuel (printItems items ++ ']' :: rest) = some (items, behind) ↔
      AllItems PlainText (fun _ => True) items ∧ behind = rest := by
  cases fuel with
  | zero =>
      cases enough
  | succ fuel =>
      cases items with
      | nil =>
          exact absurd rfl present
      | cons item more =>
          rw [AllItems] at decimals ⊢
          obtain ⟨itemDecimals, moreDecimals⟩ := decimals
          cases more with
          | nil =>
              rw [printItems] at enough ⊢
              have first := fun behindItem =>
                readValue_print_iff item fuel (']' :: rest) behindItem
                  itemDecimals (by omega) (delimited_cons (by simp) rest)
              rw [AllItems, and_true]
              constructor
              · intro read
                obtain ⟨behindItem, isItem⟩ := readValue_of_readItems read
                obtain ⟨plain, rfl⟩ := (first behindItem).mp isItem
                rw [readItems_last isItem] at read
                cases read
                exact ⟨plain, rfl⟩
              · rintro ⟨plain, rfl⟩
                exact readItems_last ((first _).mpr ⟨plain, rfl⟩)
          | cons next more =>
              rw [printItems] at enough ⊢
              rw [List.length_append, List.length_cons] at enough
              rw [List.append_assoc, List.cons_append]
              have first := fun behindItem =>
                readValue_print_iff item fuel
                  (',' :: (printItems (next :: more) ++ ']' :: rest))
                  behindItem itemDecimals (by omega)
                  (delimited_cons (by simp) _)
              have others :=
                readItems_print_iff (next :: more) (by simp) fuel rest behind
                  moreDecimals (by omega)
              have visible :=
                skipBlanks_printItems next more moreDecimals.1 (']' :: rest)
              constructor
              · intro read
                obtain ⟨behindItem, isItem⟩ := readValue_of_readItems read
                obtain ⟨plain, rfl⟩ := (first behindItem).mp isItem
                rw [readItems_more isItem visible,
                  Option.map_eq_some_iff] at read
                obtain ⟨⟨_, _⟩, isMore, same⟩ := read
                cases same
                obtain ⟨morePlain, rfl⟩ := others.mp isMore
                exact ⟨⟨plain, morePlain⟩, rfl⟩
              · rintro ⟨⟨plain, morePlain⟩, rfl⟩
                rw [readItems_more ((first _).mpr ⟨plain, rfl⟩) visible,
                  others.mpr ⟨morePlain, rfl⟩]
                rfl

theorem readMembers_print_iff
    (members : List (List Char × Json))
    (present : members ≠ [])
    (fuel : Nat)
    (rest behind : List Char)
    (decimals : AllMembers (fun _ => True) IsDecimal members)
    (enough : (printMembers members).length + 1 < fuel) :
    readMembers fuel (printMembers members ++ '}' :: rest) =
        some (members, behind) ↔
      AllMembers PlainText (fun _ => True) members ∧ behind = rest := by
  cases fuel with
  | zero =>
      cases enough
  | succ fuel =>
      cases members with
      | nil =>
          exact absurd rfl present
      | cons member more =>
          cases member with
          | mk name value =>
              rw [AllMembers] at decimals ⊢
              obtain ⟨⟨-, valueDecimals⟩, moreDecimals⟩ := decimals
              have start := skipBlanks_print value valueDecimals
              cases more with
              | nil =>
                  rw [printMembers] at enough ⊢
                  rw [List.length_append, List.length_cons] at enough
                  rw [List.append_assoc, List.cons_append]
                  have first := fun behindValue =>
                    readValue_print_iff value fuel ('}' :: rest) behindValue
                      valueDecimals (by omega) (delimited_cons (by simp) rest)
                  rw [AllMembers, and_true]
                  constructor
                  · intro read
                    obtain ⟨namePlain, behindValue, isValue⟩ :=
                      plain_of_readMembers valueDecimals read
                    obtain ⟨plain, rfl⟩ := (first behindValue).mp isValue
                    rw [readMembers_last (readString_quoted namePlain _)
                      (start _) isValue] at read
                    cases read
                    exact ⟨⟨namePlain, plain⟩, rfl⟩
                  · rintro ⟨⟨namePlain, plain⟩, rfl⟩
                    exact readMembers_last (readString_quoted namePlain _)
                      (start _) ((first _).mpr ⟨plain, rfl⟩)
              | cons next more =>
                  rw [printMembers] at enough ⊢
                  rw [List.length_append, List.length_cons,
                    List.length_append, List.length_cons] at enough
                  rw [List.append_assoc, List.cons_append, List.append_assoc,
                    List.cons_append]
                  have first := fun behindValue =>
                    readValue_print_iff value fuel
                      (',' :: (printMembers (next :: more) ++ '}' :: rest))
                      behindValue valueDecimals (by omega)
                      (delimited_cons (by simp) _)
                  have others :=
                    readMembers_print_iff (next :: more) (by simp) fuel rest
                      behind moreDecimals (by omega)
                  have visible :=
                    skipBlanks_printMembers next more ('}' :: rest)
                  constructor
                  · intro read
                    obtain ⟨namePlain, behindValue, isValue⟩ :=
                      plain_of_readMembers valueDecimals read
                    obtain ⟨plain, rfl⟩ := (first behindValue).mp isValue
                    rw [readMembers_more (readString_quoted namePlain _)
                      (start _) isValue visible,
                      Option.map_eq_some_iff] at read
                    obtain ⟨⟨_, _⟩, isMore, same⟩ := read
                    cases same
                    obtain ⟨morePlain, rfl⟩ := others.mp isMore
                    exact ⟨⟨⟨namePlain, plain⟩, morePlain⟩, rfl⟩
                  · rintro ⟨⟨⟨namePlain, plain⟩, morePlain⟩, rfl⟩
                    rw [readMembers_more (readString_quoted namePlain _)
                      (start _) ((first _).mpr ⟨plain, rfl⟩) visible,
                      others.mpr ⟨morePlain, rfl⟩]
                    rfl

end

/-- The text of a value is read as the value if its strings are plain. -/
theorem read_print_iff
    (value : Json)
    (decimals : value.HasDecimals) :
    read (print value) = some value ↔ value.HasTexts PlainText := by
  have start := skipBlanks_print value decimals []
  have whole := fun behind =>
    readValue_print_iff value ((print value).length + 1) [] behind decimals
      (Nat.lt_succ_self _) delimited_nil
  rw [List.append_nil] at start whole
  rw [read, start]
  constructor
  · intro isRead
    split at isRead
    · next found behind isValue =>
        split at isRead
        · cases isRead
          exact ((whole behind).mp isValue).1
        · cases isRead
    · cases isRead
  · intro plain
    rw [(whole []).mpr ⟨plain, rfl⟩]
    rfl

end Reading

section Bytes

open Utf8

private theorem isUtf8_quoted_iff
    (text : List Char) :
    IsUtf8 (quoted text) ↔ IsUtf8 text := by
  rw [quoted, isUtf8_cons_iff (by decide),
    isUtf8_append_cons_iff (by decide)]
  exact and_iff_left isUtf8_nil

private theorem isUtf8_of_isDecimal
    {literal : List Char}
    (decimal : IsDecimal literal) :
    IsUtf8 literal := by
  apply isUtf8_of_asciiText
  intro letter member
  have digit := decimal.digits letter member
  rw [Char.isDigit, Bool.and_eq_true, decide_eq_true_eq,
    decide_eq_true_eq] at digit
  exact Nat.lt_of_le_of_lt digit.2 (by decide)

mutual

/-- A printed value is UTF-8 exactly if its strings are. -/
theorem isUtf8_print_iff
    (value : Json)
    (decimals : value.HasDecimals) :
    IsUtf8 (print value) ↔ value.HasTexts IsUtf8 := by
  cases value with
  | null =>
      rw [print, HasTexts, All]
      exact iff_true_intro (isUtf8_of_asciiText (by decide))
  | bool value =>
      rw [HasTexts, All]
      cases value with
      | true =>
          rw [print]
          exact iff_true_intro (isUtf8_of_asciiText (by decide))
      | false =>
          rw [print]
          exact iff_true_intro (isUtf8_of_asciiText (by decide))
  | number literal =>
      rw [HasDecimals, All] at decimals
      rw [print, HasTexts, All]
      exact iff_true_intro (isUtf8_of_isDecimal decimals)
  | string text =>
      rw [print, HasTexts, All]
      exact isUtf8_quoted_iff text
  | array items =>
      rw [HasDecimals, All] at decimals
      rw [print, HasTexts, All, isUtf8_cons_iff (by decide),
        isUtf8_append_cons_iff (by decide), and_iff_left isUtf8_nil]
      exact isUtf8_printItems_iff items decimals
  | object members =>
      rw [HasDecimals, All] at decimals
      rw [print, HasTexts, All, isUtf8_cons_iff (by decide),
        isUtf8_append_cons_iff (by decide), and_iff_left isUtf8_nil]
      exact isUtf8_printMembers_iff members decimals

theorem isUtf8_printItems_iff
    (items : List Json)
    (decimals : AllItems (fun _ => True) IsDecimal items) :
    IsUtf8 (printItems items) ↔ AllItems IsUtf8 (fun _ => True) items := by
  cases items with
  | nil =>
      rw [printItems, AllItems]
      exact iff_true_intro isUtf8_nil
  | cons item more =>
      rw [AllItems] at decimals ⊢
      have first := isUtf8_print_iff item decimals.1
      cases more with
      | nil =>
          rw [printItems, AllItems, and_true]
          exact first
      | cons next more =>
          rw [printItems, isUtf8_append_cons_iff (by decide)]
          exact and_congr first
            (isUtf8_printItems_iff (next :: more) decimals.2)

theorem isUtf8_printMembers_iff
    (members : List (List Char × Json))
    (decimals : AllMembers (fun _ => True) IsDecimal members) :
    IsUtf8 (printMembers members) ↔
      AllMembers IsUtf8 (fun _ => True) members := by
  cases members with
  | nil =>
      rw [printMembers, AllMembers]
      exact iff_true_intro isUtf8_nil
  | cons member more =>
      cases member with
      | mk name value =>
          rw [AllMembers] at decimals ⊢
          have first :=
            and_congr (isUtf8_quoted_iff name)
              (isUtf8_print_iff value decimals.1.2)
          cases more with
          | nil =>
              rw [printMembers, AllMembers, and_true,
                isUtf8_append_cons_iff (by decide)]
              exact first
          | cons next more =>
              rw [printMembers, isUtf8_append_cons_iff (by decide),
                isUtf8_append_cons_iff (by decide), ← and_assoc]
              exact and_congr first
                (isUtf8_printMembers_iff (next :: more) decimals.2)

end

/-- No control character, so no end of a line either. -/
def IsVisible
    (text : List Char) : Prop :=
  ∀ letter ∈ text, isControl letter = false

instance
    (text : List Char) :
    Decidable (IsVisible text) :=
  List.decidableBAll _ text

theorem isVisible_append_iff
    (front back : List Char) :
    IsVisible (front ++ back) ↔ IsVisible front ∧ IsVisible back :=
  List.forall_mem_append

theorem isVisible_cons_iff
    (letter : Char)
    (rest : List Char) :
    IsVisible (letter :: rest) ↔ isControl letter = false ∧ IsVisible rest :=
  List.forall_mem_cons

private theorem isVisible_quoted
    {text : List Char}
    (plain : PlainText text) :
    IsVisible (quoted text) := by
  rw [quoted, isVisible_cons_iff, isVisible_append_iff]
  exact ⟨rfl, fun letter member => (plain letter member).noControl, by decide⟩

private theorem isVisible_of_isDecimal
    {literal : List Char}
    (decimal : IsDecimal literal) :
    IsVisible literal := by
  intro letter member
  have digit := decimal.digits letter member
  rw [Char.isDigit, Bool.and_eq_true, decide_eq_true_eq,
    decide_eq_true_eq] at digit
  rw [isControl, decide_eq_false_iff_not]
  exact Nat.not_lt.mpr (Nat.le_trans (by decide) digit.1)

mutual

/-- A printed value whose strings are plain is on one line. -/
theorem isVisible_print
    (value : Json)
    (decimals : value.HasDecimals)
    (plain : value.HasTexts PlainText) :
    IsVisible (print value) := by
  cases value with
  | null =>
      rw [print]
      decide
  | bool value =>
      cases value with
      | true =>
          rw [print]
          decide
      | false =>
          rw [print]
          decide
  | number literal =>
      rw [HasDecimals, All] at decimals
      rw [print]
      exact isVisible_of_isDecimal decimals
  | string text =>
      rw [HasTexts, All] at plain
      rw [print]
      exact isVisible_quoted plain
  | array items =>
      rw [HasDecimals, All] at decimals
      rw [HasTexts, All] at plain
      rw [print, isVisible_cons_iff, isVisible_append_iff]
      exact ⟨rfl, isVisible_printItems items decimals plain, by decide⟩
  | object members =>
      rw [HasDecimals, All] at decimals
      rw [HasTexts, All] at plain
      rw [print, isVisible_cons_iff, isVisible_append_iff]
      exact ⟨rfl, isVisible_printMembers members decimals plain, by decide⟩

theorem isVisible_printItems
    (items : List Json)
    (decimals : AllItems (fun _ => True) IsDecimal items)
    (plain : AllItems PlainText (fun _ => True) items) :
    IsVisible (printItems items) := by
  cases items with
  | nil =>
      rw [printItems]
      decide
  | cons item more =>
      rw [AllItems] at decimals plain
      have first := isVisible_print item decimals.1 plain.1
      cases more with
      | nil =>
          rw [printItems]
          exact first
      | cons next more =>
          rw [printItems, isVisible_append_iff, isVisible_cons_iff]
          exact ⟨first, rfl,
            isVisible_printItems (next :: more) decimals.2 plain.2⟩

theorem isVisible_printMembers
    (members : List (List Char × Json))
    (decimals : AllMembers (fun _ => True) IsDecimal members)
    (plain : AllMembers PlainText (fun _ => True) members) :
    IsVisible (printMembers members) := by
  cases members with
  | nil =>
      rw [printMembers]
      decide
  | cons member more =>
      cases member with
      | mk name value =>
          rw [AllMembers] at decimals plain
          have first := isVisible_quoted plain.1.1
          have second := isVisible_print value decimals.1.2 plain.1.2
          cases more with
          | nil =>
              rw [printMembers, isVisible_append_iff, isVisible_cons_iff]
              exact ⟨first, rfl, second⟩
          | cons next more =>
              rw [printMembers, isVisible_append_iff, isVisible_cons_iff,
                isVisible_append_iff, isVisible_cons_iff]
              exact ⟨first, rfl, second, rfl,
                isVisible_printMembers (next :: more) decimals.2 plain.2⟩

end

end Bytes

end TsnGen.Json
