import Mathlib.Algebra.Group.Int.Defs
import Mathlib.Data.List.Forall2
import TsnGen.ProtocolModel

namespace TsnGen

/-!
# YAML trees and integer literals

The parser and the validator walk document trees produced by the YAML library
and convert scalar texts with `std::stoull` and `std::stoll` in base 0.  Reading
the scalar of a node that has none is an error of the library, and a literal
outside the target type makes a conversion throw; both end the walk, so the
walks return an `Except` over `Abort`.
-/

/-- A document tree; mappings keep their entries in document order. -/
inductive Yaml where
  | scalar (text : String)
  | seq (items : List Yaml)
  | map (entries : List (String × Yaml))
  deriving Repr

/-- Ways in which a tree walk ends without a result. -/
inductive Abort where
  | noScalar
  | outOfRange
  deriving Repr, DecidableEq

namespace Yaml

/-- The first child of a mapping under a key. -/
def child?
    (node : Yaml)
    (key : String) : Option Yaml :=
  match node with
  | .map entries =>
      (entries.find? fun entry => entry.1 = key).map Prod.snd
  | _ => none

/-- Whether a mapping has a child under a key. -/
def hasChild
    (node : Yaml)
    (key : String) : Bool :=
  (node.child? key).isSome

def isMap : Yaml → Bool
  | .map _ => true
  | _ => false

def isSeq : Yaml → Bool
  | .seq _ => true
  | _ => false

/-- Child nodes of a container, in document order. -/
def children : Yaml → List Yaml
  | .scalar _ => []
  | .seq items => items
  | .map entries => entries.map Prod.snd

/-- Keys of a mapping, in document order. -/
def keys : Yaml → List String
  | .map entries => entries.map Prod.fst
  | _ => []

/-- Items of the sequence under a key; none where there is no sequence. -/
def listed
    (node : Yaml)
    (key : String) : List Yaml :=
  match node.child? key with
  | some (.seq items) => items
  | _ => []

/-- A list of items is a sequence under its key, or empty for lack of one. -/
theorem listed_cases
    (node : Yaml)
    (key : String) :
    (∃ items, node.child? key = some (.seq items) ∧
        node.listed key = items) ∨
      (∀ items, node.child? key ≠ some (.seq items)) ∧
        node.listed key = [] := by
  unfold listed
  cases node.child? key with
  | none =>
      simp
  | some child =>
      cases child with
      | scalar text =>
          simp
      | seq items =>
          simp
      | map entries =>
          simp

/-- The scalar text of a node, where it has one. -/
def text? : Yaml → Option String
  | .scalar text => some text
  | _ => none

/-- The text of a scalar child, empty where there is none. -/
def textOf
    (node : Yaml)
    (key : String) : String :=
  ((node.child? key).bind text?).getD ""

/-- Unguarded scalar access. -/
def val
    (node : Yaml) : Except Abort String :=
  match node.text? with
  | some text => .ok text
  | none => .error .noScalar

end Yaml

/-- A walk succeeds exactly when its steps do. -/
theorem bind_eq_ok_iff
    {walk : Except ε α}
    {next : α → Except ε β}
    {result : β} :
    walk >>= next = .ok result ↔
      ∃ value, walk = .ok value ∧ next value = .ok result := by
  cases walk with
  | error reason =>
      constructor
      · intro succeeds
        cases succeeds
      · rintro ⟨_, failed, _⟩
        cases failed
  | ok value =>
      constructor
      · intro succeeds
        exact ⟨value, rfl, succeeds⟩
      · rintro ⟨_, same, succeeds⟩
        cases same
        exact succeeds

@[simp] theorem pure_eq_ok_iff
    {value result : α} :
    (pure value : Except ε α) = .ok result ↔ value = result :=
  Except.ok.injEq value result ▸ Iff.rfl

/-- A walk over a list succeeds item by item. -/
theorem mapM_eq_ok_iff
    {walk : α → Except ε β}
    {items : List α}
    {results : List β} :
    items.mapM walk = .ok results ↔
      List.Forall₂ (fun item result => walk item = .ok result)
        items results := by
  induction items generalizing results with
  | nil =>
      constructor
      · intro succeeds
        cases succeeds
        exact .nil
      · intro related
        cases related
        rfl
  | cons item rest inductionHypothesis =>
      simp only [List.mapM_cons, bind_eq_ok_iff, inductionHypothesis]
      constructor
      · rintro ⟨first, isFirst, later, isLater, combined⟩
        cases combined
        exact .cons isFirst isLater
      · intro related
        cases related with
        | cons isFirst isLater =>
            exact ⟨_, isFirst, _, isLater, rfl⟩

/-- A walk that succeeds on a list succeeds on its items. -/
theorem exists_ok_of_mapM_eq_ok
    {walk : α → Except ε β}
    {items : List α}
    {results : List β}
    (succeeds : items.mapM walk = .ok results)
    {item : α}
    (member : item ∈ items) :
    ∃ result, walk item = .ok result := by
  have related := mapM_eq_ok_iff.mp succeeds
  induction related with
  | nil =>
      simp at member
  | cons isFirst _ inductionHypothesis =>
      rcases List.mem_cons.mp member with rfl | inRest
      · exact ⟨_, isFirst⟩
      · exact inductionHypothesis (mapM_eq_ok_iff.mpr ‹_›) inRest

/-- A walk that agrees with a function on a list maps the list. -/
theorem mapM_eq_ok_map
    {walk : α → Except ε β}
    {value : α → β}
    {items : List α}
    (agrees : ∀ item ∈ items, walk item = .ok (value item)) :
    items.mapM walk = .ok (items.map value) := by
  rw [mapM_eq_ok_iff, List.forall₂_map_right_iff, List.forall₂_same]
  exact agrees

namespace Numeral

/-- Blank characters skipped before a number. -/
def isSpace
    (letter : Char) : Bool :=
  letter = ' ' || (9 ≤ letter.toNat && letter.toNat ≤ 13)

/-- Value of a digit in any base up to 36. -/
def digitValue
    (letter : Char) : Option Nat :=
  if '0' ≤ letter ∧ letter ≤ '9' then
    some (letter.toNat - '0'.toNat)
  else if 'a' ≤ letter ∧ letter ≤ 'z' then
    some (letter.toNat - 'a'.toNat + 10)
  else if 'A' ≤ letter ∧ letter ≤ 'Z' then
    some (letter.toNat - 'A'.toNat + 10)
  else
    none

/-- Whether a character is a digit of the base. -/
def isDigit
    (base : Nat)
    (letter : Char) : Bool :=
  match digitValue letter with
  | some digit => digit < base
  | none => false

/-- The number spelled by digits of a base. -/
def ofDigits
    (base : Nat)
    (digits : List Char) : Nat :=
  digits.foldl
    (fun total letter => total * base + (digitValue letter).getD 0) 0

/--
Split an optional `0x` prefix off and fix the base, as `strtol` does for base 0
and 16: the prefix counts only when a hexadecimal digit follows it.
-/
def stripBase
    (base : Nat)
    (text : List Char) : Nat × List Char :=
  match text with
  | '0' :: mark :: digit :: rest =>
      if (base = 0 ∨ base = 16) ∧ (mark = 'x' ∨ mark = 'X') ∧ isDigit 16 digit then
        (16, digit :: rest)
      else if base = 0 then
        (8, text)
      else
        (base, text)
  | '0' :: _ => (if base = 0 then 8 else base, text)
  | _ => (if base = 0 then 10 else base, text)

/-- A scanned integer: its sign, magnitude and number of characters read. -/
structure Scan where
  negative : Bool
  magnitude : Nat
  consumed : Nat
  deriving Repr, DecidableEq

/-- The integer at the start of a text, or `none` when there is none. -/
def scan
    (base : Nat)
    (text : List Char) : Option Scan :=
  let unspaced := text.dropWhile isSpace
  let unsigned :=
    match unspaced with
    | '-' :: rest => (true, rest)
    | '+' :: rest => (false, rest)
    | _ => (false, unspaced)
  let stripped := stripBase base unsigned.2
  let digits := stripped.2.takeWhile (isDigit stripped.1)
  if digits.isEmpty then
    none
  else
    some {
      negative := unsigned.1
      magnitude := ofDigits stripped.1 digits
      consumed :=
        text.length - (stripped.2.length - digits.length) }

/--
`std::stoull(text, &consumed, 0)`: `none` when it throws.  A minus sign negates
the magnitude modulo `2^64`.
-/
def stoull
    (text : String) : Option (UInt64 × Nat) :=
  match scan 0 text.toList with
  | none => none
  | some literal =>
      if literal.magnitude < 2 ^ 64 then
        let value := UInt64.ofNat literal.magnitude
        some (if literal.negative then 0 - value else value, literal.consumed)
      else
        none

/-- `std::stoll(text, nullptr, 0)`: `none` when it throws. -/
def stoll
    (text : String) : Option Int :=
  match scan 0 text.toList with
  | none => none
  | some literal =>
      let value : Int :=
        if literal.negative then -literal.magnitude else literal.magnitude
      if -2 ^ 63 ≤ value ∧ value < 2 ^ 63 then some value else none

example : stoull "0x22F0" = some (0x22F0, 6) := by
  decide

end Numeral

end TsnGen
