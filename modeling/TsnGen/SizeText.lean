import TsnGen.DeclaredElements
import TsnGen.Literal

namespace TsnGen.Protocol

open Numeral

/-!
# Widths written as literals

The width of a variable is a scalar text.  The loader converts it with a
conversion that wraps negative numbers, takes a fallback where that throws, and
narrows the result to 32 bits.  Below `2^64` the stored width is therefore the
written number modulo `2^32`, whatever its sign.
-/

/-- The width that a literal stands for; the fallback where none fits. -/
def meantWidth
    (value : Int) : Int :=
  if 0 ≤ value ∧ value < 2 ^ 32 then value else 0

/-- What the conversion and the cast make of a literal. -/
theorem toNat_parseU64_toUInt32
    {text : String}
    {value : Int}
    (literal : integerLiteral? text = some value) :
    ((parseU64 text 0).toUInt32.toNat : Int) =
      if value.natAbs < 2 ^ 64 then value % 2 ^ 32 else 0 := by
  obtain ⟨converts, throws⟩ := stoull_of_integerLiteral? literal
  by_cases bounded : value.natAbs < 2 ^ 64
  · obtain ⟨number, converted, modulo⟩ := converts bounded
    have narrowed :
        (number.toUInt32.toNat : Int) = (number.toNat : Int) % 2 ^ 32 := by
      simp
    simp only [parseU64, converted, bounded, if_true, narrowed, modulo]
    omega
  · simp only [parseU64, throws (not_lt.mp bounded), bounded, if_false]
    rfl

/-- The stored number is the meant one in these cases only. -/
theorem stored_eq_meantWidth_iff
    (value : Int) :
    (if value.natAbs < 2 ^ 64 then value % 2 ^ 32 else 0) =
        meantWidth value ↔
      (0 ≤ value ∧ value < 2 ^ 32) ∨
        2 ^ 64 ≤ value.natAbs ∨ (2 ^ 32 : Int) ∣ value := by
  unfold meantWidth
  by_cases fits : 0 ≤ value ∧ value < 2 ^ 32
  · have bounded : value.natAbs < 2 ^ 64 := by
      omega
    have same : value % 2 ^ 32 = value :=
      Int.emod_eq_of_lt fits.1 fits.2
    rw [if_pos bounded, if_pos fits, same]
    exact iff_of_true rfl (Or.inl fits)
  · rw [if_neg fits, or_iff_right fits]
    by_cases bounded : value.natAbs < 2 ^ 64
    · rw [if_pos bounded, or_iff_right (not_le.mpr bounded)]
      exact Int.dvd_iff_emod_eq_zero.symm
    · rw [if_neg bounded]
      exact iff_of_true rfl (Or.inl (not_lt.mp bounded))

/-- What an entry of `vars` declares: nothing, or a variable with its name. -/
theorem parseVar_cases
    {serviceName : String}
    {varItem : Yaml}
    {parsed : Option Var}
    (parses : parseVar serviceName varItem = .ok parsed) :
    (varItem.child? "var" = none ∧ parsed = none) ∨
      ∃ varName var,
        varItem.child? "var" = some (.scalar varName) ∧
          parsed = some var ∧
            var.name = serviceName ++ "::" ++ varName ∧
              parseSize varItem = .ok var.size := by
  unfold parseVar at parses
  split at parses
  next unnamed =>
    exact Or.inl ⟨unnamed, (pure_eq_ok_iff.mp parses).symm⟩
  next nameNode isNamed =>
    obtain ⟨varName, isText, sized⟩ := bind_eq_ok_iff.mp parses
    obtain ⟨size, isSize, constrained⟩ := bind_eq_ok_iff.mp sized
    have isScalar : nameNode = .scalar varName := by
      cases nameNode with
      | scalar text =>
          cases isText
          rfl
      | seq items =>
          cases isText
      | map entries =>
          cases isText
    subst isScalar
    refine Or.inr ⟨varName, ?_⟩
    split at constrained
    all_goals
      obtain ⟨expected, -, declares⟩ := bind_eq_ok_iff.mp constrained
      exact ⟨_, isNamed, (pure_eq_ok_iff.mp declares).symm, rfl, isSize⟩

/-- Variables declared by entries of other names have other names. -/
theorem name_ne_of_declares
    {serviceName varName : String}
    {items : List Yaml}
    (others :
      ∀ item ∈ items, item.child? "var" ≠ some (.scalar varName))
    {declared : List (List Var)}
    (declares :
      List.Forall₂
        (fun item vars => declaredByVar serviceName item = .ok vars)
        items declared)
    {var : Var}
    (member : var ∈ declared.flatten) :
    var.name ≠ serviceName ++ "::" ++ varName := by
  obtain ⟨vars, varsMember, isIn⟩ := List.mem_flatten.mp member
  induction declares with
  | nil =>
      simp at varsMember
  | @cons item vars' items' declared' isDeclared rest inductionHypothesis =>
      rcases List.mem_cons.mp varsMember with rfl | inRest
      · simp only [declaredByVar, bind_eq_ok_iff, pure_eq_ok_iff]
          at isDeclared
        obtain ⟨parsed, isParsed, rfl⟩ := isDeclared
        have isSome : parsed = some var := by
          simpa using isIn
        subst isSome
        rcases parseVar_cases isParsed with
          ⟨-, isNone⟩ | ⟨other, _, named, declares, isName, -⟩
        · cases isNone
        · cases declares
          rw [isName]
          intro same
          have sameText : other = varName := by
            simpa using same
          exact others item List.mem_cons_self (sameText ▸ named)
      · exact inductionHypothesis
          (fun later laterMember =>
            others later (List.mem_cons_of_mem item laterMember))
          (List.mem_flatten.mpr ⟨vars, inRest, isIn⟩) inRest

/--
An entry of `vars` that is the first of its name in a document, where nothing
is stored under that name yet.
-/
structure FirstOfName
    (serviceName : String)
    (root : Yaml)
    (varDb : Database Var)
    (varItem : Yaml)
    (varName : String) : Prop where
  named : varItem.child? "var" = some (.scalar varName)
  fresh : varDb.getElement (serviceName ++ "::" ++ varName) = none
  first :
    ∃ before after,
      root.listed "vars" = before ++ varItem :: after ∧
        ∀ earlier ∈ before, earlier.child? "var" ≠ some (.scalar varName)

/-- The variable of such an entry is the one that is stored. -/
theorem getParsedProtocolVars_stores
    {serviceName : String}
    {root : Yaml}
    {varDb stored : Database Var}
    (loads : getParsedProtocolVars serviceName root varDb = .ok stored)
    {varItem : Yaml}
    {varName : String}
    (isFirst : FirstOfName serviceName root varDb varItem varName) :
    ∃ var,
      parseVar serviceName varItem = .ok (some var) ∧
        stored.getElement (serviceName ++ "::" ++ varName) = some var := by
  obtain ⟨before, after, listed, others⟩ := isFirst.first
  simp only [getParsedProtocolVars_eq, declaredVars, listed,
    List.mapM_append, List.mapM_cons, bind_eq_ok_iff, pure_eq_ok_iff]
    at loads
  obtain ⟨_, ⟨_, ⟨earlier, isEarlier, _, ⟨vars, isDeclared, later, -, rfl⟩,
    rfl⟩, rfl⟩, rfl⟩ := loads
  simp only [declaredByVar, bind_eq_ok_iff, pure_eq_ok_iff] at isDeclared
  obtain ⟨parsed, isParsed, rfl⟩ := isDeclared
  rcases parseVar_cases isParsed with
    ⟨unnamed, -⟩ | ⟨other, var, named, rfl, isName, -⟩
  · rw [isFirst.named] at unnamed
    cases unnamed
  · have sameText : other = varName := by
      simpa [isFirst.named] using named.symm
    rw [sameText] at isName
    have qualified : serviceName ++ "::" ++ varName ≠ "" := by
      simp
    have notEarlier :
        earlier.flatten.find?
            (fun var => var.name = serviceName ++ "::" ++ varName) =
          none := by
      apply List.find?_eq_none.mpr
      intro found member
      simpa using
        name_ne_of_declares others (mapM_eq_ok_iff.mp isEarlier) member
    refine ⟨var, isParsed, ?_⟩
    rw [Database.getElement_addAll, isFirst.fresh, Option.none_or,
      Database.firstNamed, if_neg qualified, List.flatten_append,
      List.find?_append, notEarlier, Option.none_or]
    simp [isName]

/--
The width stored for a literal is the meant one exactly if the literal fits 32
bits, is too large for the conversion, or is a multiple of `2^32`.
-/
theorem stored_width_meant_iff
    {serviceName : String}
    {root : Yaml}
    {varDb stored : Database Var}
    (loads : getParsedProtocolVars serviceName root varDb = .ok stored)
    {varItem : Yaml}
    {varName text : String}
    {value : Int}
    (isFirst : FirstOfName serviceName root varDb varItem varName)
    (sized : varItem.child? "size" = some (.scalar text))
    (literal : integerLiteral? text = some value) :
    (∃ var,
        stored.getElement (serviceName ++ "::" ++ varName) = some var ∧
          (var.size.toNat : Int) = meantWidth value) ↔
      (0 ≤ value ∧ value < 2 ^ 32) ∨
        2 ^ 64 ≤ value.natAbs ∨ (2 ^ 32 : Int) ∣ value := by
  obtain ⟨var, isParsed, isStored⟩ :=
    getParsedProtocolVars_stores loads isFirst
  have width :
      (var.size.toNat : Int) =
        if value.natAbs < 2 ^ 64 then value % 2 ^ 32 else 0 := by
    rcases parseVar_cases isParsed with
      ⟨-, isNone⟩ | ⟨_, _, _, declares, _, isSize⟩
    · cases isNone
    · cases declares
      simp only [parseSize, sized] at isSize
      have isWidth : (parseU64 text 0).toUInt32 = var.size :=
        Except.ok.inj isSize
      rw [← isWidth]
      exact toNat_parseU64_toUInt32 literal
  rw [← stored_eq_meantWidth_iff, ← width]
  constructor
  · rintro ⟨other, isOther, meant⟩
    rw [isStored] at isOther
    cases isOther
    exact meant
  · intro meant
    exact ⟨var, isStored, meant⟩

/-- An entry of a variable `x` with a size. -/
def sizedVar
    (text : String) : Yaml :=
  .map [("var", .scalar "x"), ("size", .scalar text)]

/-- A document with this entry only. -/
def sizedDocument
    (text : String) : Yaml :=
  .map [("service", .scalar "svc"), ("vars", .seq [sizedVar text])]

/-- The entry is the first of its name. -/
private theorem sizedVar_first
    (text : String) :
    FirstOfName "svc" (sizedDocument text) .empty (sizedVar text) "x" where
  named := rfl
  fresh := rfl
  first := ⟨[], [], rfl, fun _ member => absurd member List.not_mem_nil⟩

theorem stored_width_meant_hexadecimal :
    ∃ stored,
      getParsedProtocolVars "svc" (sizedDocument "0x30") .empty =
          .ok stored ∧
        ((∃ var,
            stored.getElement "svc::x" = some var ∧
              (var.size.toNat : Int) = meantWidth 48) ↔
          (0 ≤ (48 : Int) ∧ (48 : Int) < 2 ^ 32) ∨
            2 ^ 64 ≤ (48 : Int).natAbs ∨ (2 ^ 32 : Int) ∣ 48) := by
  refine ⟨_, rfl, ?_⟩
  exact @stored_width_meant_iff "svc" (sizedDocument "0x30") .empty _ rfl
    _ _ _ _ (sizedVar_first "0x30") rfl (by decide)

/-- A width of `2^32 + 8` is stored as 8. -/
theorem wide_literal_narrowed :
    ¬ ∀ (serviceName : String) (root : Yaml) (varDb stored : Database Var)
        (varItem : Yaml) (varName text : String) (value : Int),
      getParsedProtocolVars serviceName root varDb = .ok stored →
        FirstOfName serviceName root varDb varItem varName →
          varItem.child? "size" = some (.scalar text) →
            integerLiteral? text = some value →
              ∃ var,
                stored.getElement (serviceName ++ "::" ++ varName) =
                    some var ∧
                  (var.size.toNat : Int) = meantWidth value := by
  intro always
  obtain ⟨var, isStored, meant⟩ :=
    always "svc" (sizedDocument "4294967304") .empty _ _ _ "4294967304"
      4294967304 rfl (sizedVar_first "4294967304") rfl (by decide)
  have width : var.size = 8 := by
    cases isStored
    decide
  rw [width] at meant
  exact absurd meant (by decide)

end TsnGen.Protocol
