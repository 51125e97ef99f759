import Mathlib.Data.String.Basic
import TsnGen.OrderedMap

namespace TsnGen

/-!
# Parsed protocol definitions

The data that a parsed protocol directory leaves in memory: variables with
their value constraints, interfaces with their ordered variable references,
services, and the name-keyed databases that hold them.

A `std::string` is a `String` whose characters stand for its bytes, and
`size_t` counters are natural numbers: they count bits and bytes of buffers
that exist in memory.
-/

/-- Inclusive integer range constraint. -/
structure Range where
  min : UInt64
  max : UInt64
  deriving Repr, DecidableEq

/--
A field declaration.  An empty `expectedValues` list and a zero `mask` mean
that the respective constraint is absent.
-/
structure Var where
  name : String
  size : UInt32
  expectedValues : List UInt64
  range : Option Range
  mask : UInt64
  deriving Repr, DecidableEq

namespace Var

/-- A bitmask constraint is defined exactly when it is non-zero. -/
def hasMask
    (var : Var) : Bool :=
  var.mask != 0

end Var

/-- Direction of an interface seen from the protocol entity. -/
inductive IfDirections where
  | IN
  | OUT
  deriving Repr, DecidableEq

/-- A named interface with its variable references in wire order. -/
structure ProtocolInterface where
  name : String
  direction : IfDirections
  varRefs : List String
  deriving Repr, DecidableEq

/-- Per-service metadata; an empty `logicName` means no logic module. -/
structure ProtocolService where
  name : String
  logicName : String
  deriving Repr, DecidableEq

/-- Result codes of the database operations. -/
inductive DatabaseErr where
  | success
  | unknown
  | invalidInput
  | unexpected
  | entryAlreadyExists
  | entryNotFound
  deriving Repr, DecidableEq

/-- Named elements without duplicates, iterated in key order. -/
structure Database (α : Type) where
  internalMaps : OrderedMap String α

namespace Database

/-- The database a parser starts with. -/
def empty : Database α where
  internalMaps := .empty

/-- Look an element up by name. -/
def getElement
    (database : Database α)
    (name : String) : Option α :=
  database.internalMaps.find? name

/-- Add an element under a fresh non-empty name. -/
def addUniqueElement
    (database : Database α)
    (name : String)
    (element : α) : DatabaseErr × Database α :=
  if name = "" then
    (.invalidInput, database)
  else if (database.internalMaps.find? name).isSome then
    (.entryAlreadyExists, database)
  else
    (.success, { internalMaps := database.internalMaps.emplace name element })

/-- Names and elements in key order, as `forEach` visits them. -/
def entries
    (database : Database α) : List (String × α) :=
  database.internalMaps.entries

/-- Looked-up elements are entries of the database. -/
theorem mem_of_getElement_eq_some
    {database : Database α}
    {name : String}
    {element : α}
    (found : database.getElement name = some element) :
    (name, element) ∈ database.entries :=
  OrderedMap.mem_of_find?_eq_some found

end Database

/-- Position of the last occurrence of a pattern, as `std::string::rfind`. -/
def rfind?
    (pattern : List Char) :
    List Char → Option Nat
  | [] =>
      if pattern.isEmpty then some 0 else none
  | letter :: rest =>
      match rfind? pattern rest with
      | some position => some (position + 1)
      | none =>
          if pattern.isPrefixOf (letter :: rest) then some 0 else none

/-- A pattern is found exactly in the texts that contain it. -/
theorem rfind?_isSome_iff
    {pattern text : List Char} :
    (rfind? pattern text).isSome = true ↔ pattern <:+: text := by
  induction text with
  | nil =>
      cases pattern with
      | nil =>
          simp [rfind?]
      | cons letter rest =>
          simp [rfind?]
  | cons letter rest inductionHypothesis =>
      rw [List.infix_cons_iff, ← inductionHypothesis,
        ← List.isPrefixOf_iff_prefix, rfind?]
      cases rfind? pattern rest with
      | some position =>
          simp
      | none =>
          by_cases starts : pattern.isPrefixOf (letter :: rest) = true
          · simp [starts]
          · simp [starts]

/-- The part of a qualified name behind its last `::`. -/
def shortName
    (ref : String) : String :=
  match rfind? "::".toList ref.toList with
  | some position => String.ofList (ref.toList.drop (position + 2))
  | none => ref

example : shortName "ethernet_mac_frame::ethertype" = "ethertype" := by
  decide

/--
Every declared width stays below `2^31`, where the bit loops' signed counter
still counts the whole field.
-/
def NarrowWidths
    (varDb : Database Var) : Prop :=
  ∀ entry ∈ varDb.entries, entry.2.size.toNat < 2 ^ 31

instance
    (varDb : Database Var) :
    Decidable (NarrowWidths varDb) :=
  inferInstanceAs
    (Decidable (∀ entry ∈ varDb.entries, entry.2.size.toNat < 2 ^ 31))

/-- Narrow databases resolve every reference to a narrow variable. -/
theorem NarrowWidths.size_lt
    {varDb : Database Var}
    (narrow : NarrowWidths varDb)
    {ref : String}
    {var : Var}
    (resolved : varDb.getElement ref = some var) :
    var.size.toNat < 2 ^ 31 :=
  narrow _ (Database.mem_of_getElement_eq_some resolved)

/--
The fields an interface puts on the wire: its resolved references of non-zero
width, by short name and in declaration order.
-/
def layout
    (varDb : Database Var)
    (refs : List String) : List (String × Var) :=
  refs.filterMap fun ref =>
    match varDb.getElement ref with
    | none => none
    | some var => if var.size = 0 then none else some (shortName ref, var)

/-- A wire field stands behind a resolved reference of non-zero width. -/
theorem mem_layout_iff
    {varDb : Database Var}
    {refs : List String}
    {name : String}
    {var : Var} :
    (name, var) ∈ layout varDb refs ↔
      ∃ ref ∈ refs,
        shortName ref = name ∧
          varDb.getElement ref = some var ∧ var.size ≠ 0 := by
  simp only [layout, List.mem_filterMap]
  constructor
  · rintro ⟨ref, member, kept⟩
    cases resolved : varDb.getElement ref with
    | none =>
        simp [resolved] at kept
    | some found =>
        by_cases empty : found.size = 0
        · simp [resolved, empty] at kept
        · simp only [resolved, empty, ↓reduceIte, Option.some.injEq,
            Prod.mk.injEq] at kept
          obtain ⟨named, rfl⟩ := kept
          exact ⟨ref, member, named, resolved, empty⟩
  · rintro ⟨ref, member, named, resolved, wide⟩
    exact ⟨ref, member, by simp [resolved, wide, named]⟩

end TsnGen
