import TsnGen.BitPacking

namespace TsnGen

open BitBuffer

/-!
# Building packets

`PacketBuilder` draws one value per resolved field of an interface and packs
the values MSB-first.  The random engine is a parameter: an `Rng` is any
engine whose uniform draws stay inside the requested bounds, so a statement
about every `Rng` and every engine state is one about every random outcome.

The two build loops of the source differ only in how a value is chosen.  Both
are reduced here to drawing a list of fields and packing that list.
-/

/--
An engine state together with `std::uniform_int_distribution`: a draw from
`[lo, hi]` returns a member of the interval and the next engine state.
-/
structure Rng (G : Type) where
  draw : Nat → Nat → G → Nat × G
  draw_mem :
    ∀ lo hi engine,
      lo ≤ hi →
      lo ≤ (draw lo hi engine).1 ∧ (draw lo hi engine).1 ≤ hi

/-- An engine that answers every draw with one number where it may. -/
def Rng.constant
    (answer : Nat) : Rng Unit where
  draw lo hi _ :=
    (if lo ≤ answer ∧ answer ≤ hi then answer else lo, ())
  draw_mem := by
    intro lo hi engine ordered
    dsimp only
    split <;> omega

/-- Packet bytes together with the per-field values used to build them. -/
@[ext] structure BuiltPacket where
  bytes : List UInt8
  fields : List (String × UInt64)
  deriving Repr, DecidableEq

/-- An override map from short field names to values. -/
abbrev Overrides := String → Option UInt64

/-- Assignment through `operator[]` replaces the value of a name. -/
def Overrides.assign
    (overrides : Overrides)
    (field : String × UInt64) : Overrides :=
  fun name => if name = field.1 then some field.2 else overrides name

/-- Names and values of a field list, without the widths. -/
def reported
    (fields : List Field) : List (String × UInt64) :=
  fields.map fun field => (field.name, field.value)

/-- Names and widths of a field list, without the values. -/
def shapeOf
    (fields : List Field) : List (String × UInt32) :=
  fields.map fun field => (field.name, field.bits)

/-- Names of a field list with the values its widths let through. -/
def carried
    (fields : List Field) : List (String × UInt64) :=
  fields.map fun field => (field.name, wireValue field.value field.bits)

/-- The bit string a field list puts on the wire, before padding. -/
def wireBits
    (fields : List Field) : List Bool :=
  fields.flatMap fun field =>
    msbBits field.value.toNat (loopCount field.bits)

namespace PacketBuilder

/-- The largest value of a field: `2^size - 1`, capped at 64 bits. -/
def maxVal
    (size : UInt32) : UInt64 :=
  if size ≥ 64 then
    UInt64.ofNat (2 ^ 64 - 1)
  else
    (1 <<< UInt64.ofNat size.toNat) - 1

/-- Pick one value for a single variable according to its constraints. -/
def pickValue
    (rng : Rng G)
    (var : Var)
    (engine : G) : UInt64 × G :=
  if var.expectedValues ≠ [] then
    let drawn := rng.draw 0 (var.expectedValues.length - 1) engine
    (var.expectedValues.getD drawn.1 0, drawn.2)
  else
    match var.range with
    | some range =>
        let lo := if range.min ≤ range.max then range.min else range.max
        let hi := if range.min ≤ range.max then range.max else range.min
        let drawn := rng.draw lo.toNat hi.toNat engine
        (UInt64.ofNat drawn.1, drawn.2)
    | none =>
        if var.size = 0 then
          (0, engine)
        else
          let drawn := rng.draw 0 (maxVal var.size).toNat engine
          let value := UInt64.ofNat drawn.1
          (if var.hasMask then value &&& var.mask else value, drawn.2)

/-- Choose a value when overrides are present: expected values win. -/
def overrideValue
    (rng : Rng G)
    (overrides : Overrides)
    (shortName : String)
    (var : Var)
    (engine : G) : UInt64 × G :=
  if var.expectedValues ≠ [] then
    pickValue rng var engine
  else
    match overrides shortName with
    | some value =>
        (if var.hasMask then value &&& var.mask else value, engine)
    | none => pickValue rng var engine

/-- Loop state of the two build functions. -/
structure BuildState (G : Type) where
  result : BuiltPacket
  bitOffset : Nat
  engine : G

/--
One iteration over the variable references.  Unresolved references and
zero-width variables are skipped.
-/
def buildStep
    (choose : String → Var → G → UInt64 × G)
    (varDb : Database Var)
    (state : BuildState G)
    (ref : String) : BuildState G :=
  match varDb.getElement ref with
  | none => state
  | some var =>
      if var.size = 0 then
        state
      else
        let chosen := choose (shortName ref) var state.engine
        let appended :=
          appendBits state.result.bytes state.bitOffset chosen.1 var.size
        { result := {
            bytes := appended.1
            fields := state.result.fields ++ [(shortName ref, chosen.1)] }
          bitOffset := appended.2
          engine := chosen.2 }

/-- The loop shared by the build functions, from an empty packet. -/
def buildLoop
    (choose : String → Var → G → UInt64 × G)
    (varDb : Database Var)
    (refs : List String)
    (engine : G) : BuiltPacket × G :=
  let final :=
    refs.foldl (buildStep choose varDb)
      { result := { bytes := [], fields := [] }
        bitOffset := 0
        engine := engine }
  (final.result, final.engine)

/-- Build one packet with every value drawn by its constraints. -/
def buildWithFields
    (rng : Rng G)
    (iface : ProtocolInterface)
    (varDb : Database Var)
    (engine : G) : BuiltPacket × G :=
  buildLoop (fun _ var => pickValue rng var) varDb iface.varRefs engine

/-- The bytes alone of one packet. -/
def build
    (rng : Rng G)
    (iface : ProtocolInterface)
    (varDb : Database Var)
    (engine : G) : List UInt8 × G :=
  let built := buildWithFields rng iface varDb engine
  (built.1.bytes, built.2)

/-- Build one packet, taking values from the overrides where allowed. -/
def buildWithOverrides
    (rng : Rng G)
    (iface : ProtocolInterface)
    (varDb : Database Var)
    (overrides : Overrides)
    (engine : G) : BuiltPacket × G :=
  buildLoop (overrideValue rng overrides) varDb iface.varRefs engine

/-- Choose the values of a layout in order, threading the engine. -/
def drawFields
    (choose : String → Var → G → UInt64 × G) :
    List (String × Var) → G → List Field × G
  | [], engine => ([], engine)
  | (name, var) :: rest, engine =>
      let chosen := choose name var engine
      let later := drawFields choose rest chosen.2
      ({ name := name, value := chosen.1, bits := var.size } :: later.1,
        later.2)

/-- Drawing fixes values only: names and widths are those of the layout. -/
theorem shapeOf_drawFields
    (choose : String → Var → G → UInt64 × G)
    (fields : List (String × Var))
    (engine : G) :
    shapeOf (drawFields choose fields engine).1 =
      fields.map fun entry => (entry.1, entry.2.size) := by
  induction fields generalizing engine with
  | nil =>
      rfl
  | cons entry rest inductionHypothesis =>
      simp only [shapeOf] at inductionHypothesis
      simp [drawFields, shapeOf, inductionHypothesis]

/-- Append a list of fields to a partly filled buffer. -/
def packFrom
    (state : List UInt8 × Nat)
    (fields : List Field) : List UInt8 × Nat :=
  fields.foldl
    (fun packed field =>
      appendBits packed.1 packed.2 field.value field.bits)
    state

/-- Pack a list of fields into a fresh buffer. -/
def packFields
    (fields : List Field) : List UInt8 :=
  (packFrom ([], 0) fields).1

/-- Packing a field list extends the represented string by its wire bits. -/
theorem packFrom_represents
    (fields : List Field)
    {buf : List UInt8}
    {bits : List Bool}
    (represents : Represents buf bits) :
    Represents (packFrom (buf, bits.length) fields).1
      (bits ++ wireBits fields) := by
  induction fields generalizing buf bits with
  | nil =>
      simpa [packFrom, wireBits] using represents
  | cons field rest inductionHypothesis =>
      obtain ⟨extended, moved⟩ :=
        appendBits_represents represents field.value field.bits
      have later := inductionHypothesis extended
      have sameOffset :
          (bits ++ msbBits field.value.toNat (loopCount field.bits)).length =
            (appendBits buf bits.length field.value field.bits).2 := by
        rw [moved]
        simp
      rw [sameOffset] at later
      simpa [packFrom, wireBits] using later

/-- A packed buffer represents exactly the wire bits of its fields. -/
theorem packFields_represents
    (fields : List Field) :
    Represents (packFields fields) (wireBits fields) := by
  simpa [packFields] using packFrom_represents fields Represents.nil

/-- Both build loops draw the interface's layout and pack what was drawn. -/
theorem buildLoop_eq
    (choose : String → Var → G → UInt64 × G)
    (varDb : Database Var)
    (refs : List String)
    (engine : G) :
    buildLoop choose varDb refs engine =
      ({ bytes :=
            packFields (drawFields choose (layout varDb refs) engine).1
         fields :=
            reported (drawFields choose (layout varDb refs) engine).1 },
        (drawFields choose (layout varDb refs) engine).2) := by
  have general :
      ∀ (state : BuildState G),
        refs.foldl (buildStep choose varDb) state =
          let drawn := drawFields choose (layout varDb refs) state.engine
          let packed :=
            packFrom (state.result.bytes, state.bitOffset) drawn.1
          { result := {
              bytes := packed.1
              fields := state.result.fields ++ reported drawn.1 }
            bitOffset := packed.2
            engine := drawn.2 } := by
    induction refs with
    | nil =>
        intro state
        simp [layout, drawFields, packFrom, reported]
    | cons ref rest inductionHypothesis =>
        intro state
        rw [List.foldl_cons, inductionHypothesis]
        cases resolved : varDb.getElement ref with
        | none =>
            simp [buildStep, layout, resolved]
        | some var =>
            by_cases empty : var.size = 0
            · simp [buildStep, layout, resolved, empty]
            · simp [buildStep, layout, resolved, empty, drawFields,
                packFrom, reported]
  simp [buildLoop, general, packFields]

/-- A plainly built packet packs the drawn fields of its layout. -/
theorem buildWithFields_eq
    (rng : Rng G)
    (iface : ProtocolInterface)
    (varDb : Database Var)
    (engine : G) :
    buildWithFields rng iface varDb engine =
      ({ bytes :=
            packFields (drawFields (fun _ var => pickValue rng var)
              (layout varDb iface.varRefs) engine).1
         fields :=
            reported (drawFields (fun _ var => pickValue rng var)
              (layout varDb iface.varRefs) engine).1 },
        (drawFields (fun _ var => pickValue rng var)
          (layout varDb iface.varRefs) engine).2) :=
  buildLoop_eq _ varDb iface.varRefs engine

end PacketBuilder

end TsnGen
