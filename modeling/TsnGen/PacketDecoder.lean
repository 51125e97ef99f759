import TsnGen.PacketBuilder

namespace TsnGen

open BitBuffer

/-!
# Decoding packets

`PacketDecoder` reads the fields of an interface back from a byte buffer.  The
decoder recomputes every position from the declared widths; the codec theorem
below shows that a packed field list placed anywhere in a frame is read back
field by field, each value as its width carried it.
-/

namespace PacketDecoder

/-- Bytes of one layer: the declared bits, padded to a byte boundary. -/
def layerBytes
    (iface : ProtocolInterface)
    (varDb : Database Var) : Nat :=
  let totalBits :=
    iface.varRefs.foldl
      (fun total ref =>
        match varDb.getElement ref with
        | none => total
        | some var => total + var.size.toNat)
      0
  (totalBits + 7) / 8

/-- One iteration over the variable references. -/
def decodeStep
    (varDb : Database Var)
    (bytes : List UInt8)
    (state : List (String × UInt64) × Nat)
    (ref : String) : List (String × UInt64) × Nat :=
  match varDb.getElement ref with
  | none => state
  | some var =>
      if var.size = 0 then
        state
      else
        let extracted := extractBits bytes state.2 var.size
        (state.1 ++ [(shortName ref, extracted.1)], extracted.2)

/-- Decode a buffer from a byte offset into the fields of an interface. -/
def decode
    (iface : ProtocolInterface)
    (varDb : Database Var)
    (bytes : List UInt8)
    (byteOffset : Nat) : BuiltPacket :=
  let fields :=
    (iface.varRefs.foldl (decodeStep varDb bytes) ([], byteOffset * 8)).1
  let layerLen := layerBytes iface varDb
  let stop := min (byteOffset + layerLen) bytes.length
  { bytes :=
      if byteOffset < stop then
        (bytes.drop byteOffset).take (stop - byteOffset)
      else
        []
    fields := fields }

/-- Read fields of given names and widths, one behind the other. -/
def readFields
    (bytes : List UInt8) :
    List (String × UInt32) → Nat → List (String × UInt64)
  | [], _ => []
  | (name, bits) :: rest, bitOffset =>
      let extracted := extractBits bytes bitOffset bits
      (name, extracted.1) :: readFields bytes rest extracted.2

/-- Names and declared widths of an interface's wire fields. -/
def declaredShape
    (varDb : Database Var)
    (refs : List String) : List (String × UInt32) :=
  (layout varDb refs).map fun entry => (entry.1, entry.2.size)

/-- Total width of a list of named widths. -/
def shapeBits
    (shape : List (String × UInt32)) : Nat :=
  (shape.map fun entry => entry.2.toNat).sum

/-- The layer length counts the wire fields; other references add no bits. -/
theorem layerBytes_eq
    (iface : ProtocolInterface)
    (varDb : Database Var) :
    layerBytes iface varDb =
      (shapeBits (declaredShape varDb iface.varRefs) + 7) / 8 := by
  have general :
      ∀ (refs : List String) (total : Nat),
        refs.foldl
            (fun total ref =>
              match varDb.getElement ref with
              | none => total
              | some var => total + var.size.toNat)
            total =
          total + shapeBits (declaredShape varDb refs) := by
    intro refs
    induction refs with
    | nil =>
        intro total
        rfl
    | cons ref rest inductionHypothesis =>
        intro total
        rw [List.foldl_cons, inductionHypothesis]
        cases resolved : varDb.getElement ref with
        | none =>
            simp [declaredShape, layout, resolved]
        | some var =>
            by_cases empty : var.size = 0
            · simp [declaredShape, layout, resolved, empty]
            · simp [declaredShape, layout, resolved, empty, shapeBits,
                Nat.add_assoc]
  simp [layerBytes, general]

/-- The slice of a decoded layer is cut off where the buffer ends. -/
theorem decode_bytes
    (iface : ProtocolInterface)
    (varDb : Database Var)
    (bytes : List UInt8)
    (byteOffset : Nat) :
    (decode iface varDb bytes byteOffset).bytes =
      (bytes.drop byteOffset).take (layerBytes iface varDb) := by
  simp only [decode]
  split
  next inside =>
    by_cases whole : byteOffset + layerBytes iface varDb ≤ bytes.length
    · rw [Nat.min_eq_left whole, Nat.add_sub_cancel_left]
    · rw [Nat.min_eq_right (by omega)]
      rw [List.take_of_length_le (by simp),
        List.take_of_length_le (by simp; omega)]
  next outside =>
    by_cases beyond : bytes.length ≤ byteOffset
    · simp [List.drop_eq_nil_of_le beyond]
    · have empty : layerBytes iface varDb = 0 := by
        omega
      simp [empty]

/-- Decoding reads the declared fields from the layer's first bit on. -/
theorem decode_fields
    (iface : ProtocolInterface)
    (varDb : Database Var)
    (bytes : List UInt8)
    (byteOffset : Nat) :
    (decode iface varDb bytes byteOffset).fields =
      readFields bytes (declaredShape varDb iface.varRefs)
        (byteOffset * 8) := by
  have general :
      ∀ (refs : List String)
        (state : List (String × UInt64) × Nat),
        (refs.foldl (decodeStep varDb bytes) state).1 =
          state.1 ++
            readFields bytes (declaredShape varDb refs) state.2 := by
    intro refs
    induction refs with
    | nil =>
        intro state
        simp [declaredShape, layout, readFields]
    | cons ref rest inductionHypothesis =>
        intro state
        rw [List.foldl_cons, inductionHypothesis]
        cases resolved : varDb.getElement ref with
        | none =>
            simp [decodeStep, declaredShape, layout, resolved]
        | some var =>
            by_cases empty : var.size = 0
            · simp [decodeStep, declaredShape, layout, resolved, empty]
            · simp [decodeStep, declaredShape, layout, resolved, empty,
                readFields]
  simp [decode, general]

/--
Where a buffer holds the wire bits of a field list, reading its shape returns
every field with the value its width carried.
-/
theorem readFields_of_wireBits
    {bytes : List UInt8}
    (fields : List Field)
    (narrow : ∀ field ∈ fields, field.bits.toNat < 2 ^ 31)
    {bitOffset : Nat}
    (held :
      ∀ position, position < (wireBits fields).length →
        getBit bytes (bitOffset + position) =
          (wireBits fields)[position]?.getD false) :
    readFields bytes (shapeOf fields) bitOffset = carried fields := by
  induction fields generalizing bitOffset with
  | nil =>
      rfl
  | cons field rest inductionHypothesis =>
      have fieldNarrow : field.bits.toNat < 2 ^ 31 :=
        narrow field (by simp)
      have counted : loopCount field.bits = field.bits.toNat :=
        loopCount_eq_toNat fieldNarrow
      have split :
          wireBits (field :: rest) =
            msbBits field.value.toNat field.bits.toNat ++
              wireBits rest := by
        simp [wireBits, counted]
      have headValue :
          (extractBits bytes bitOffset field.bits).1 =
            wireValue field.value field.bits := by
        apply extractBits_of_msbBits fieldNarrow
        intro position inside
        have insideHead :
            position <
              (msbBits field.value.toNat field.bits.toNat).length := by
          simpa using inside
        rw [held position (by rw [split]; simp; omega), split,
          List.getElem?_append_left insideHead, getElem?_msbBits]
        simp [inside]
      have tailHeld :
          ∀ position, position < (wireBits rest).length →
            getBit bytes (bitOffset + field.bits.toNat + position) =
              (wireBits rest)[position]?.getD false := by
        intro position inside
        have atPosition :=
          held (field.bits.toNat + position)
            (by rw [split]; simp; omega)
        rw [split, List.getElem?_append_right (by simp)] at atPosition
        simpa [Nat.add_assoc] using atPosition
      have tailFields :=
        inductionHypothesis
          (fun later member => narrow later (by simp [member]))
          tailHeld
      simp only [shapeOf, carried] at tailFields
      simp [shapeOf, carried, readFields, headValue,
        extractBits_offset, counted, tailFields]

end PacketDecoder

/-- Narrow fields put exactly their declared widths on the wire. -/
theorem length_wireBits
    {fields : List Field}
    (narrow : ∀ field ∈ fields, field.bits.toNat < 2 ^ 31) :
    (wireBits fields).length =
      PacketDecoder.shapeBits (shapeOf fields) := by
  induction fields with
  | nil =>
      rfl
  | cons field rest inductionHypothesis =>
      have tail :=
        inductionHypothesis
          (fun later member => narrow later (by simp [member]))
      simp only [wireBits, shapeOf, PacketDecoder.shapeBits] at tail
      simp [wireBits, shapeOf, PacketDecoder.shapeBits, tail,
        loopCount_eq_toNat (narrow field (by simp))]

/-- Narrow databases declare narrow wire fields only. -/
theorem NarrowWidths.declaredShape
    {varDb : Database Var}
    (narrow : NarrowWidths varDb)
    {refs : List String}
    {entry : String × UInt32}
    (member : entry ∈ PacketDecoder.declaredShape varDb refs) :
    entry.2.toNat < 2 ^ 31 := by
  obtain ⟨⟨name, var⟩, entryMember, rfl⟩ := List.mem_map.mp member
  obtain ⟨_, _, _, resolved, _⟩ := mem_layout_iff.mp entryMember
  exact narrow.size_lt resolved

section Codec

variable
    {iface : ProtocolInterface}
    {varDb : Database Var}
    (narrow : NarrowWidths varDb)
    {fields : List Field}
    (shape :
      shapeOf fields =
        PacketDecoder.declaredShape varDb iface.varRefs)

include narrow shape

/-- Fields of declared shape are narrow when the database is. -/
theorem narrow_of_shape :
    ∀ field ∈ fields, field.bits.toNat < 2 ^ 31 := by
  intro field member
  have inShape : (field.name, field.bits) ∈ shapeOf fields :=
    List.mem_map.mpr ⟨field, member, rfl⟩
  rw [shape] at inShape
  exact narrow.declaredShape inShape

/-- A packed field list is as long as its interface declares. -/
theorem length_packFields :
    (PacketBuilder.packFields fields).length =
      PacketDecoder.layerBytes iface varDb := by
  rw [(PacketBuilder.packFields_represents fields).length_eq,
    length_wireBits (narrow_of_shape narrow shape), shape,
    PacketDecoder.layerBytes_eq]

/--
Codec theorem: a packed field list with the declared shape of an interface,
placed anywhere in a frame, decodes to its own bytes and carried values.
-/
theorem decode_packed
    (front back : List UInt8) :
    PacketDecoder.decode iface varDb
        (front ++ PacketBuilder.packFields fields ++ back)
        front.length =
      { bytes := PacketBuilder.packFields fields
        fields := carried fields } := by
  have represents := PacketBuilder.packFields_represents fields
  have sameBytes :
      (PacketDecoder.decode iface varDb
        (front ++ PacketBuilder.packFields fields ++ back)
        front.length).bytes = PacketBuilder.packFields fields := by
    rw [PacketDecoder.decode_bytes, List.append_assoc, List.drop_left,
      ← length_packFields narrow shape, List.take_left]
  have sameFields :
      (PacketDecoder.decode iface varDb
        (front ++ PacketBuilder.packFields fields ++ back)
        front.length).fields = carried fields := by
    rw [PacketDecoder.decode_fields, ← shape]
    apply PacketDecoder.readFields_of_wireBits fields
      (narrow_of_shape narrow shape)
    intro position inside
    have insideBytes :
        position < 8 * (PacketBuilder.packFields fields).length :=
      lt_of_lt_of_le inside represents.bits_length_le
    rw [List.append_assoc, Nat.mul_comm,
      BitBuffer.getBit_append_right,
      BitBuffer.getBit_append_left back insideBytes,
      represents.getBit_eq]
  exact BuiltPacket.ext sameBytes sameFields

/-- A packed field list alone in its buffer decodes to itself. -/
theorem decode_packed_alone :
    PacketDecoder.decode iface varDb
        (PacketBuilder.packFields fields) 0 =
      { bytes := PacketBuilder.packFields fields
        fields := carried fields } := by
  simpa using decode_packed narrow shape [] []

end Codec

/--
A received packet matches a sent one when it has the sent bytes and field
names in order, and each value is the sent value modulo `2^min(width, 64)` for
the declared width of that field.
-/
structure RoundTrips
    (varDb : Database Var)
    (iface : ProtocolInterface)
    (sent received : BuiltPacket) : Prop where
  bytes_eq :
    received.bytes = sent.bytes
  names_eq :
    received.fields.map Prod.fst = sent.fields.map Prod.fst
  values_eq :
    ∀ (index : Nat) (name : String) (value : UInt64),
      sent.fields[index]? = some (name, value) →
      ∃ (var : Var) (receivedValue : UInt64),
        (layout varDb iface.varRefs)[index]? = some (name, var) ∧
          received.fields[index]? = some (name, receivedValue) ∧
            receivedValue.toNat =
              value.toNat % 2 ^ min var.size.toNat 64

/-- Carried values of a field list of declared shape match its values. -/
theorem RoundTrips.of_shape
    {varDb : Database Var}
    {iface : ProtocolInterface}
    {fields : List Field}
    (shape :
      shapeOf fields =
        PacketDecoder.declaredShape varDb iface.varRefs) :
    RoundTrips varDb iface
      { bytes := PacketBuilder.packFields fields
        fields := reported fields }
      { bytes := PacketBuilder.packFields fields
        fields := carried fields } where
  bytes_eq := rfl
  names_eq := by
    simp [carried, reported]
  values_eq := by
    intro index name value atIndex
    simp only [reported, List.getElem?_map, Option.map_eq_some_iff,
      Prod.mk.injEq] at atIndex
    obtain ⟨field, fieldAt, rfl, rfl⟩ := atIndex
    have shapeAt :
        (PacketDecoder.declaredShape varDb iface.varRefs)[index]? =
          some (field.name, field.bits) := by
      rw [← shape]
      simp [shapeOf, fieldAt]
    simp only [PacketDecoder.declaredShape, List.getElem?_map,
      Option.map_eq_some_iff, Prod.mk.injEq] at shapeAt
    obtain ⟨⟨name, var⟩, entryAt, sameName, sameWidth⟩ := shapeAt
    refine ⟨var, wireValue field.value field.bits, ?_, ?_, ?_⟩
    · rw [entryAt, ← sameName]
    · simp [carried, fieldAt]
    · rw [toNat_wireValue, ← sameWidth]

/--
Decoding undoes building.  Whatever the engine drew and whatever was
overridden, decoding a built packet returns its bytes, its field names in
order, and each value as carried by the declared width of its field.
-/
theorem decode_undoes_build
    {G : Type}
    (rng : Rng G)
    (iface : ProtocolInterface)
    {varDb : Database Var}
    (narrow : NarrowWidths varDb)
    (overrides : Overrides)
    (engine : G)
    {packet : BuiltPacket}
    (built :
      packet =
          (PacketBuilder.buildWithFields rng iface varDb engine).1 ∨
        packet =
          (PacketBuilder.buildWithOverrides
            rng iface varDb overrides engine).1) :
    RoundTrips varDb iface packet
      (PacketDecoder.decode iface varDb packet.bytes 0) := by
  have packed :
      ∃ choose : String → Var → G → UInt64 × G,
        packet =
          (PacketBuilder.buildLoop choose varDb iface.varRefs engine).1 := by
    rcases built with plain | overridden
    · exact ⟨_, plain⟩
    · exact ⟨_, overridden⟩
  obtain ⟨choose, packetShape⟩ := packed
  have shape :=
    PacketBuilder.shapeOf_drawFields choose
      (layout varDb iface.varRefs) engine
  rw [packetShape, PacketBuilder.buildLoop_eq,
    decode_packed_alone narrow shape]
  exact RoundTrips.of_shape shape

/-- Two unaligned variables, one wider than 64 bits, and an empty one. -/
def unalignedVarDb : Database Var :=
  [("svc::flag", 3), ("svc::blob", 70), ("svc::none", 0)].foldl
    (fun varDb entry =>
      (varDb.addUniqueElement entry.1
        { name := entry.1
          size := entry.2
          expectedValues := []
          range := none
          mask := 0 }).2)
    Database.empty

/-- An interface with a repeated, an empty and an unresolved reference. -/
def unalignedInterface : ProtocolInterface where
  name := "svc::E::IF"
  direction := .IN
  varRefs :=
    ["svc::flag", "svc::blob", "svc::none", "ext::missing", "svc::flag"]

theorem decode_undoes_build_unaligned :
    NarrowWidths unalignedVarDb ∧
      RoundTrips unalignedVarDb unalignedInterface
        (PacketBuilder.buildWithOverrides (Rng.constant 5)
          unalignedInterface unalignedVarDb
          (fun name => if name = "flag" then some 6 else none) ()).1
        (PacketDecoder.decode unalignedInterface unalignedVarDb
          (PacketBuilder.buildWithOverrides (Rng.constant 5)
            unalignedInterface unalignedVarDb
            (fun name => if name = "flag" then some 6 else none) ()).1.bytes
          0) :=
  ⟨by decide,
    decode_undoes_build (Rng.constant 5) unalignedInterface
      (by decide) _ () (Or.inr rfl)⟩

end TsnGen
