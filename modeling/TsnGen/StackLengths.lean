import TsnGen.StackHistory
import TsnGen.StackOwnership

namespace TsnGen

open BitBuffer PacketBuilder

/-!
# The AECP control data length

The length is computed before packing, from context sizes reached through the
pointer chain.  On a clean stack with narrow widths every context size is the
number of bytes its layer is packed to, so what the hook writes counts what the
frame holds behind the field.
-/

/-- Declared bits of a list of fields. -/
def totalBits
    (fields : List Field) : Nat :=
  (fields.map fun field => field.bits.toNat).sum

/-- The bits of a list of fields are those of its shape. -/
theorem totalBits_eq
    (fields : List Field) :
    totalBits fields = PacketDecoder.shapeBits (shapeOf fields) := by
  simp [totalBits, PacketDecoder.shapeBits, shapeOf, Function.comp_def]

/-- Fields that are packed with their declared, non-zero width. -/
def WireSized
    (fields : List Field) : Prop :=
  ∀ field ∈ fields, field.bits.toNat < 2 ^ 31 ∧ field.bits ≠ 0

/-- Being wire-sized is a matter of the shape. -/
theorem WireSized.of_shape
    {fields others : List Field}
    (sized : WireSized fields)
    (sameShape : shapeOf others = shapeOf fields) :
    WireSized others := by
  intro field member
  have inShape : (field.name, field.bits) ∈ shapeOf others :=
    List.mem_map.mpr ⟨field, member, rfl⟩
  rw [sameShape] at inShape
  obtain ⟨original, originalMember, same⟩ := List.mem_map.mp inShape
  rw [Prod.mk.injEq] at same
  rw [← same.2]
  exact sized original originalMember

/-- A width found by name is that of a variable, or zero. -/
theorem NarrowWidths.declaredWidth_lt
    {varDb : Database Var}
    (narrow : NarrowWidths varDb)
    (name : String)
    (refs : List String) :
    (Session.declaredWidth varDb name refs).toNat < 2 ^ 31 := by
  induction refs with
  | nil =>
      simp [Session.declaredWidth]
  | cons ref rest inductionHypothesis =>
      unfold Session.declaredWidth
      split
      · cases resolved : varDb.getElement ref with
        | none =>
            decide
        | some var =>
            exact narrow.size_lt resolved
      · exact inductionHypothesis

/-- Loaded fields are wire-sized. -/
theorem NarrowWidths.wireSized_populated
    {varDb : Database Var}
    (narrow : NarrowWidths varDb)
    (refs : List String)
    (fieldValues : List (String × UInt64)) :
    WireSized (Session.populated varDb refs fieldValues) := by
  intro field member
  obtain ⟨_, found, width⟩ := Session.mem_populated member
  rw [width]
  exact ⟨narrow.declaredWidth_lt _ _, found⟩

/-- On clean views every drawn context is wire-sized. -/
theorem LayerView.wireSized_drawContexts
    {varDb : Database Var}
    (narrow : NarrowWidths varDb)
    {views : List LayerView}
    (clean :
      ∀ view ∈ views, view.iface = none → view.context.fields = [])
    (rng : Rng G)
    (engine : G) :
    ∀ ctx ∈ (LayerView.drawContexts rng varDb views engine).1,
      WireSized ctx.fields := by
  induction views generalizing engine with
  | nil =>
      simp [LayerView.drawContexts]
  | cons view rest inductionHypothesis =>
      have later :=
        inductionHypothesis fun other member =>
          clean other (by simp [member])
      cases resolved : view.iface with
      | none =>
          simp only [LayerView.drawContexts, resolved, List.mem_cons,
            forall_eq_or_imp]
          refine ⟨?_, later _⟩
          rw [clean view (by simp) resolved]
          simp [WireSized]
      | some iface =>
          simp only [LayerView.drawContexts, resolved, List.mem_cons,
            forall_eq_or_imp]
          exact ⟨narrow.wireSized_populated _ _, later _⟩

/-- Wire-sized fields put their declared bits on the wire. -/
theorem WireSized.length_wireBits
    {fields : List Field}
    (sized : WireSized fields) :
    (wireBits fields).length = totalBits fields := by
  rw [TsnGen.length_wireBits fun field member => (sized field member).1,
    totalBits_eq]

/-- Wire-sized fields are packed to whole bytes. -/
theorem WireSized.length_packFields
    {fields : List Field}
    (sized : WireSized fields) :
    (packFields fields).length = (totalBits fields + 7) / 8 := by
  rw [(packFields_represents fields).length_eq, sized.length_wireBits]

/-- The size of a context counts the bytes of any packed list of its shape. -/
theorem LayerContext.byteSize_eq_length
    {ctx : LayerContext}
    (sized : WireSized ctx.fields)
    {fields : List Field}
    (sameShape : shapeOf fields = shapeOf ctx.fields) :
    ctx.byteSize = (packFields fields).length := by
  rw [ctx.byteSize_eq, (sized.of_shape sameShape).length_packFields,
    totalBits_eq, sameShape]

/-- The first field of a name, with the fields around it. -/
structure FirstField
    (fields : List Field)
    (name : String)
    (before : List Field)
    (field : Field)
    (after : List Field) : Prop where
  split : fields = before ++ field :: after
  named : field.name = name
  first : ∀ earlier ∈ before, earlier.name ≠ name

/-- Reading a name reads its first field. -/
theorem FirstField.readFirst_eq
    {fields before after : List Field}
    {name : String}
    {field : Field}
    (found : FirstField fields name before field after) :
    readFirst name fields = some field.value := by
  obtain ⟨rfl, named, first⟩ := found
  induction before with
  | nil =>
      simp [readFirst, named]
  | cons earlier rest inductionHypothesis =>
      have different : earlier.name ≠ name := first earlier (by simp)
      simp only [List.cons_append, readFirst, different, ↓reduceIte]
      exact inductionHypothesis fun later member =>
        first later (by simp [member])

/-- What the AECP hook leaves in the first length field. -/
theorem LogicKind.encoded_length
    {contexts : List LayerContext}
    {ctx : LayerContext}
    {before after : List Field}
    {field : Field}
    (found :
      FirstField (LogicKind.aecpAem.encoded contexts ctx)
        "control_data_length" before field after) :
    field.value =
      UInt64.ofNat
        ((totalBits after + 7) / 8 + ctx.bytesAbove contexts) := by
  have counted :
      ctx.bytesAfter AecpAemLogic.kControlDataLength =
        some ((totalBits after + 7) / 8) := by
    have onResult :=
      LayerContext.bytesAfter_eq_some
        { ctx with fields := LogicKind.aecpAem.encoded contexts ctx }
        found.split found.named found.first
    have sameCount :=
      LayerContext.bytesAfter_of_shape ctx
        (LogicKind.shapeOf_encoded .aecpAem contexts ctx)
        "control_data_length"
    rw [totalBits_eq, ← onResult, sameCount]
    rfl
  have written :
      ("control_data_length",
        UInt64.ofNat
          ((totalBits after + 7) / 8 + ctx.bytesAbove contexts)) ∈
        LogicKind.aecpAem.writes contexts ctx := by
    rw [LogicKind.writes, List.mem_append, LogicKind.lengthWrites, counted]
    exact Or.inl (List.mem_singleton.mpr rfl)
  have readBack :=
    readFirst_writeAll_of_mem
      (LogicKind.aecpAem.writes_nodup contexts ctx) written ctx.fields
  have readResult := found.readFirst_eq
  rw [LogicKind.encoded, readBack] at readResult
  obtain ⟨_, _, same⟩ := Option.map_eq_some_iff.mp readResult
  exact same.symm

namespace Stack

/-- On a clean stack every context of a generation is wire-sized. -/
theorem Clean.wireSized_load
    {session : Session}
    {stack : Stack}
    (clean : stack.Clean session)
    (narrow : NarrowWidths session.varDb)
    (rng : Rng G)
    (engine : G) :
    ∀ ctx ∈ (stack.load session rng engine).contexts,
      WireSized ctx.fields := by
  rw [load_contexts]
  exact LayerView.wireSized_drawContexts narrow clean rng engine

/-- On a clean stack `bytesAbove` counts the frame behind a layer. -/
theorem Clean.bytesAbove_eq
    {session : Session}
    {stack : Stack}
    (clean : stack.Clean session)
    (narrow : NarrowWidths session.varDb)
    (rng : Rng G)
    (engine : G)
    {index : Nat}
    {layer : StackLayer}
    (layerAt :
      (stack.load session rng engine).layers[index]? = some layer) :
    layer.context.bytesAbove (stack.load session rng engine).contexts =
      bytesBehind (stack.generateStack session rng engine).packet index := by
  have sized := clean.wireSized_load narrow rng engine
  have packetLayers :
      (stack.generateStack session rng engine).packet.layers.map
          (fun packed => packed.2.bytes.length) =
        (stack.load session rng engine).contexts.map
          LayerContext.byteSize := by
    have packed :
        (stack.generateStack session rng engine).packet =
          packRows (stack.generateStack session rng engine).stack.rows :=
      rfl
    rw [packed, rows, generateStack_layers]
    simp only [packRows, contexts, List.map_map]
    apply List.map_congr_left
    intro other member
    have otherSized : WireSized other.context.fields :=
      sized _ (List.mem_map_of_mem member)
    simp only [Function.comp_apply]
    rw [LayerContext.byteSize_eq_length otherSized]
    simp
  rw [(stack.load session rng engine).bytesAbove_eq layerAt, bytesBehind,
    List.map_drop, List.map_drop, packetLayers]

end Stack

/--
Octets behind a field of a frame: the fields after it in its layer, padded up,
and what the layers above contribute.
-/
def octetsBehind
    (packet : StackedPacket)
    (index : Nat)
    (after : List Field) : Nat :=
  (totalBits after + 7) / 8 + bytesBehind packet index

/-- Frame position of the first bit of a field. -/
def fieldStart
    (packet : StackedPacket)
    (index : Nat)
    (before : List Field) : Nat :=
  8 * bytesBefore packet index + totalBits before

/--
A length field of a frame counts the octets behind it: it is reported with
that number, its bits are the number modulo its width, and where the fields
after it fill whole bytes the number is that of the frame bytes after the byte
in which the field ends.
-/
structure CountsOctets
    (packet : StackedPacket)
    (index : Nat)
    (before : List Field)
    (field : Field)
    (after : List Field) : Prop where
  reported :
    ∃ serviceName packed,
      packet.layers[index]? = some (serviceName, packed) ∧
        packed.fields[before.length]? = some (field.name, field.value)
  value_eq :
    field.value.toNat = octetsBehind packet index after
  bits_eq :
    ∀ position, position < field.bits.toNat →
      getBit packet.bytes (fieldStart packet index before + position) =
        (octetsBehind packet index after % 2 ^ field.bits.toNat).testBit
          (field.bits.toNat - 1 - position)
  ends_frame :
    8 ∣ totalBits after →
      (fieldStart packet index before + field.bits.toNat - 1) / 8 + 1 +
          octetsBehind packet index after =
        packet.bytes.length

/-- A wire-sized field that holds the octets behind it counts them. -/
theorem countsOctets_of_value
    {rows : List (String × List Field)}
    {index : Nat}
    {row : String × List Field}
    (rowAt : rows[index]? = some row)
    (sized : WireSized row.2)
    {before after : List Field}
    {field : Field}
    (split : row.2 = before ++ field :: after)
    (addressable : (packRows rows).bytes.length < 2 ^ 64)
    (value :
      field.value =
        UInt64.ofNat (octetsBehind (packRows rows) index after)) :
    CountsOctets (packRows rows) index before field after := by
  have fieldSized : field.bits.toNat < 2 ^ 31 ∧ field.bits ≠ 0 :=
    sized field (by simp [split])
  have positive : 0 < field.bits.toNat := by
    rw [Nat.pos_iff_ne_zero]
    intro zero
    exact fieldSized.2 (UInt32.toNat_inj.mp zero)
  have beforeSized : WireSized before :=
    fun earlier member => sized earlier (by simp [split, member])
  have rowLength :
      (packFields row.2).length =
        (totalBits before + field.bits.toNat + totalBits after + 7) / 8 := by
    rw [sized.length_packFields, split]
    simp [totalBits, Nat.add_assoc]
  have frameLength :
      (packRows rows).bytes.length =
        bytesBefore (packRows rows) index + (packFields row.2).length +
          bytesBehind (packRows rows) index := by
    obtain ⟨front, back, whole, frontLength, backLength⟩ :=
      packRows_bytes_split rowAt
    rw [whole, ← frontLength, ← backLength]
    simp [Nat.add_assoc]
  have numeral :
      field.value.toNat = octetsBehind (packRows rows) index after := by
    rw [value]
    apply UInt64.toNat_ofNat_of_lt'
    simp only [octetsBehind, UInt64.size]
    omega
  constructor
  · refine ⟨row.1,
      { bytes := packFields row.2, fields := reported row.2 }, ?_, ?_⟩
    · simp [packRows, rowAt]
    · simp [reported, split]
  · exact numeral
  · intro position inside
    have insideRow :
        totalBits before + position < 8 * (packFields row.2).length := by
      omega
    have counted := loopCount_eq_toNat fieldSized.1
    have below :
        field.bits.toNat - 1 - position < field.bits.toNat := by
      omega
    rw [fieldStart, Nat.add_assoc, getBit_packRows rowAt insideRow, split,
      ← beforeSized.length_wireBits, getBit_packFields (counted.symm ▸ inside), counted,
      ← numeral, Nat.testBit_mod_two_pow]
    simp [below]
  · intro whole
    simp only [fieldStart, octetsBehind]
    omega

/--
The control data length is the true length.  In every frame generated by a
stack of any modules, at any point of its history, each layer bound to the AECP
module counts in its first `control_data_length` field the octets behind that
field.

The frame's length is a `size_t`, hence below `2^64`.
-/
theorem Stack.control_data_length_counts_octets
    {G : Type}
    (session : Session)
    (narrow : NarrowWidths session.varDb)
    (rng : Rng G)
    (built : Stack)
    (fresh : built.Fresh)
    (history : List (Operation G))
    (engine : G)
    {run : Generated G}
    (generated :
      (built.performAll session rng history).generateStack
        session rng engine = run)
    (addressable : run.packet.bytes.length < 2 ^ 64)
    {index : Nat}
    {layer : StackLayer}
    (layerAt : run.stack.layers[index]? = some layer)
    (isAecp : layer.logic.kind = .aecpAem)
    {before after : List Field}
    {field : Field}
    (found :
      FirstField layer.context.fields "control_data_length"
        before field after) :
    CountsOctets run.packet index before field after := by
  have clean := (fresh.clean session).performAll rng history
  generalize built.performAll session rng history = stack
    at generated clean
  subst generated
  rw [generateStack_layers, List.getElem?_map,
    Option.map_eq_some_iff] at layerAt
  obtain ⟨loaded, loadedAt, rfl⟩ := layerAt
  have kind : loaded.logic.kind = .aecpAem := by
    simpa [StackLayer.encode] using isAecp
  rw [StackLayer.encode_fields, kind] at found
  have rowAt :=
    getElem?_rows_generateStack session rng stack engine index
  simp only [loadedAt, Option.map_some, kind] at rowAt
  apply countsOctets_of_value rowAt _ found.split addressable
  · have value := LogicKind.encoded_length found
    rw [clean.bytesAbove_eq narrow rng engine loadedAt] at value
    exact value
  · apply WireSized.of_shape _ (LogicKind.shapeOf_encoded _ _ _)
    exact clean.wireSized_load narrow rng engine _
      (List.mem_map_of_mem (List.mem_of_getElem? loadedAt))

theorem Stack.control_data_length_command :
    CountsOctets
      (freshCommandStack.generateStack commandSession
        (Rng.constant 6) ()).packet 3
      [{ name := "message_type", value := 6, bits := 4 }]
      { name := "control_data_length", value := 2, bits := 11 }
      [{ name := "flags", value := 6, bits := 16 }] :=
  control_data_length_counts_octets commandSession (by decide +kernel)
    (Rng.constant 6) freshCommandStack freshCommandStack_fresh [] () rfl
    (by decide +kernel) rfl rfl ⟨rfl, rfl, by decide⟩

end TsnGen
