import TsnGen.CaptureRoundTrip
import TsnGen.DemuxCheck
import TsnGen.StackLengths
import TsnGen.ValueConstraints

namespace TsnGen

open PacketBuilder

/-!
# Frames obey the rules of their layers

What the shipped modules are for can be said without their hooks, of what is
read off the wire: an Ethernet layer names a protocol, an AVTP layer carries the
subtype of the family above it and no stream bits, an AECP layer counts the
octets behind its length field and gives commands no status.  Every frame of
every run with a stack file obeys these rules, in whatever order layers and
rounds come.
-/

/-- Fields as their widths carry them. -/
def onWire
    (fields : List Field) : List Field :=
  fields.map fun field =>
    { field with value := wireValue field.value field.bits }

/-- What is carried is what is reported of the fields on the wire. -/
theorem reported_onWire
    (fields : List Field) :
    reported (onWire fields) = carried fields := by
  simp [reported, onWire, carried, Function.comp_def]

/-- The wire changes values only. -/
@[simp] theorem shapeOf_onWire
    (fields : List Field) :
    shapeOf (onWire fields) = shapeOf fields := by
  simp [shapeOf, onWire, Function.comp_def]

/-- Rows as their widths carry them. -/
def wireRows
    (rows : List (String × List Field)) : List (String × List Field) :=
  rows.map fun row => (row.1, onWire row.2)

/-- Rows on the wire are as long as they were. -/
@[simp] theorem length_packRows_wireRows
    (rows : List (String × List Field)) :
    (packRows (wireRows rows)).bytes.length =
      (packRows rows).bytes.length := by
  apply length_packRows_of_shapes
  simp [wireRows, Function.comp_def]

/-- The first field of a name on the wire is the first one of that name. -/
theorem FirstField.of_onWire
    {fields before after : List Field}
    {name : String}
    {field : Field}
    (found : FirstField (onWire fields) name before field after) :
    ∃ front original back,
      FirstField fields name front original back ∧
        field =
            { original with
              value := wireValue original.value original.bits } ∧
          after = onWire back := by
  obtain ⟨split, named, first⟩ := found
  obtain ⟨front, rest, rfl, rfl, isRest⟩ := List.map_eq_append_iff.mp split
  obtain ⟨original, back, rfl, rfl, rfl⟩ := List.map_eq_cons_iff.mp isRest
  refine ⟨front, original, back, ⟨rfl, named, ?_⟩, rfl, rfl⟩
  intro earlier member
  exact first
    { earlier with value := wireValue earlier.value earlier.bits }
    (List.mem_map.mpr ⟨earlier, member, rfl⟩)

/-- The subtype of the service family that is carried. -/
def familySubtype?
    (serviceName : String) : Option UInt64 :=
  if startsWith serviceName "atdecc_aecp" then
    some 0xFB
  else if startsWith serviceName "atdecc_adp" then
    some 0xFA
  else
    none

/-- Where a name occurs first, it shows a value, cut to its width. -/
def Says
    (fields : List Field)
    (name : String)
    (value : UInt64) : Prop :=
  ∀ before field after,
    FirstField fields name before field after →
      field.value = wireValue value field.bits

/-- An Ethernet layer does not leave its ethertype zero. -/
def NamesProtocol
    (fields : List Field) : Prop :=
  ∀ before field after,
    FirstField fields "ethertype" before field after → field.value ≠ 0

/-- An AVTP layer tells the family above and is a control message. -/
structure IsControl
    (above : List (String × List Field))
    (fields : List Field) : Prop where
  subtype :
    ∀ row ∈ above.head?, ∀ subtype ∈ familySubtype? row.1,
      Says fields "subtype" subtype
  sv : Says fields "sv" 0
  version : Says fields "version" 0
  reserved : Says fields "reserved" 0

/-- An AECP layer counts the octets behind its length, and commands succeed. -/
structure IsCounted
    (above : List (String × List Field))
    (fields : List Field) : Prop where
  length :
    ∀ before field after,
      FirstField fields "control_data_length" before field after →
        field.value =
          wireValue
            (UInt64.ofNat
              ((totalBits after + 7) / 8 + (packRows above).bytes.length))
            field.bits
  status :
    ∀ before field after,
      FirstField fields "message_type" before field after →
        field.value.toNat % 2 = 0 → Says fields "status" 0

/--
The ethertypes of a layer have room for that of IEEE 1722 and are declared with
values that they have room for.
-/
def LayerView.LeavesRoom
    (varDb : Database Var)
    (view : LayerView) : Prop :=
  ∀ iface ∈ view.iface, ∀ entry ∈ layout varDb iface.varRefs,
    entry.1 = "ethertype" →
      5 ≤ entry.2.size.toNat ∧ entry.2.PicksFit

/-- The rule of a module for its layer, below other layers. -/
def LayerView.Rule
    (varDb : Database Var)
    (above : List (String × List Field))
    (fields : List Field)
    (view : LayerView) : Prop :=
  match view.kind with
  | .ethernetFrame => view.LeavesRoom varDb → NamesProtocol fields
  | .avtpControl => IsControl above fields
  | .aecpAem => IsCounted above fields
  | .passthrough => True

/-- Every layer of a frame obeys the rule of its module. -/
def Conforms
    (varDb : Database Var)
    (views : List LayerView)
    (rows : List (String × List Field)) : Prop :=
  ∀ (index : Nat) (view : LayerView) (row : String × List Field),
    views[index]? = some view →
      rows[index]? = some row →
        view.Rule varDb (rows.drop (index + 1)) row.2

/-- Fields whose ethertypes fit and have room for that of IEEE 1722. -/
def Roomy
    (fields : List Field) : Prop :=
  ∀ field ∈ fields,
    field.name = "ethertype" →
      5 ≤ field.bits.toNat ∧
        field.value.toNat < 2 ^ min field.bits.toNat 64

/-- A value that fits is carried as it is. -/
theorem wireValue_of_fits
    {value : UInt64}
    {bits : UInt32}
    (fits : value.toNat < 2 ^ min bits.toNat 64) :
    wireValue value bits = value := by
  rw [← UInt64.toNat_inj, toNat_wireValue]
  exact Nat.mod_eq_of_lt fits

/-- Five bits carry something of the ethertype of IEEE 1722. -/
theorem wireValue_kEthertype1722_ne_zero
    {bits : UInt32}
    (room : 5 ≤ bits.toNat) :
    wireValue EthernetFrameLogic.kEthertype1722 bits ≠ 0 := by
  intro zero
  have nothing :=
    (toNat_wireValue EthernetFrameLogic.kEthertype1722 bits).symm.trans
      (congrArg UInt64.toNat zero)
  have five :
      2 ^ 5 ∣ EthernetFrameLogic.kEthertype1722.toNat :=
    (pow_dvd_pow 2 (by omega)).trans (Nat.dvd_of_mod_eq_zero nothing)
  exact absurd five (by decide)

/-- A width that is not zero carries the lowest bit. -/
theorem wireValue_mod_two
    (value : UInt64)
    {bits : UInt32}
    (wide : bits ≠ 0) :
    (wireValue value bits).toNat % 2 = value.toNat % 2 := by
  have positive : bits.toNat ≠ 0 := by
    intro zero
    exact wide (UInt32.toNat_inj.mp zero)
  have even : 2 ∣ 2 ^ min bits.toNat 64 :=
    dvd_pow_self 2 (by omega)
  rw [toNat_wireValue, Nat.mod_mod_of_dvd _ even]

/-- The bits of a list of fields are those of the wire. -/
theorem totalBits_onWire
    (fields : List Field) :
    totalBits (onWire fields) = totalBits fields := by
  rw [totalBits_eq, totalBits_eq, shapeOf_onWire]

namespace LogicKind

variable {contexts : List LayerContext}
variable {ctx : LayerContext}

/-- What a hook writes to a name is what the name holds. -/
theorem value_of_written
    {kind : LogicKind}
    {name : String}
    {value : UInt64}
    (written : (name, value) ∈ kind.writes contexts ctx)
    {before after : List Field}
    {field : Field}
    (found :
      FirstField (kind.encoded contexts ctx) name before field after) :
    field.value = value := by
  have isFirst := found.readFirst_eq
  rw [encoded, readFirst_writeAll_of_mem (kind.writes_nodup contexts ctx)
    written] at isFirst
  obtain ⟨_, _, same⟩ := Option.map_eq_some_iff.mp isFirst
  exact same.symm

/-- What a hook writes to a name is what the wire shows of it. -/
theorem says_encoded
    {kind : LogicKind}
    {name : String}
    {value : UInt64}
    (written : (name, value) ∈ kind.writes contexts ctx) :
    Says (onWire (kind.encoded contexts ctx)) name value := by
  intro before field after found
  obtain ⟨front, original, back, isFirst, rfl, -⟩ := found.of_onWire
  rw [value_of_written written isFirst]

/-- The Ethernet hook names a protocol where there is room for it. -/
theorem namesProtocol_encoded
    (roomy : Roomy ctx.fields) :
    NamesProtocol
      (onWire (LogicKind.ethernetFrame.encoded contexts ctx)) := by
  intro before field after found
  obtain ⟨front, original, back, isFirst, rfl, -⟩ := found.of_onWire
  by_cases unset : (ctx.getValue "ethertype").getD 0 = 0
  · have written :
        ("ethertype", EthernetFrameLogic.kEthertype1722) ∈
          LogicKind.ethernetFrame.writes contexts ctx := by
      rw [writes, if_pos unset]
      exact List.mem_singleton.mpr rfl
    have inShape :
        (original.name, original.bits) ∈
          shapeOf (LogicKind.ethernetFrame.encoded contexts ctx) :=
      List.mem_map.mpr ⟨original, by simp [isFirst.split], rfl⟩
    rw [shapeOf_encoded] at inShape
    obtain ⟨loaded, member, same⟩ := List.mem_map.mp inShape
    rw [Prod.mk.injEq] at same
    obtain ⟨room, -⟩ :=
      roomy loaded member (same.1.trans isFirst.named)
    rw [value_of_written written isFirst, ← same.2]
    exact wireValue_kEthertype1722_ne_zero room
  · have untouched :
        LogicKind.ethernetFrame.encoded contexts ctx = ctx.fields := by
      rw [encoded, writes, if_neg unset, writeAll, List.foldl_nil]
    rw [untouched] at isFirst
    obtain ⟨-, fits⟩ :=
      roomy original (by simp [isFirst.split]) isFirst.named
    rw [wireValue_of_fits fits]
    rw [LayerContext.getValue, isFirst.readFirst_eq] at unset
    exact unset

/-- The AVTP hook tells the family that its context reaches. -/
theorem isControl_encoded
    {above : List (String × List Field)}
    (carries :
      (LayerContext.deref contexts ctx.upper).map
          LayerContext.serviceName =
        above.head?.map Prod.fst) :
    IsControl above
      (onWire (LogicKind.avtpControl.encoded contexts ctx)) := by
  constructor
  · intro row isAbove subtype family
    rw [Option.mem_def.mp isAbove, Option.map_some] at carries
    obtain ⟨up, isUp, sameName⟩ := Option.map_eq_some_iff.mp carries
    apply says_encoded
    rw [writes, List.mem_append]
    have selected :
        AvtpControlLogic.subtypeForUpper contexts ctx ≠ 0 ∧
          (AvtpControlLogic.subtypeForUpper contexts ctx).toUInt64 =
            subtype := by
      rw [AvtpControlLogic.subtypeForUpper, isUp]
      dsimp only
      rw [sameName]
      rw [familySubtype?] at family
      split at family
      next aecp =>
        cases family
        rw [if_pos aecp]
        decide
      next notAecp =>
        split at family
        next adp =>
          cases family
          rw [if_neg notAecp, if_pos adp]
          decide
        next =>
          cases family
    left
    rw [if_pos selected.1, selected.2]
    exact List.mem_singleton.mpr rfl
  · exact says_encoded (by simp [writes])
  · exact says_encoded (by simp [writes])
  · exact says_encoded (by simp [writes])

/-- The AECP hook counts what its context reaches and clears the status. -/
theorem isCounted_encoded
    {above : List (String × List Field)}
    (sized : WireSized ctx.fields)
    (counts :
      ctx.bytesAbove contexts = (packRows above).bytes.length) :
    IsCounted above
      (onWire (LogicKind.aecpAem.encoded contexts ctx)) := by
  constructor
  · intro before field after found
    obtain ⟨front, original, back, isFirst, rfl, rfl⟩ := found.of_onWire
    rw [totalBits_onWire, encoded_length isFirst, counts]
  · intro before field after found even
    obtain ⟨front, original, back, isFirst, rfl, -⟩ := found.of_onWire
    have wide : original.bits ≠ 0 :=
      ((sized.of_shape (shapeOf_encoded .aecpAem contexts ctx)) original
        (by simp [isFirst.split])).2
    rw [wireValue_mod_two _ wide] at even
    have isEven : original.value % 2 = 0 := by
      rw [← UInt64.toNat_inj, UInt64.toNat_mod]
      exact even
    have absent :
        "message_type" ∉
          (LogicKind.aecpAem.writes contexts ctx).map Prod.fst := by
      intro member
      have named :=
        (LogicKind.aecpAem.writes_sublist contexts ctx).subset member
      simp [owned] at named
    have isType := isFirst.readFirst_eq
    rw [encoded, readFirst_writeAll_of_not_mem absent] at isType
    apply says_encoded
    rw [writes, List.mem_append, statusWrites, LayerContext.getValue]
    right
    rw [AecpAemLogic.kMessageType, isType]
    dsimp only
    rw [if_pos isEven]
    exact List.mem_singleton.mpr rfl

end LogicKind

/-- A drawn field belongs to an entry and holds a value chosen for it. -/
theorem mem_drawFields
    {choose : String → Var → G → UInt64 × G}
    {entries : List (String × Var)}
    {engine : G}
    {field : Field}
    (member : field ∈ (drawFields choose entries engine).1) :
    ∃ entry ∈ entries, ∃ before,
      field =
        { name := entry.1
          value := (choose entry.1 entry.2 before).1
          bits := entry.2.size } := by
  induction entries generalizing engine with
  | nil =>
      cases member
  | cons entry rest inductionHypothesis =>
      rcases List.mem_cons.mp member with isHead | inRest
      · exact ⟨entry, List.mem_cons_self, engine, isHead⟩
      · obtain ⟨other, inEntries, before, isField⟩ :=
          inductionHypothesis inRest
        exact ⟨other, List.mem_cons_of_mem _ inEntries, before, isField⟩

/-- Layers that leave room are loaded with ethertypes that fit. -/
theorem LayerView.roomy_drawContexts
    {varDb : Database Var}
    {views : List LayerView}
    (clean :
      ∀ view ∈ views, view.iface = none → view.context.fields = [])
    (agree :
      ∀ view ∈ views, ∀ iface ∈ view.iface,
        WidthsAgree varDb iface.varRefs)
    (rng : Rng G)
    (engine : G) :
    List.Forall₂
      (fun view ctx => view.LeavesRoom varDb → Roomy ctx.fields) views
      (LayerView.drawContexts rng varDb views engine).1 := by
  induction views generalizing engine with
  | nil =>
      exact .nil
  | cons view rest inductionHypothesis =>
      have later (engine : G) :=
        inductionHypothesis
          (fun other member => clean other (List.mem_cons_of_mem _ member))
          (fun other member => agree other (List.mem_cons_of_mem _ member))
          engine
      cases resolved : view.iface with
      | none =>
          simp only [LayerView.drawContexts, resolved]
          refine .cons (fun _ field member => ?_) (later _)
          rw [clean view List.mem_cons_self resolved] at member
          cases member
      | some iface =>
          simp only [LayerView.drawContexts, resolved]
          refine .cons (fun leaves field member named => ?_) (later _)
          dsimp only at member
          rw [(agree view List.mem_cons_self iface
            resolved).populated_reported (shapeOf_drawFields _ _ _)]
            at member
          obtain ⟨entry, inLayout, before, rfl⟩ := mem_drawFields member
          obtain ⟨room, picksFit⟩ :=
            leaves iface resolved entry inLayout named
          exact ⟨room, entry.2.picksFit_iff.mp picksFit _
            (pickValue_pickable rng entry.2 before)⟩

namespace Stack

/-- Whether a stack is named can be seen from outside. -/
theorem named_iff_views
    (session : Session)
    (stack : Stack) :
    stack.Named ↔
      ∀ view ∈ stack.views session,
        view.context.serviceName = view.serviceName := by
  rw [views, List.forall_mem_map]
  refine forall₂_congr fun layer _ => ?_
  cases resolved : session.interfaceForLayer layer with
  | none =>
      simp [StackLayer.Named, StackLayer.view, resolved]
  | some iface =>
      simp [StackLayer.Named, StackLayer.view, resolved,
        LayerContext.clearFields]

/-- Stacks that look the same are named alike. -/
theorem Named.of_views
    {session : Session}
    {stack other : Stack}
    (named : stack.Named)
    (same : other.views session = stack.views session) :
    other.Named := by
  rw [named_iff_views session, same, ← named_iff_views session]
  exact named

/-- What a generation packs above a layer. -/
theorem bytesBehind_generateStack
    (session : Session)
    (rng : Rng G)
    (stack : Stack)
    (engine : G)
    (index : Nat) :
    let made := stack.generateStack session rng engine
    bytesBehind made.packet index =
      (packRows (made.stack.rows.drop (index + 1))).bytes.length := by
  intro made
  have packed : made.packet = packRows made.stack.rows :=
    rfl
  rw [packed, bytesBehind, packRows, packRows]
  simp only [← List.map_drop, List.map_map, List.length_flatMap]
  rfl

/-- The rows a generation packs are the encoded contexts of its views. -/
theorem rows_generateStack
    (session : Session)
    (rng : Rng G)
    (stack : Stack)
    (engine : G) :
    (stack.generateStack session rng engine).stack.rows =
      LayerView.encodedRows (stack.views session)
        (LayerView.drawContexts rng session.varDb (stack.views session)
          engine).1 := by
  have tags :
      ((stack.views session).map fun view => (view.serviceName, view.kind)) =
        (stack.load session rng engine).layers.map fun layer =>
          (layer.serviceName, layer.logic.kind) := by
    have loadedTags :=
      congrArg
        (List.map fun tag : String × LogicModule => (tag.1, tag.2.kind))
        (session.map_tags_loadLayers rng stack.layers engine)
    simp only [List.map_map, Function.comp_def] at loadedTags
    simp only [Stack.views, List.map_map, Function.comp_def,
      StackLayer.view]
    exact loadedTags.symm
  rw [Stack.rows, Stack.generateStack_layers, ← Stack.load_contexts,
    LayerView.encodedRows_eq, tags, Stack.contexts, List.zipWith_map,
    List.zipWith_self]
  simp only [List.map_map, Function.comp_def, StackLayer.encode_fields]
  rfl

/-- Whether short names are distinct can be seen from outside. -/
theorem distinctNames_iff_views
    (session : Session)
    (stack : Stack) :
    stack.DistinctNames session ↔
      ∀ view ∈ stack.views session,
        ∀ iface ∈ view.iface, (iface.varRefs.map shortName).Nodup := by
  rw [Stack.views, List.forall_mem_map]
  rfl

/-- Loading keeps the kinds of the modules. -/
theorem kind_of_load
    {session : Session}
    {rng : Rng G}
    {stack : Stack}
    {engine : G}
    {index : Nat}
    {view : LayerView}
    {layer : StackLayer}
    (viewAt : (stack.views session)[index]? = some view)
    (layerAt : (stack.load session rng engine).layers[index]? = some layer) :
    view.kind = layer.logic.kind := by
  have tags :=
    congrArg
      (List.map fun tag : String × LogicModule => tag.2.kind)
      (session.map_tags_loadLayers rng stack.layers engine)
  have kindsAt :=
    congrArg (fun kinds : List LogicKind => kinds[index]?) tags
  have loadedAt :
      (session.loadLayers rng stack.layers engine).1[index]? = some layer :=
    layerAt
  simp only [List.map_map, Function.comp_def, List.getElem?_map, loadedAt]
    at kindsAt
  rw [views, List.getElem?_map, Option.map_eq_some_iff] at viewAt
  obtain ⟨original, originalAt, rfl⟩ := viewAt
  rw [originalAt] at kindsAt
  exact (Option.some.inj kindsAt).symm

/-- The widths of a stack with distinct names agree. -/
theorem DistinctNames.widthsAgree
    {session : Session}
    {stack : Stack}
    (distinct : stack.DistinctNames session) :
    ∀ view ∈ stack.views session, ∀ iface ∈ view.iface,
      WidthsAgree session.varDb iface.varRefs := by
  intro view member iface resolved
  obtain ⟨layer, layerMember, rfl⟩ := List.mem_map.mp member
  exact widthsAgree_of_nodup session.varDb
    (distinct layer layerMember iface resolved)

/-- One generation of a clean named stack conforms on the wire. -/
theorem conforms_generateStack
    {session : Session}
    {stack : Stack}
    (clean : stack.Clean session)
    (named : stack.Named)
    (distinct : stack.DistinctNames session)
    (narrow : NarrowWidths session.varDb)
    (rng : Rng G)
    (engine : G) :
    Conforms session.varDb (stack.views session)
      (wireRows (stack.generateStack session rng engine).stack.rows) := by
  intro index view row viewAt rowAt
  obtain ⟨loaded, isLoaded⟩ :
      ∃ loaded, loaded = stack.load session rng engine :=
    ⟨_, rfl⟩
  have loadedNamed : loaded.Named :=
    named.of_views (isLoaded ▸ views_load session rng stack engine)
  have rowsAt
      (position : Nat) :=
    getElem?_rows_generateStack session rng stack engine position
  simp only [← isLoaded] at rowsAt
  rw [wireRows, List.getElem?_map, rowsAt, Option.map_map,
    Option.map_eq_some_iff] at rowAt
  obtain ⟨layer, layerAt, rfl⟩ := rowAt
  have sameKind : view.kind = layer.logic.kind :=
    kind_of_load viewAt (isLoaded ▸ layerAt)
  have carries :
      (LayerContext.deref loaded.contexts layer.context.upper).map
          LayerContext.serviceName =
        ((wireRows (stack.generateStack session rng engine).stack.rows).drop
          (index + 1)).head?.map Prod.fst := by
    rw [loaded.deref_upper layerAt, List.head?_drop, wireRows,
      List.getElem?_map, rowsAt, contexts, List.getElem?_map]
    cases aboveAt : loaded.layers[index + 1]? with
    | none =>
        rfl
    | some above =>
        exact congrArg some
          (loadedNamed above (List.mem_of_getElem? aboveAt))
  have counts :
      layer.context.bytesAbove loaded.contexts =
        (packRows
          ((wireRows
            (stack.generateStack session rng engine).stack.rows).drop
              (index + 1))).bytes.length := by
    rw [wireRows, ← List.map_drop, ← wireRows, length_packRows_wireRows,
      ← bytesBehind_generateStack, ← clean.bytesAbove_eq narrow rng engine
      (isLoaded ▸ layerAt), isLoaded]
  have contextAt : loaded.contexts[index]? = some layer.context := by
    rw [contexts, List.getElem?_map, layerAt]
    rfl
  have sized : WireSized layer.context.fields := by
    refine clean.wireSized_load narrow rng engine _ ?_
    rw [← isLoaded]
    exact List.mem_of_getElem? contextAt
  have roomy : view.LeavesRoom session.varDb → Roomy layer.context.fields := by
    rw [isLoaded, load_contexts] at contextAt
    obtain ⟨insideViews, rfl⟩ := List.getElem?_eq_some_iff.mp viewAt
    obtain ⟨insideContexts, isContext⟩ :=
      List.getElem?_eq_some_iff.mp contextAt
    rw [← isContext]
    exact (LayerView.roomy_drawContexts clean
      (DistinctNames.widthsAgree distinct) rng engine).get insideViews
        insideContexts
  rw [LayerView.Rule, sameKind]
  dsimp only [Function.comp_apply]
  cases layer.logic.kind with
  | ethernetFrame =>
      exact fun leaves => LogicKind.namesProtocol_encoded (roomy leaves)
  | avtpControl =>
      exact LogicKind.isControl_encoded carries
  | aecpAem =>
      exact LogicKind.isCounted_encoded sized counts
  | passthrough =>
      trivial

end Stack

namespace PacketGen

/-- Effects that are one line and one packet of a conforming frame. -/
def FrameEffects
    (session : Session)
    (built : Stack)
    (jsonOut : Bool)
    (effects : List Effect) : Prop :=
  ∃ rows,
    List.Forall₂ (LayerView.Fits session.varDb) (built.views session) rows ∧
      Conforms session.varDb (built.views session) (wireRows rows) ∧
        effects.flatMap Effect.lines =
            [(Pipeline.stackFile built).builtLine jsonOut (packRows rows)] ∧
          effects.flatMap Effect.packets = [(packRows rows).bytes]

/-- A round of a stack file makes a conforming frame. -/
theorem frameEffects_round
    {session : Session}
    {built : Stack}
    (fresh : built.Fresh)
    (named : built.Named)
    (distinct : built.DistinctNames session)
    (narrow : NarrowWidths session.varDb)
    (rng : Rng G)
    (jsonOut : Bool)
    (state : Pipeline × G)
    (follows : (Pipeline.stackFile built).Follows session state.1) :
    FrameEffects session built jsonOut
        (round session rng jsonOut state).1 ∧
      (Pipeline.stackFile built).Follows session
        (round session rng jsonOut state).2.1 := by
  obtain ⟨current, engine⟩ := state
  obtain ⟨later, rfl, sameViews⟩ := follows
  have clean : later.Clean session := by
    intro view member
    rw [sameViews] at member
    exact fresh.clean session view member
  have laterNamed := named.of_views sameViews
  have laterDistinct : later.DistinctNames session := by
    rw [Stack.distinctNames_iff_views, sameViews,
      ← Stack.distinctNames_iff_views]
    exact distinct
  have conforms :=
    Stack.conforms_generateStack clean laterNamed laterDistinct narrow rng
      engine
  have fits := Stack.fits_generateStack clean laterDistinct rng engine
  rw [← Stack.rows_generateStack] at fits
  rw [sameViews] at conforms fits
  refine ⟨⟨_, fits, conforms, ?_, ?_⟩, _, rfl, ?_⟩
  · simp only [round, stackEffects, Pipeline.builtLine]
    rfl
  · simp only [round, stackEffects]
    rfl
  · rw [clean.views_generateStack rng engine, sameViews]

/-- Rounds that make conforming frames print and hand over one each. -/
theorem exists_frames
    {session : Session}
    {built : Stack}
    {jsonOut : Bool}
    {made : List (List Effect)}
    (all : ∀ effects ∈ made, FrameEffects session built jsonOut effects) :
    ∃ frames : List (List (String × List Field)),
      frames.length = made.length ∧
        (∀ rows ∈ frames,
          List.Forall₂ (LayerView.Fits session.varDb)
              (built.views session) rows ∧
            Conforms session.varDb (built.views session)
              (wireRows rows)) ∧
        made.flatten.flatMap Effect.lines =
            frames.map (fun rows =>
              (Pipeline.stackFile built).builtLine jsonOut
                (packRows rows)) ∧
          made.flatten.flatMap Effect.packets =
            frames.map fun rows => (packRows rows).bytes := by
  induction made with
  | nil =>
      exact ⟨[], rfl, fun _ member => (List.not_mem_nil member).elim, rfl,
        rfl⟩
  | cons effects rest inductionHypothesis =>
      obtain ⟨isFrame, others⟩ := List.forall_mem_cons.mp all
      obtain ⟨rows, fits, conforms, lines, packets⟩ := isFrame
      obtain ⟨frames, count, later, otherLines, otherPackets⟩ :=
        inductionHypothesis others
      refine ⟨rows :: frames, ?_, ?_, ?_, ?_⟩
      · rw [List.length_cons, List.length_cons, count]
      · exact List.forall_mem_cons.mpr ⟨⟨fits, conforms⟩, later⟩
      · rw [List.flatten_cons, List.flatMap_append, lines, otherLines]
        rfl
      · rw [List.flatten_cons, List.flatMap_append, packets, otherPackets]
        rfl

/-- A stack file that is loaded is named. -/
theorem Reaches.named
    {host : Host G S R}
    {arguments : List String}
    {args : Args}
    {session : Session}
    {built : Stack}
    (reaches : Reaches host arguments args session (.stackFile built)) :
    built.Named := by
  obtain ⟨root, isBuilt⟩ := reaches.exists_build
  exact StackBuilder.named_of_build isBuilt

section Sample

/-- A document that declares the ethertype of an Ethernet layer. -/
def frameDocument : Yaml :=
  .map [
    ("service", .scalar "ethernet"),
    ("logic", .scalar "ethernet_mac_frame"),
    ("vars", .seq [
      .map [("var", .scalar "ethertype"), ("size", .scalar "16")]]),
    ("entities", .seq [
      .map [
        ("entity", .scalar "FRAME"),
        ("interfaces", .seq [
          .map [
            ("interface", .scalar "TX"),
            ("dir", .scalar "out"),
            ("vars", .seq [.map [("var_ref", .scalar "ethertype")]])]])]])]

/-- A stack file of that layer. -/
def frameStackDocument : Yaml :=
  .map [
    ("stack", .scalar "frame"),
    ("layers", .seq [.map [("service", .scalar "ethernet")]])]

/-- A loader of both documents. -/
def frameLoader : Loader :=
  { soleLoader with
    parseInArena := fun bytes =>
      some (if bytes = soleText then frameDocument else frameStackDocument) }

/-- What the document declares. -/
def frameDeclared : Protocol.Declarations where
  vars :=
    [{ name := "ethernet::ethertype"
       size := 16
       expectedValues := []
       range := none
       mask := 0 }]
  interfaces :=
    [{ name := "ethernet::FRAME::TX"
       direction := .OUT
       varRefs := ["ethernet::ethertype"] }]
  services := [{ name := "ethernet", logicName := "ethernet_mac_frame" }]

/-- The databases behind the document. -/
def frameSession : Session :=
  (Protocol.Declarations.merge [frameDeclared]).addTo .empty

/-- A host with the document, the stack file and the shipped modules. -/
def frameHost : Host Unit Handed Unit :=
  { soleHost TrafficGenerator.everySecond silence (fun _ _ => [])
      fun _ _ => () with
    loader := frameLoader
    registry := .shipped
    file := fun _ => some [115] }

/-- The stack of the stack file. -/
def frameStack : Stack :=
  .assemble "frame" [
    { Stack.loadedLayer "ethernet" .ethernetFrame [] with
      logicName := "ethernet_mac_frame" }]

/-- Arguments that name the stack file reach its stack. -/
theorem frameHost_reaches :
    Reaches frameHost ["--yaml-dir", "d", "--stack-file", "s", "--count", "2"]
      { yamlDir := "d"
        stackFile := "s"
        count := 2 }
      frameSession (.stackFile frameStack) where
  read := rfl
  noValidation := rfl
  noListing := rfl
  parsed := by
    refine soleFile_parses ?_ (by decide)
    rw [Protocol.declaredByContent_of_whole (by decide) (by decide) rfl]
    rfl
  resolved := by
    rfl

end Sample

/--
Frames conform.  Whatever a run with a stack file prints and hands over, on any
host, until it ends or is cut short, are lines and packets of an initial part of
frames, one per round, whose rows have the layouts of the layers.  On the wire
every layer of them obeys the rule of its module: it names a protocol where its
declaration leaves room for one, tells the family above it or counts the octets
behind its length field.
-/
theorem frames_conform
    {G S R : Type}
    {host : Host G S R}
    (counting : Counting host)
    {arguments : List String}
    {args : Args}
    {session : Session}
    {built : Stack}
    (reaches : Reaches host arguments args session (.stackFile built))
    (generating : args.decode = false)
    (distinct : built.DistinctNames session)
    (narrow : NarrowWidths session.varDb)
    (limit : Nat) :
    let result := main host limit arguments
    ∃ frames : List (List (String × List Field)),
      frames.length = roundsOf args limit ∧
        (∀ rows ∈ frames,
          List.Forall₂ (LayerView.Fits session.varDb)
              (built.views session) rows ∧
            Conforms session.varDb (built.views session)
              (wireRows rows)) ∧
        result.2.stdout <+:
            frames.map (fun rows =>
              (Pipeline.stackFile built).builtLine (args.output = "json")
                (packRows rows)) ∧
          (calls host result.2).map Prod.fst <+:
            frames.map fun rows => (packRows rows).bytes := by
  intro result
  obtain ⟨source, isSource⟩ :
      ∃ source : Pipeline × G,
        source = (.stackFile built, engineOf host args) :=
    ⟨_, rfl⟩
  have starts : (Pipeline.stackFile built).Follows session source.1 := by
    rw [isSource]
    exact Pipeline.Follows.refl session _
  obtain ⟨made, count, all, isMade⟩ :=
    Rounds.exists_made
      (fun state : Pipeline × G =>
        (Pipeline.stackFile built).Follows session state.1)
      (FrameEffects session built (args.output = "json"))
      (frameEffects_round reaches.fresh reaches.named distinct narrow
        host.rng _)
      (roundsOf args limit) starts
  have effects :
      effectsOf host args session (.stackFile built)
          (roundsOf args limit) = made.flatten := by
    rw [← isMade, isSource]
    rfl
  obtain ⟨frames, frameCount, conform, lines, packets⟩ := exists_frames all
  refine ⟨frames, frameCount.trans count, conform, ?_⟩
  rw [← lines, ← packets, ← effects]
  by_cases fails : OpenFails host args
  · obtain ⟨-, noLine, noCall⟩ :=
      nothing_of_openFails counting reaches generating limit fails
    rw [noLine, noCall]
    exact ⟨List.nil_prefix, List.nil_prefix⟩
  · obtain ⟨done, initial, printed, handed, -⟩ :=
      (report_of_opens counting reaches generating limit fails).carriedOut
    refine ⟨?_, ?_⟩
    · rw [printed]
      exact initial.flatMap Effect.lines
    · cases present : result.2.sender with
      | none =>
          simp [calls, present]
      | some sender =>
          rw [handed (by rw [present]; rfl)]
          exact initial.flatMap Effect.packets

theorem frames_conform_ethernet :
    ∃ frames : List (List (String × List Field)),
      frames.length = 2 ∧
        (∀ rows ∈ frames,
          List.Forall₂ (LayerView.Fits frameSession.varDb)
              (frameStack.views frameSession) rows ∧
            Conforms frameSession.varDb (frameStack.views frameSession)
              (wireRows rows)) ∧
        (main frameHost 9
              ["--yaml-dir", "d", "--stack-file", "s", "--count",
                "2"]).2.stdout <+:
            frames.map (fun rows =>
              (Pipeline.stackFile frameStack).builtLine true
                (packRows rows)) ∧
          (calls frameHost
              (main frameHost 9
                ["--yaml-dir", "d", "--stack-file", "s", "--count",
                  "2"]).2).map Prod.fst <+:
            frames.map fun rows => (packRows rows).bytes := by
  have counting : Counting frameHost :=
    { sender :=
        { handed_open := fun _ => rfl
          handed_close := fun _ => rfl }
      fresh := fun _ _ => rfl }
  exact
    frames_conform counting frameHost_reaches rfl (by decide +kernel)
      (by decide +kernel) 9

end PacketGen

end TsnGen
