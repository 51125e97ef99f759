import TsnGen.FrameBits

namespace TsnGen

open BitBuffer PacketBuilder

/-!
# Modules touch only the fields they own

A two-run statement.  Switching any layers of a stack to the passthrough
changes neither the random draws nor any layout, so the two frames have the
same fields at the same positions; a field that differs was written by a hook,
and hooks write only first fields of owned names.
-/

/-- Bind the passthrough to a layer, as `bypass-logic` does. -/
def StackLayer.bypass
    (layer : StackLayer) : StackLayer :=
  { layer with
    bypassLogic := true
    logic := .passthrough }

/-- Switch the selected layers to the passthrough. -/
def bypassLayers
    (switched : Nat → Bool)
    (layers : List StackLayer) : List StackLayer :=
  layers.mapIdx fun index layer =>
    if switched index then layer.bypass else layer

/-- Switching goes through a stack layer by layer. -/
theorem bypassLayers_cons
    (switched : Nat → Bool)
    (layer : StackLayer)
    (rest : List StackLayer) :
    bypassLayers switched (layer :: rest) =
      (if switched 0 then layer.bypass else layer) ::
        bypassLayers (fun index => switched (index + 1)) rest := by
  simp [bypassLayers]

/-- Switching keeps contexts, and with them the links. -/
theorem map_context_bypassLayers
    (switched : Nat → Bool)
    (layers : List StackLayer) :
    (bypassLayers switched layers).map StackLayer.context =
      layers.map StackLayer.context := by
  induction layers generalizing switched with
  | nil =>
      rfl
  | cons layer rest inductionHypothesis =>
      rw [bypassLayers_cons, List.map_cons, inductionHypothesis,
        List.map_cons]
      split <;> rfl

/-- Switching layers commutes with loading them. -/
theorem Session.loadLayers_bypassLayers
    (session : Session)
    (rng : Rng G)
    (switched : Nat → Bool)
    (layers : List StackLayer)
    (engine : G) :
    (session.loadLayers rng (bypassLayers switched layers) engine).1 =
      bypassLayers switched (session.loadLayers rng layers engine).1 := by
  induction layers generalizing switched engine with
  | nil =>
      rfl
  | cons layer rest inductionHypothesis =>
      have sameInterface :
          session.interfaceForLayer
              (if switched 0 then layer.bypass else layer) =
            session.interfaceForLayer layer := by
        split <;> rfl
      rw [bypassLayers_cons]
      cases resolved : session.interfaceForLayer layer with
      | none =>
          simp only [Session.loadLayers, sameInterface, resolved,
            inductionHypothesis, bypassLayers_cons]
      | some iface =>
          simp only [Session.loadLayers, sameInterface, resolved,
            inductionHypothesis, bypassLayers_cons]
          split <;> rfl

/--
Where two hooks leave different fields in one context, the stronger one owns
the name and the field is the first of that name.
-/
theorem LogicKind.owned_of_differing
    {kind weaker : LogicKind}
    (fewer : weaker.owned ⊆ kind.owned)
    {contexts : List LayerContext}
    {ctx : LayerContext}
    {before after : List Field}
    {field : Field}
    (split : kind.encoded contexts ctx = before ++ field :: after)
    (different :
      (weaker.encoded contexts ctx)[before.length]? ≠ some field) :
    field.name ∈ kind.owned ∧
      ∀ earlier ∈ before, earlier.name ≠ field.name := by
  have sameShape := kind.shapeOf_encoded contexts ctx
  have encodedAt :
      (kind.encoded contexts ctx)[before.length]? = some field := by
    simp [split]
  have shapeAt :
      (shapeOf ctx.fields)[before.length]? =
        some (field.name, field.bits) := by
    rw [← sameShape]
    simp [shapeOf, encodedAt]
  simp only [shapeOf, List.getElem?_map, Option.map_eq_some_iff,
    Prod.mk.injEq] at shapeAt
  obtain ⟨original, originalAt, sameName, _⟩ := shapeAt
  by_contra kept
  have untouched :
      original.name ∉ kind.owned ∨
        ∃ earlier ∈ ctx.fields.take before.length,
          earlier.name = original.name := by
    rw [sameName]
    by_cases owned : field.name ∈ kind.owned
    · right
      have repeated :
          ∃ earlier ∈ (kind.encoded contexts ctx).take before.length,
            earlier.name = field.name := by
        rw [split, List.take_left]
        by_contra first
        exact kept ⟨owned, fun earlier member same =>
          first ⟨earlier, member, same⟩⟩
      exact exists_earlier_of_shape sameShape repeated
    · exact Or.inl owned
  have isOriginal : original = field := by
    have stays := kind.getElem?_encoded contexts originalAt untouched
    rw [encodedAt, Option.some.injEq] at stays
    exact stays.symm
  apply different
  rw [← isOriginal]
  apply weaker.getElem?_encoded contexts originalAt
  rcases untouched with foreign | earlier
  · exact Or.inl fun member => foreign (fewer member)
  · exact Or.inr earlier

namespace Stack

/-- The same stack with the selected layers bypassed. -/
def bypass
    (switched : Nat → Bool)
    (stack : Stack) : Stack :=
  stack.withLayers (bypassLayers switched stack.layers) (by
    have sameLinks :=
      congrArg (List.map fun context => (context.lower, context.upper))
        (map_context_bypassLayers switched stack.layers)
    simp only [List.map_map] at sameLinks
    exact sameLinks)

/--
A frame position inside the first field of an owned name of some layer, at the
place where packing put that field.
-/
def OwnedPosition
    (run : Generated G)
    (position : Nat) : Prop :=
  ∃ (index : Nat) (layer : StackLayer)
    (before : List Field) (field : Field) (after : List Field),
    run.stack.layers[index]? = some layer ∧
      layer.context.fields = before ++ field :: after ∧
        field.name ∈ layer.logic.kind.owned ∧
          (∀ earlier ∈ before, earlier.name ≠ field.name) ∧
            let start :=
              8 * bytesBefore run.packet index + (wireBits before).length
            start ≤ position ∧ position < start + loopCount field.bits

/-- The bypassed twin packs what weaker hooks leave in the same contexts. -/
theorem getElem?_rows_generateStack_bypass
    (session : Session)
    (rng : Rng G)
    (switched : Nat → Bool)
    (stack : Stack)
    (engine : G)
    (index : Nat) :
    let loaded := stack.load session rng engine
    let twin := ((stack.bypass switched).generateStack session rng engine).stack
    twin.rows[index]? =
      loaded.layers[index]?.map fun layer =>
        (layer.serviceName,
          (if switched index then
              LogicKind.passthrough
            else
              layer.logic.kind).encoded loaded.contexts layer.context) := by
  intro loaded twin
  have twinLayers :
      twin.layers =
        (bypassLayers switched loaded.layers).map
          (StackLayer.encode loaded.contexts) := by
    have sameLoad :
        ((stack.bypass switched).load session rng engine).layers =
          bypassLayers switched loaded.layers :=
      session.loadLayers_bypassLayers rng switched stack.layers engine
    have sameContexts :
        ((stack.bypass switched).load session rng engine).contexts =
          loaded.contexts := by
      rw [contexts, sameLoad, map_context_bypassLayers]
      rfl
    rw [← sameLoad, ← sameContexts]
    exact generateStack_layers session rng _ engine
  rw [rows, twinLayers, List.map_map, List.getElem?_map, bypassLayers,
    List.getElem?_mapIdx]
  cases loaded.layers[index]? with
  | none =>
      rfl
  | some layer =>
      by_cases selected : switched index
      · simp [selected, StackLayer.bypass, LogicModule.kind]
        rfl
      · simp [selected]
        rfl

/-- A stack and its bypassed twin pack rows of one layout. -/
theorem layout_rows_bypass
    (session : Session)
    (rng : Rng G)
    (switched : Nat → Bool)
    (stack : Stack)
    (engine : G) :
    let run := stack.generateStack session rng engine
    let twin := (stack.bypass switched).generateStack session rng engine
    (run.stack.rows.map fun row => (row.1, shapeOf row.2)) =
      twin.stack.rows.map fun row => (row.1, shapeOf row.2) := by
  intro run twin
  apply List.ext_getElem?
  intro index
  rw [List.getElem?_map, List.getElem?_map, getElem?_rows_generateStack,
    getElem?_rows_generateStack_bypass, Option.map_map, Option.map_map]
  congr 1
  funext layer
  simp

/-- The names a packed frame reports are those of its rows. -/
theorem names_packRows
    (rows : List (String × List Field)) :
    ((packRows rows).layers.map fun layer =>
        (layer.1, layer.2.fields.map Prod.fst)) =
      rows.map fun row => (row.1, (shapeOf row.2).map Prod.fst) := by
  simp [packRows, reported, shapeOf, Function.comp_def]

/--
A bit in which the two frames differ lies in a field whose name the layer's
module owns.
-/
theorem ownedPosition_of_differing
    (session : Session)
    (rng : Rng G)
    (switched : Nat → Bool)
    (stack : Stack)
    (engine : G)
    {position : Nat}
    (differs :
      getBit (stack.generateStack session rng engine).packet.bytes
          position ≠
        getBit
          ((stack.bypass switched).generateStack session rng
            engine).packet.bytes
          position) :
    OwnedPosition (stack.generateStack session rng engine) position := by
  have sameShapes :=
    congrArg (List.map Prod.snd)
      (layout_rows_bypass session rng switched stack engine)
  simp only [List.map_map, Function.comp_def] at sameShapes
  obtain ⟨index, offset, row, other, rowAt, otherAt, place, rowDiffers⟩ :=
    differing_row sameShapes differs
  rw [getElem?_rows_generateStack, Option.map_eq_some_iff] at rowAt
  obtain ⟨layer, layerAt, rfl⟩ := rowAt
  rw [getElem?_rows_generateStack_bypass, layerAt, Option.map_some,
    Option.some.injEq] at otherAt
  subst otherAt
  obtain ⟨before, field, after, split, different, low, high⟩ :=
    differing_field (by simp) rowDiffers
  have fewer :
      (if switched index then
          LogicKind.passthrough
        else
          layer.logic.kind).owned ⊆ layer.logic.kind.owned := by
    split
    · simp [LogicKind.owned]
    · exact List.Subset.refl _
  obtain ⟨owned, first⟩ :=
    LogicKind.owned_of_differing fewer split different
  have runLayer :
      (stack.generateStack session rng engine).stack.layers[index]? =
        some
          (layer.encode (stack.load session rng engine).contexts) := by
    rw [generateStack_layers, List.getElem?_map, layerAt]
    rfl
  have samePacket :
      (stack.generateStack session rng engine).packet =
        packRows (stack.generateStack session rng engine).stack.rows :=
    rfl
  refine ⟨index, _, before, field, after, runLayer, ?_, ?_, first, ?_⟩
  · rw [StackLayer.encode_fields]
    exact split
  · simpa [StackLayer.encode] using owned
  · rw [samePacket]
    omega

/--
Modules touch only the fields they own.  A stack and the same stack with any
layers bypassed generate, from one engine state, frames of equal length with
the same layer and field names, and equal bits outside the first fields of
owned names.
-/
theorem modules_touch_owned_fields_only
    {G : Type}
    (session : Session)
    (rng : Rng G)
    (stack : Stack)
    (switched : Nat → Bool)
    (engine : G) :
    let run := stack.generateStack session rng engine
    let twin := (stack.bypass switched).generateStack session rng engine
    run.packet.bytes.length = twin.packet.bytes.length ∧
      (run.packet.layers.map fun layer =>
          (layer.1, layer.2.fields.map Prod.fst)) =
        (twin.packet.layers.map fun layer =>
          (layer.1, layer.2.fields.map Prod.fst)) ∧
        ∀ position,
          getBit run.packet.bytes position ≠
            getBit twin.packet.bytes position →
          OwnedPosition run position := by
  intro run twin
  have sameLayout := layout_rows_bypass session rng switched stack engine
  refine ⟨?_, ?_, ?_⟩
  · have sameShapes := congrArg (List.map Prod.snd) sameLayout
    simp only [List.map_map, Function.comp_def] at sameShapes
    exact length_packRows_of_shapes sameShapes
  · have sameNames :=
      congrArg
        (List.map fun row : String × List (String × UInt32) =>
          (row.1, row.2.map Prod.fst))
        sameLayout
    simp only [List.map_map, Function.comp_def] at sameNames
    exact (names_packRows run.stack.rows).trans
      (sameNames.trans (names_packRows twin.stack.rows).symm)
  · intro position differs
    exact ownedPosition_of_differing session rng switched stack engine
      differs

end Stack

end TsnGen
