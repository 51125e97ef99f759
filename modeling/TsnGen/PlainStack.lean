import TsnGen.Session

namespace TsnGen.Session

open PacketBuilder

/-!
# Plain stacks are sliced exactly

The encoder concatenates padded layers, the decoder recomputes the offsets
from declared widths.  A generated frame is first described by the field lists
its layers packed; an induction over the layers then keeps the two offset
computations in step.
-/

/-- Draw the fields of every layer in order, threading the engine. -/
def drawLayers
    (rng : Rng G)
    (varDb : Database Var) :
    List ProtocolInterface → G → List (ProtocolInterface × List Field) × G
  | [], engine => ([], engine)
  | iface :: rest, engine =>
      let drawn :=
        drawFields (fun _ var => pickValue rng var)
          (layout varDb iface.varRefs) engine
      let later := drawLayers rng varDb rest drawn.2
      ((iface, drawn.1) :: later.1, later.2)

/-- The frame assembled from drawn layers. -/
def assembled
    (layers : List (ProtocolInterface × List Field)) : StackedPacket where
  bytes :=
    layers.flatMap fun layer => packFields layer.2
  layers :=
    layers.map fun layer =>
      (layer.1.name,
        { bytes := packFields layer.2, fields := reported layer.2 })

/-- Plain generation draws every layer and assembles what was drawn. -/
theorem generateStack_eq
    (session : Session)
    (rng : Rng G)
    (layers : List ProtocolInterface)
    (engine : G) :
    session.generateStack rng layers engine =
      (assembled (drawLayers rng session.varDb layers engine).1,
        (drawLayers rng session.varDb layers engine).2) := by
  have general :
      ∀ (state : StackedPacket × G),
        layers.foldl (stackStep rng session.varDb) state =
          let drawn := drawLayers rng session.varDb layers state.2
          ({ bytes := state.1.bytes ++ (assembled drawn.1).bytes
             layers := state.1.layers ++ (assembled drawn.1).layers },
            drawn.2) := by
    induction layers with
    | nil =>
        intro state
        simp [drawLayers, assembled]
    | cons iface rest inductionHypothesis =>
        intro state
        rw [List.foldl_cons, inductionHypothesis]
        simp [stackStep, buildWithFields_eq, drawLayers, assembled]
  simp [generateStack, general]

/-- Drawn layers keep the interface list they were drawn for. -/
theorem drawLayers_interfaces
    (rng : Rng G)
    (varDb : Database Var)
    (layers : List ProtocolInterface)
    (engine : G) :
    (drawLayers rng varDb layers engine).1.map Prod.fst = layers := by
  induction layers generalizing engine with
  | nil =>
      rfl
  | cons iface rest inductionHypothesis =>
      simp [drawLayers, inductionHypothesis]

/-- Every drawn layer has the declared shape of its interface. -/
theorem drawLayers_shape
    {rng : Rng G}
    {varDb : Database Var}
    {layers : List ProtocolInterface}
    {engine : G}
    {layer : ProtocolInterface × List Field}
    (member : layer ∈ (drawLayers rng varDb layers engine).1) :
    shapeOf layer.2 =
      PacketDecoder.declaredShape varDb layer.1.varRefs := by
  induction layers generalizing engine with
  | nil =>
      simp [drawLayers] at member
  | cons iface rest inductionHypothesis =>
      simp only [drawLayers, List.mem_cons] at member
      rcases member with isHead | inRest
      · subst isHead
        exact shapeOf_drawFields _ _ _
      · exact inductionHypothesis inRest

/-- Decode the layers of a frame from a running byte offset. -/
def decodeLayers
    (varDb : Database Var)
    (bytes : List UInt8) :
    List ProtocolInterface → Nat → List Layer
  | [], _ => []
  | iface :: rest, offset =>
      (iface.name, PacketDecoder.decode iface varDb bytes offset) ::
        decodeLayers varDb bytes rest
          (offset + PacketDecoder.layerBytes iface varDb)

/-- The decode loop emits the layers in order. -/
theorem decodeStack_layers
    (session : Session)
    (layers : List ProtocolInterface)
    (bytes : List UInt8) :
    (session.decodeStack layers bytes).layers =
      decodeLayers session.varDb bytes layers 0 := by
  have general :
      ∀ (state : List Layer × Nat),
        (layers.foldl (decodeStep session.varDb bytes) state).1 =
          state.1 ++ decodeLayers session.varDb bytes layers state.2 := by
    induction layers with
    | nil =>
        intro state
        simp [decodeLayers]
    | cons iface rest inductionHypothesis =>
        intro state
        rw [List.foldl_cons, inductionHypothesis]
        simp [decodeStep, decodeLayers]
  simp [decodeStack, general]

/-- Assembled layers decode to their own slices and carried values. -/
theorem decodeLayers_assembled
    {varDb : Database Var}
    (narrow : NarrowWidths varDb)
    (layers : List (ProtocolInterface × List Field))
    (shapes :
      ∀ layer ∈ layers,
        shapeOf layer.2 =
          PacketDecoder.declaredShape varDb layer.1.varRefs)
    (front : List UInt8) :
    decodeLayers varDb (front ++ (assembled layers).bytes)
        (layers.map Prod.fst) front.length =
      layers.map fun layer =>
        (layer.1.name,
          { bytes := packFields layer.2, fields := carried layer.2 }) := by
  induction layers generalizing front with
  | nil =>
      rfl
  | cons layer rest inductionHypothesis =>
      have shape := shapes layer (by simp)
      have headDecoded :=
        decode_packed narrow shape front
          (assembled rest).bytes
      have headLength :
          front.length + PacketDecoder.layerBytes layer.1 varDb =
            (front ++ packFields layer.2).length := by
        simp [length_packFields narrow shape]
      have later :=
        inductionHypothesis
          (fun other member => shapes other (by simp [member]))
          (front ++ packFields layer.2)
      rw [← headLength] at later
      simp only [assembled, List.append_assoc] at headDecoded later
      simp only [decodeLayers, assembled, List.map_cons,
        List.flatMap_cons, headDecoded, later]

/-- Slices at running offsets concatenate to a prefix of what remains. -/
theorem flatMap_decodeLayers
    (varDb : Database Var)
    (bytes : List UInt8)
    (layers : List ProtocolInterface)
    (offset : Nat) :
    (decodeLayers varDb bytes layers offset).flatMap
        (fun layer => layer.2.bytes) =
      (bytes.drop offset).take
        (layers.map fun iface =>
          PacketDecoder.layerBytes iface varDb).sum := by
  induction layers generalizing offset with
  | nil =>
      simp [decodeLayers]
  | cons iface rest inductionHypothesis =>
      simp only [decodeLayers, List.flatMap_cons, List.map_cons,
        List.sum_cons, inductionHypothesis, PacketDecoder.decode_bytes]
      rw [List.take_add, List.drop_drop]

/--
Plain stack slicing is exact.  Decoding a generated stack returns every layer
under its name with the reported bytes and the reported fields, each value as
carried by its declared width; and on an arbitrary buffer the layer slices
concatenate to the prefix of the declared total length.
-/
theorem decodeStack_slices_exactly
    {G : Type}
    (session : Session)
    (narrow : NarrowWidths session.varDb)
    (rng : Rng G)
    (layers : List ProtocolInterface)
    (engine : G) :
    let generated := (session.generateStack rng layers engine).1
    let decoded := session.decodeStack layers generated.bytes
    (generated.layers.length = layers.length ∧
      decoded.layers.length = layers.length ∧
      ∀ (index : Nat) (iface : ProtocolInterface),
        layers[index]? = some iface →
        ∃ sent received,
          generated.layers[index]? = some (iface.name, sent) ∧
            decoded.layers[index]? = some (iface.name, received) ∧
              RoundTrips session.varDb iface sent received) ∧
      ∀ buffer : List UInt8,
        (session.decodeStack layers buffer).layers.flatMap
            (fun layer => layer.2.bytes) =
          buffer.take
            (min buffer.length
              (layers.map fun iface =>
                PacketDecoder.layerBytes iface session.varDb).sum) := by
  intro generated decoded
  have interfaces :=
    drawLayers_interfaces rng session.varDb layers engine
  have shapes :
      ∀ layer ∈ (drawLayers rng session.varDb layers engine).1,
        shapeOf layer.2 =
          PacketDecoder.declaredShape session.varDb layer.1.varRefs :=
    fun _ member => drawLayers_shape member
  have generatedShape :
      generated =
        assembled (drawLayers rng session.varDb layers engine).1 := by
    simp [generated, generateStack_eq]
  generalize (drawLayers rng session.varDb layers engine).1 = drawn
    at interfaces shapes generatedShape
  have decodedShape :
      decoded.layers =
        drawn.map fun layer =>
          (layer.1.name,
            { bytes := packFields layer.2, fields := carried layer.2 }) := by
    have sliced := decodeLayers_assembled narrow drawn shapes []
    rw [List.nil_append, interfaces, List.length_nil] at sliced
    rw [← sliced, ← generatedShape]
    exact decodeStack_layers session layers generated.bytes
  refine ⟨⟨?_, ?_, ?_⟩, ?_⟩
  · rw [generatedShape, ← interfaces]
    simp [assembled]
  · rw [decodedShape, ← interfaces]
    simp
  · intro index iface atIndex
    rw [← interfaces, List.getElem?_map, Option.map_eq_some_iff] at atIndex
    obtain ⟨layer, layerAt, rfl⟩ := atIndex
    refine ⟨{ bytes := packFields layer.2, fields := reported layer.2 },
      { bytes := packFields layer.2, fields := carried layer.2 },
      ?_, ?_, ?_⟩
    · simp [generatedShape, assembled, layerAt]
    · simp [decodedShape, layerAt]
    · exact RoundTrips.of_shape
        (shapes layer (List.mem_of_getElem? layerAt))
  · intro buffer
    rw [decodeStack_layers, flatMap_decodeLayers, List.drop_zero]
    rw [Nat.min_comm, ← List.take_eq_take_min]

theorem decodeStack_slices_unaligned :
    NarrowWidths unalignedVarDb ∧
      (({ varDb := unalignedVarDb
          interfaceDb := .empty
          serviceDb := .empty } : Session).decodeStack
        [unalignedInterface, unalignedInterface] [0xAB, 0xCD]).layers.flatMap
          (fun layer => layer.2.bytes) = [0xAB, 0xCD] :=
  ⟨by decide,
    (decodeStack_slices_exactly
      { varDb := unalignedVarDb
        interfaceDb := .empty
        serviceDb := .empty }
      (by decide) (Rng.constant 5)
      [unalignedInterface, unalignedInterface] ()).2 [0xAB, 0xCD]⟩

end TsnGen.Session
