import TsnGen.ModuleMemory

namespace TsnGen

open PacketBuilder

/-!
# When a demux divergence is reported

The selectors that a frame carries can be read off the frame before it is
decoded: each layer's interface says where its fields stand.  Since the check
of a bound stack never fires, wrong selectors are reported exactly of the
frames that carry none.
-/

/-- A layer once it was shown the fields of its part of a frame, if it was. -/
def StackLayer.read
    (layer : StackLayer) : Option (List Field) → StackLayer
  | none => layer
  | some fields =>
      let context := { layer.context with fields := fields }
      { layer with
        logic := layer.logic.onDecode context
        context := context }

/-- Reading keeps the kind of a module. -/
@[simp] theorem StackLayer.kind_read
    (layer : StackLayer)
    (shown : Option (List Field)) :
    (layer.read shown).logic.kind = layer.logic.kind := by
  cases shown with
  | none =>
      rfl
  | some fields =>
      simp [read]

/-- A layer carries what it was shown, else what it had. -/
@[simp] theorem StackLayer.fields_read
    (layer : StackLayer)
    (shown : Option (List Field)) :
    (layer.read shown).context.fields =
      shown.getD layer.context.fields := by
  cases shown with
  | none =>
      rfl
  | some fields =>
      rfl

/-- Decoding lets each layer read its part of the frame. -/
theorem Session.decodeStackLayers_layers
    (session : Session)
    (contexts : List LayerContext)
    (bytes : List UInt8)
    (layers : List StackLayer)
    (offset : Nat) :
    (session.decodeStackLayers contexts bytes layers offset).1 =
      List.zipWith StackLayer.read layers
        (LayerView.shown session.varDb bytes
          (layers.map (StackLayer.view session)) offset) := by
  induction layers generalizing offset with
  | nil =>
      rfl
  | cons layer rest inductionHypothesis =>
      cases resolved : session.interfaceForLayer layer with
      | none =>
          simp [decodeStackLayers, LayerView.shown, resolved,
            StackLayer.view, inductionHypothesis, StackLayer.read]
      | some iface =>
          simp [decodeStackLayers, LayerView.shown, resolved,
            StackLayer.view, inductionHypothesis, StackLayer.read,
            populateContext_eq]

/-- The subtype a layer stands for is a matter of the service above it. -/
theorem AvtpControlLogic.subtypeForUpper_congr
    {contexts others : List LayerContext}
    {ctx other : LayerContext}
    (sameService :
      (LayerContext.deref contexts ctx.upper).map LayerContext.serviceName =
        (LayerContext.deref others other.upper).map
          LayerContext.serviceName) :
    subtypeForUpper contexts ctx = subtypeForUpper others other := by
  simp only [subtypeForUpper]
  cases above : LayerContext.deref contexts ctx.upper with
  | none =>
      rw [above, Option.map_none, eq_comm, Option.map_eq_none_iff]
        at sameService
      rw [sameService]
  | some up =>
      rw [above, Option.map_some, eq_comm, Option.map_eq_some_iff]
        at sameService
      obtain ⟨otherUp, otherAbove, sameName⟩ := sameService
      simp only [otherAbove, sameName]

namespace Stack

/--
The fields each layer carries of a frame: those that its interface declares,
read at the layer's place.  A layer without an interface keeps what it has.
-/
def carried
    (session : Session)
    (stack : Stack)
    (bytes : List UInt8) : List (List Field) :=
  List.zipWith (fun layer shown => shown.getD layer.context.fields)
    stack.layers
    (LayerView.shown session.varDb bytes (stack.views session) 0)

/--
A frame carries a selector in some layer that does not lead to the layer above:
another ethertype than that of IEEE 1722 below an AVTP control layer, or another
subtype than the one of the upper service's family.
-/
def CarriesWrongSelector
    (session : Session)
    (stack : Stack)
    (bytes : List UInt8)
    (index : Nat) : Prop :=
  ∃ layer above fields value,
    stack.layers[index]? = some layer ∧
      stack.layers[index + 1]? = some above ∧
        (stack.carried session bytes)[index]? = some fields ∧
          (layer.logic.kind = .ethernetFrame ∧
              above.logic.kind = .avtpControl ∧
                readFirst "ethertype" fields = some value ∧
                  value ≠ EthernetFrameLogic.kEthertype1722 ∨
            layer.logic.kind = .avtpControl ∧
              readFirst "subtype" fields = some value ∧
                AvtpControlLogic.subtypeForUpper stack.contexts
                    layer.context ≠ 0 ∧
                  value ≠
                    (AvtpControlLogic.subtypeForUpper stack.contexts
                      layer.context).toUInt64)

/-- Every wrong selector of a decoded stack is reported for its layer. -/
def ReportsWrongSelectors
    (session : Session)
    (stack : Stack)
    (bytes : List UInt8) : Prop :=
  ∀ index,
    (stack.decodeStack session bytes).stack.WrongSelector index →
      ∃ layer line,
        stack.layers[index]? = some layer ∧
          line ∈ (stack.decodeStack session bytes).log ∧
            line.1 = .info ∧
              startsWith line.2
                ("Session: layer '" ++ layer.serviceName ++
                  "' demux predicted '") = true

/-- The layers of a stack that has read a frame. -/
theorem getElem?_layers_decodeStack
    (session : Session)
    (stack : Stack)
    (bytes : List UInt8)
    (index : Nat) :
    (stack.decodeStack session bytes).stack.layers[index]? =
      (stack.layers[index]?).bind fun layer =>
        ((LayerView.shown session.varDb bytes (stack.views session)
          0)[index]?).map layer.read := by
  simp only [decodeStack, withLayers, session.decodeStackLayers_layers,
    List.getElem?_zipWith, views]
  cases stack.layers[index]? with
  | none =>
      rfl
  | some layer =>
      cases (LayerView.shown session.varDb bytes
          (stack.layers.map (StackLayer.view session)) 0)[index]? with
      | none =>
          rfl
      | some shown =>
          rfl

/-- Decoding keeps the service names behind the context pointers. -/
theorem map_serviceName_contexts_decodeStack
    (session : Session)
    (stack : Stack)
    (bytes : List UInt8) :
    (stack.decodeStack session bytes).stack.contexts.map
        LayerContext.serviceName =
      stack.contexts.map LayerContext.serviceName := by
  have sameNames :=
    congrArg (List.map Prod.snd)
      (session.map_serviceNames_decodeStackLayers stack.contexts bytes
        stack.layers 0)
  simpa [contexts, decodeStack, withLayers, StackLayer.serviceNames,
    Function.comp_def] using sameNames

/-- Decoding keeps the subtype that a layer stands for. -/
theorem subtypeForUpper_decodeStack
    (session : Session)
    (stack : Stack)
    (bytes : List UInt8)
    {index : Nat}
    {layer decoded : StackLayer}
    (layerAt : stack.layers[index]? = some layer)
    (decodedAt :
      (stack.decodeStack session bytes).stack.layers[index]? =
        some decoded) :
    AvtpControlLogic.subtypeForUpper
        (stack.decodeStack session bytes).stack.contexts decoded.context =
      AvtpControlLogic.subtypeForUpper stack.contexts layer.context := by
  apply AvtpControlLogic.subtypeForUpper_congr
  rw [deref_upper _ decodedAt, deref_upper _ layerAt, ← List.getElem?_map,
    ← List.getElem?_map, map_serviceName_contexts_decodeStack]

/-- A layer of a stack is the one that read its part of the frame. -/
theorem getElem?_layers_decodeStack_iff
    (session : Session)
    (stack : Stack)
    (bytes : List UInt8)
    (index : Nat)
    (decoded : StackLayer) :
    (stack.decodeStack session bytes).stack.layers[index]? = some decoded ↔
      ∃ layer shown,
        stack.layers[index]? = some layer ∧
          (LayerView.shown session.varDb bytes (stack.views session)
            0)[index]? = some shown ∧
            layer.read shown = decoded := by
  rw [getElem?_layers_decodeStack]
  simp only [Option.bind_eq_some_iff, Option.map_eq_some_iff]
  constructor
  · rintro ⟨layer, layerAt, shown, shownAt, isRead⟩
    exact ⟨layer, shown, layerAt, shownAt, isRead⟩
  · rintro ⟨layer, shown, layerAt, shownAt, isRead⟩
    exact ⟨layer, layerAt, shown, shownAt, isRead⟩

/-- Every layer of a stack is shown its part of a frame, or nothing. -/
theorem exists_shown
    (session : Session)
    (stack : Stack)
    (bytes : List UInt8)
    {index : Nat}
    {layer : StackLayer}
    (layerAt : stack.layers[index]? = some layer) :
    ∃ shown,
      (LayerView.shown session.varDb bytes (stack.views session)
        0)[index]? = some shown := by
  obtain ⟨inside, -⟩ := List.getElem?_eq_some_iff.mp layerAt
  have sameLength :=
    LayerView.length_shown session.varDb bytes (stack.views session) 0
  rw [views, List.length_map] at sameLength
  exact ⟨_, List.getElem?_eq_getElem (by rw [views, sameLength]; exact inside)⟩

/-- The fields a decoded layer ends with are those the frame carried for it. -/
theorem fields_of_carried
    (session : Session)
    (stack : Stack)
    (bytes : List UInt8)
    {index : Nat}
    {layer : StackLayer}
    {shown : Option (List Field)}
    (layerAt : stack.layers[index]? = some layer)
    (shownAt :
      (LayerView.shown session.varDb bytes (stack.views session)
        0)[index]? = some shown) :
    (stack.carried session bytes)[index]? =
      some (layer.read shown).context.fields := by
  rw [carried, List.getElem?_zipWith, layerAt, shownAt,
    StackLayer.fields_read]

/-- After decoding a layer shows a wrong selector if the frame carries one. -/
theorem wrongSelector_decodeStack_iff
    (session : Session)
    (stack : Stack)
    (bytes : List UInt8)
    (index : Nat) :
    (stack.decodeStack session bytes).stack.WrongSelector index ↔
      stack.CarriesWrongSelector session bytes index := by
  constructor
  · rintro ⟨decoded, decodedAbove, value, decodedAt, aboveAt, wrong⟩
    obtain ⟨layer, shown, layerAt, shownAt, rfl⟩ :=
      (stack.getElem?_layers_decodeStack_iff session bytes index decoded).mp
        decodedAt
    obtain ⟨above, shownAbove, isAbove, -, rfl⟩ :=
      (stack.getElem?_layers_decodeStack_iff session bytes (index + 1)
        decodedAbove).mp aboveAt
    rw [stack.subtypeForUpper_decodeStack session bytes layerAt decodedAt]
      at wrong
    simp only [StackLayer.kind_read] at wrong
    exact ⟨layer, above, _, value, layerAt, isAbove,
      stack.fields_of_carried session bytes layerAt shownAt, wrong⟩
  · rintro ⟨layer, above, fields, value, layerAt, isAbove, carries, wrong⟩
    obtain ⟨shown, shownAt⟩ := stack.exists_shown session bytes layerAt
    obtain ⟨shownAbove, shownAboveAt⟩ :=
      stack.exists_shown session bytes isAbove
    rw [stack.fields_of_carried session bytes layerAt shownAt,
      Option.some.injEq] at carries
    have decodedAt :=
      (stack.getElem?_layers_decodeStack_iff session bytes index _).mpr
        ⟨layer, shown, layerAt, shownAt, rfl⟩
    have aboveAt :=
      (stack.getElem?_layers_decodeStack_iff session bytes (index + 1)
        _).mpr ⟨above, shownAbove, isAbove, shownAboveAt, rfl⟩
    refine ⟨_, _, value, decodedAt, aboveAt, ?_⟩
    rw [stack.subtypeForUpper_decodeStack session bytes layerAt decodedAt]
    simp only [StackLayer.kind_read, LayerContext.getValue, carries]
    exact wrong

/--
A named stack reports every wrong selector of a frame exactly if the frame
carries none: the check compares the service above with itself.
-/
theorem reportsWrongSelectors_iff
    (session : Session)
    {stack : Stack}
    (named : stack.Named)
    (bytes : List UInt8) :
    stack.ReportsWrongSelectors session bytes ↔
      ∀ index, ¬ stack.CarriesWrongSelector session bytes index := by
  have silent := (decodeStack_records_selectors session named bytes).1
  constructor
  · intro reports index carries
    obtain ⟨layer, line, -, member, isInfo, -⟩ :=
      reports index
        ((stack.wrongSelector_decodeStack_iff session bytes index).mpr
          carries)
    exact silent line member isInfo
  · intro without index wrong
    exact absurd
      ((stack.wrongSelector_decodeStack_iff session bytes index).mp wrong)
      (without index)

theorem reportsWrongSelectors_demuxStack :
    (demuxStack.performAll demuxSession (Rng.constant 0)
        [.generate ()]).Named ∧
      ((demuxStack.performAll demuxSession (Rng.constant 0)
          [.generate ()]).ReportsWrongSelectors demuxSession [8, 0, 0] ↔
        ∀ index,
          ¬ (demuxStack.performAll demuxSession (Rng.constant 0)
            [.generate ()]).CarriesWrongSelector demuxSession [8, 0, 0]
              index) := by
  have named :=
    (StackBuilder.named_of_build build_demuxStack).performAll
      demuxSession (Rng.constant 0) [.generate ()]
  exact ⟨named, reportsWrongSelectors_iff demuxSession named [8, 0, 0]⟩

end Stack

end TsnGen
