import TsnGen.LocalHooks
import TsnGen.LogicModule

namespace TsnGen

/-!
# Bound stacks

A `Stack` is an ordered chain of layers, lowest first, each with its bound
module and runtime context.  That the context pointers link neighbouring
layers is a field of the structure, so no operation on a stack can break the
chain that `bytesAbove` walks.
-/

/-- One layer of a built stack. -/
structure StackLayer where
  serviceName : String
  entityName : String
  interfaceName : String
  logicName : String
  bypassLogic : Bool
  logic : LogicModule
  context : LayerContext
  deriving Repr, DecidableEq

namespace StackLayer

/-- The pointers of a layer's context, downwards and upwards. -/
def links
    (layer : StackLayer) : Option Nat × Option Nat :=
  (layer.context.lower, layer.context.upper)

/-- Run the encode hook of a layer on its own context. -/
def encode
    (contexts : List LayerContext)
    (layer : StackLayer) : StackLayer :=
  let hooked := layer.logic.onEncode contexts layer.context
  { layer with
    logic := hooked.1
    context := hooked.2 }

@[simp] theorem encode_fields
    (contexts : List LayerContext)
    (layer : StackLayer) :
    (layer.encode contexts).context.fields =
      layer.logic.kind.encoded contexts layer.context := by
  simp [encode, LogicModule.onEncode_context]

@[simp] theorem encode_links
    (contexts : List LayerContext)
    (layer : StackLayer) :
    (layer.encode contexts).links = layer.links := by
  simp [links, encode, LogicModule.onEncode_context]

end StackLayer

/-- The pointers of a chain of layers: each layer to its neighbours. -/
def adjacency
    (size : Nat) : List (Option Nat × Option Nat) :=
  (List.range size).map fun index =>
    (if 0 < index then some (index - 1) else none,
      if index + 1 < size then some (index + 1) else none)

/-- An ordered chain of bound layers whose contexts are linked. -/
@[ext] structure Stack where
  name : String
  layers : List StackLayer
  wired : layers.map StackLayer.links = adjacency layers.length

/-- Set the pointers of each context to its neighbours. -/
def wireAdjacency
    (layers : List StackLayer) : List StackLayer :=
  layers.mapIdx fun index layer =>
    { layer with
      context :=
        { layer.context with
          lower := if 0 < index then some (index - 1) else none
          upper :=
            if index + 1 < layers.length then some (index + 1) else none } }

namespace Stack

/-- Wire a list of layers into a stack. -/
def assemble
    (name : String)
    (layers : List StackLayer) : Stack where
  name := name
  layers := wireAdjacency layers
  wired := by
    apply List.ext_getElem?
    intro index
    simp only [wireAdjacency, adjacency, List.getElem?_map,
      List.getElem?_mapIdx, List.length_mapIdx]
    by_cases inside : index < layers.length
    · simp [inside, StackLayer.links]
    · simp [Nat.not_lt.mp inside]

/-- Exchange the layers of a stack, keeping their links. -/
def withLayers
    (stack : Stack)
    (layers : List StackLayer)
    (sameLinks :
      layers.map StackLayer.links = stack.layers.map StackLayer.links) :
    Stack where
  name := stack.name
  layers := layers
  wired := by
    have sameLength : layers.length = stack.layers.length := by
      simpa using congrArg List.length sameLinks
    rw [sameLinks, sameLength, stack.wired]

/-- The memory that context pointers refer to. -/
def contexts
    (stack : Stack) : List LayerContext :=
  stack.layers.map StackLayer.context

/-- Change one layer without touching its links. -/
def updateAt
    (stack : Stack)
    (index : Nat)
    (change : StackLayer → StackLayer)
    (keepsLinks : ∀ layer, (change layer).links = layer.links) : Stack :=
  stack.withLayers (stack.layers.modify index change) (by
    apply List.ext_getElem?
    intro position
    simp only [List.getElem?_map, List.getElem?_modify]
    split
    · cases stack.layers[position]? with
      | none =>
          rfl
      | some layer =>
          simp [keepsLinks]
    · cases stack.layers[position]? <;> rfl)

/-- Run the encode hook of one layer. -/
def encodeAt
    (stack : Stack)
    (index : Nat) : Stack :=
  stack.updateAt index (StackLayer.encode stack.contexts)
    (StackLayer.encode_links stack.contexts)

/-- Run the encode hooks of a sequence of layers. -/
def encodeSequence
    (stack : Stack)
    (sequence : List Nat) : Stack :=
  sequence.foldl encodeAt stack

/-- The upper pointer of a layer is the index of the next one. -/
theorem upper_eq
    (stack : Stack)
    {index : Nat}
    {layer : StackLayer}
    (layerAt : stack.layers[index]? = some layer) :
    layer.context.upper =
      if index + 1 < stack.layers.length then some (index + 1) else none := by
  obtain ⟨inside, _⟩ := List.getElem?_eq_some_iff.mp layerAt
  have wiredAt := congrArg (fun links => links[index]?) stack.wired
  simp only [adjacency, List.getElem?_map, layerAt,
    List.getElem?_range inside, Option.map_some, Option.some.injEq,
    StackLayer.links, Prod.mk.injEq] at wiredAt
  exact wiredAt.2

/-- Behind the upper pointer of a layer stands the next context. -/
theorem deref_upper
    (stack : Stack)
    {index : Nat}
    {layer : StackLayer}
    (layerAt : stack.layers[index]? = some layer) :
    LayerContext.deref stack.contexts layer.context.upper =
      stack.contexts[index + 1]? := by
  rw [stack.upper_eq layerAt]
  split
  next inside =>
    rfl
  next outside =>
    rw [LayerContext.deref, Option.bind_none, eq_comm]
    exact List.getElem?_eq_none (by simp [contexts]; omega)

/--
Walking up from a layer adds up all layers above it, given fuel for each of
them; `bytesAbove` has more than enough.
-/
theorem sumUpwards_eq
    (stack : Stack)
    (fuel : Nat)
    {index : Nat}
    {layer : StackLayer}
    (layerAt : stack.layers[index]? = some layer)
    (enough : stack.layers.length ≤ fuel + (index + 1)) :
    LayerContext.sumUpwards stack.contexts fuel layer.context.upper =
      ((stack.contexts.drop (index + 1)).map LayerContext.byteSize).sum := by
  induction fuel generalizing index layer with
  | zero =>
      have nothingAbove :
          stack.contexts.drop (index + 1) = [] :=
        List.drop_eq_nil_of_le (by simp [contexts]; omega)
      simp [LayerContext.sumUpwards, nothingAbove]
  | succ fuel inductionHypothesis =>
      rw [LayerContext.sumUpwards, stack.deref_upper layerAt]
      cases aboveAt : stack.layers[index + 1]? with
      | none =>
          have nothingAbove :
              stack.contexts.drop (index + 1) = [] := by
            have outside := List.getElem?_eq_none_iff.mp aboveAt
            exact List.drop_eq_nil_of_le (by simpa [contexts] using outside)
          have noContext : stack.contexts[index + 1]? = none := by
            simp [contexts, aboveAt]
          rw [noContext]
          simp [nothingAbove]
      | some above =>
          have contextAt :
              stack.contexts[index + 1]? = some above.context := by
            simp [contexts, aboveAt]
          have walked := inductionHypothesis aboveAt (by omega)
          obtain ⟨inside, isAbove⟩ := List.getElem?_eq_some_iff.mp contextAt
          rw [contextAt, List.drop_eq_getElem_cons inside, isAbove]
          simp [walked]

/-- In a wired stack `bytesAbove` is the total size of the layers above. -/
theorem bytesAbove_eq
    (stack : Stack)
    {index : Nat}
    {layer : StackLayer}
    (layerAt : stack.layers[index]? = some layer) :
    layer.context.bytesAbove stack.contexts =
      ((stack.contexts.drop (index + 1)).map LayerContext.byteSize).sum := by
  apply stack.sumUpwards_eq _ layerAt
  simp [contexts]

/-- The encode hooks of a stack, seeing other layers by their outlines. -/
def hooks : LocalHooks StackLayer LayerContext where
  outline layer := layer.context.outline
  rewrite := StackLayer.encode
  outline_rewrite := by
    intro outlines layer
    simp only [StackLayer.encode, LogicModule.onEncode_context]
    exact LayerContext.outline_of_shape layer.context
      (LogicKind.shapeOf_encoded _ _ _)

/-- Hooks may be run against the outlines of the contexts. -/
theorem encode_outlines
    (stack : Stack) :
    StackLayer.encode stack.contexts =
      StackLayer.encode (stack.layers.map hooks.outline) := by
  funext layer
  have outlines :
      stack.layers.map hooks.outline =
        stack.contexts.map LayerContext.outline := by
    simp [contexts, hooks]
  rw [outlines, StackLayer.encode, StackLayer.encode,
    LogicModule.onEncode_map_outline]

/-- Running one encode hook is a local rewrite. -/
theorem encodeAt_layers
    (stack : Stack)
    (index : Nat) :
    (stack.encodeAt index).layers = hooks.runAt stack.layers index := by
  simp only [encodeAt, updateAt, withLayers, LocalHooks.runAt,
    stack.encode_outlines]
  rfl

/-- Running a sequence of encode hooks is a run of local rewrites. -/
theorem encodeSequence_layers
    (stack : Stack)
    (sequence : List Nat) :
    (stack.encodeSequence sequence).layers =
      hooks.run sequence stack.layers := by
  induction sequence generalizing stack with
  | nil =>
      rfl
  | cons index rest inductionHypothesis =>
      have later := inductionHypothesis (stack.encodeAt index)
      rw [encodeAt_layers] at later
      simpa [encodeSequence, LocalHooks.run] using later

/-- One bottom-up pass runs every hook against the initial contexts. -/
theorem encodeSequence_range_layers
    (stack : Stack) :
    (stack.encodeSequence (List.range stack.layers.length)).layers =
      stack.layers.map (StackLayer.encode stack.contexts) := by
  rw [encodeSequence_layers, LocalHooks.run_range]
  exact congrArg (fun hook => stack.layers.map hook) stack.encode_outlines.symm

/--
Encode hooks are idempotent and order-independent: however often and in
whatever order the hooks run, once every layer has had its turn all contexts
hold the fields that one bottom-up pass leaves.
-/
theorem encodeSequence_eq_bottom_up
    (stack : Stack)
    (sequence : List Nat)
    (covers : ∀ index, index < stack.layers.length → index ∈ sequence) :
    (stack.encodeSequence sequence).contexts.map LayerContext.fields =
      (stack.encodeSequence (List.range stack.layers.length)).contexts.map
        LayerContext.fields := by
  have settles :
      ∀ outlines layer,
        (hooks.rewrite outlines
            (hooks.rewrite outlines layer)).context.fields =
          (hooks.rewrite outlines layer).context.fields := by
    intro outlines layer
    simp only [hooks, StackLayer.encode_fields]
    simp only [StackLayer.encode, LogicModule.kind_onEncode,
      LogicModule.onEncode_context]
    exact LogicKind.encoded_settles _ _ _
  have general :=
    hooks.map_view_run (fun layer => layer.context.fields) settles covers
  simpa [contexts, encodeSequence_layers, Function.comp_def] using general

/-- A layer of a service with a bound module and loaded fields. -/
def loadedLayer
    (serviceName : String)
    (kind : LogicKind)
    (fields : List Field) : StackLayer where
  serviceName := serviceName
  entityName := ""
  interfaceName := ""
  logicName := ""
  bypassLogic := false
  logic := .create kind
  context := { LayerContext.new serviceName with fields := fields }

/-- An AECP command over AVTP over Ethernet with loaded contexts. -/
def commandStack : Stack :=
  assemble "command" [
    loadedLayer "ethernet_mac_frame" .ethernetFrame [
      { name := "ethertype", value := 0, bits := 16 }],
    loadedLayer "1722_avtp_control" .avtpControl [
      { name := "subtype", value := 9, bits := 8 },
      { name := "sv", value := 1, bits := 1 },
      { name := "sv", value := 1, bits := 7 }],
    loadedLayer "atdecc_aecp_lock" .aecpAem [
      { name := "message_type", value := 4, bits := 4 },
      { name := "status", value := 7, bits := 5 },
      { name := "control_data_length", value := 3, bits := 11 },
      { name := "flags", value := 6, bits := 13 }]]

theorem encodeSequence_repeated :
    (∀ index, index < commandStack.layers.length →
        index ∈ [2, 0, 2, 1, 0]) ∧
      (commandStack.encodeSequence [2, 0, 2, 1, 0]).contexts.map
          LayerContext.fields =
        (commandStack.encodeSequence
          (List.range commandStack.layers.length)).contexts.map
            LayerContext.fields :=
  ⟨by decide, encodeSequence_eq_bottom_up commandStack _ (by decide)⟩

end Stack

end TsnGen
