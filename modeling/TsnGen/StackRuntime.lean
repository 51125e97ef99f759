import TsnGen.PlainStack
import TsnGen.Stack

namespace TsnGen

open PacketBuilder

/-!
# The logic-driven stack runtime

Encoding a bound stack loads every layer's context with freshly built values,
runs the encode hooks bottom-up and packs the contexts.  Decoding slices the
frame by the declared layouts, loads the contexts and runs the decode hooks.
Both directions leave contexts and module members behind in the stack.

The generated packet is then described by what a generation can see of the
stack it starts from: service names, module kinds, resolved interfaces, and the
fields of layers that resolve to none.
-/

/-- Severity of a diagnostic line. -/
inductive LogLevel where
  | quiet
  | error
  | warn
  | info
  | debug
  deriving Repr, DecidableEq

/-- Diagnostic lines in the order they are written. -/
abbrev Log := List (LogLevel × String)

namespace Session

/-- The interface a stack layer is packed with. -/
def interfaceForLayer
    (session : Session)
    (layer : StackLayer) : Option ProtocolInterface :=
  if layer.interfaceName ≠ "" then
    session.interfaceDb.getElement
      (layer.serviceName ++ "::" ++ layer.entityName ++ "::" ++
        layer.interfaceName)
  else
    let start :=
      if layer.entityName = "" then
        layer.serviceName ++ "::"
      else
        layer.serviceName ++ "::" ++ layer.entityName ++ "::"
    (session.interfaceDb.entries.find? fun entry =>
      startsWith entry.1 start).map Prod.snd

/-- The interface of a layer depends on its three names only. -/
@[simp] theorem interfaceForLayer_bound
    (session : Session)
    (layer : StackLayer)
    (logicName : String)
    (bypassLogic : Bool)
    (logic : LogicModule)
    (context : LayerContext) :
    session.interfaceForLayer
        { layer with
          logicName := logicName
          bypassLogic := bypassLogic
          logic := logic
          context := context } =
      session.interfaceForLayer layer :=
  rfl

/--
Width of the first reference with a short name.  The search ends there, also
when that reference does not resolve.
-/
def declaredWidth
    (varDb : Database Var)
    (name : String) :
    List String → UInt32
  | [] => 0
  | ref :: rest =>
      if shortName ref = name then
        match varDb.getElement ref with
        | some var => var.size
        | none => 0
      else
        declaredWidth varDb name rest

/-- Replace the fields of a context by named values of declared width. -/
def populateContext
    (session : Session)
    (ctx : LayerContext)
    (iface : ProtocolInterface)
    (fieldValues : List (String × UInt64)) : LayerContext :=
  fieldValues.foldl
    (fun ctx fieldValue =>
      let bits := declaredWidth session.varDb fieldValue.1 iface.varRefs
      if bits ≠ 0 then
        ctx.addField fieldValue.1 fieldValue.2 bits
      else
        ctx)
    ctx.clearFields

/-- Load the contexts of all layers with freshly built values. -/
def loadLayers
    (session : Session)
    (rng : Rng G) :
    List StackLayer → G → List StackLayer × G × Log
  | [], engine => ([], engine, [])
  | layer :: rest, engine =>
      match session.interfaceForLayer layer with
      | none =>
          let later := loadLayers session rng rest engine
          (layer :: later.1, later.2.1,
            (LogLevel.warn,
              "Session: no interface for stack layer '" ++
                layer.serviceName ++ "'\n") :: later.2.2)
      | some iface =>
          let built := buildWithFields rng iface session.varDb engine
          let loaded :=
            { layer with
              context :=
                session.populateContext layer.context iface built.1.fields }
          let later := loadLayers session rng rest built.2
          (loaded :: later.1, later.2)

/--
Decode the layers of a frame from a running byte offset.  `contexts` is the
memory behind the context pointers; of it only service names are read, which
no step changes.
-/
def decodeStackLayers
    (session : Session)
    (contexts : List LayerContext)
    (bytes : List UInt8) :
    List StackLayer → Nat → List StackLayer × List Layer × Log
  | [], _ => ([], [], [])
  | layer :: rest, offset =>
      match session.interfaceForLayer layer with
      | none =>
          let later :=
            decodeStackLayers session contexts bytes rest offset
          (layer :: later.1,
            (layer.serviceName, { bytes := [], fields := [] }) ::
              later.2.1,
            (LogLevel.warn,
              "Session: no interface for stack layer '" ++
                layer.serviceName ++ "' during decode\n") :: later.2.2)
      | some iface =>
          let decoded :=
            PacketDecoder.decode iface session.varDb bytes offset
          let context :=
            session.populateContext layer.context iface decoded.fields
          let logic := layer.logic.onDecode context
          let next := logic.nextLayer contexts context
          let demux : Log :=
            match rest with
            | [] => []
            | above :: _ =>
                if next ≠ "" ∧ next ≠ above.serviceName then
                  [(LogLevel.info,
                    "Session: layer '" ++ layer.serviceName ++
                      "' demux predicted '" ++ next ++
                      "' but next layer is '" ++ above.serviceName ++
                      "'\n")]
                else
                  []
          let later :=
            decodeStackLayers session contexts bytes rest
              (offset + PacketDecoder.layerBytes iface session.varDb)
          ({ layer with logic := logic, context := context } :: later.1,
            (layer.serviceName, decoded) :: later.2.1,
            demux ++ later.2.2)

/-- The fields `populateContext` leaves in a context. -/
def populated
    (varDb : Database Var)
    (refs : List String)
    (fieldValues : List (String × UInt64)) : List Field :=
  fieldValues.filterMap fun fieldValue =>
    let bits := declaredWidth varDb fieldValue.1 refs
    if bits ≠ 0 then
      some { name := fieldValue.1, value := fieldValue.2, bits := bits }
    else
      none

/-- A loaded field carries a reported value and the width that was found. -/
theorem mem_populated
    {varDb : Database Var}
    {refs : List String}
    {fieldValues : List (String × UInt64)}
    {field : Field}
    (member : field ∈ populated varDb refs fieldValues) :
    (field.name, field.value) ∈ fieldValues ∧
      declaredWidth varDb field.name refs ≠ 0 ∧
        field.bits = declaredWidth varDb field.name refs := by
  obtain ⟨fieldValue, valueMember, kept⟩ := List.mem_filterMap.mp member
  by_cases zero : declaredWidth varDb fieldValue.1 refs = 0
  · simp [zero] at kept
  · simp only [ne_eq, zero, not_false_eq_true, ↓reduceIte,
      Option.some.injEq] at kept
    rw [← kept]
    exact ⟨valueMember, zero, rfl⟩

/-- Populating replaces the fields of a context and nothing else. -/
theorem populateContext_eq
    (session : Session)
    (ctx : LayerContext)
    (iface : ProtocolInterface)
    (fieldValues : List (String × UInt64)) :
    session.populateContext ctx iface fieldValues =
      { ctx with
        fields := populated session.varDb iface.varRefs fieldValues } := by
  have general :
      ∀ ctx : LayerContext,
        fieldValues.foldl
            (fun ctx fieldValue =>
              let bits :=
                declaredWidth session.varDb fieldValue.1 iface.varRefs
              if bits ≠ 0 then
                ctx.addField fieldValue.1 fieldValue.2 bits
              else
                ctx)
            ctx =
          { ctx with
            fields :=
              ctx.fields ++
                populated session.varDb iface.varRefs fieldValues } := by
    induction fieldValues with
    | nil =>
        intro ctx
        simp [populated]
    | cons fieldValue rest inductionHypothesis =>
        intro ctx
        rw [List.foldl_cons, inductionHypothesis]
        by_cases zero :
            declaredWidth session.varDb fieldValue.1 iface.varRefs = 0
        · simp [zero, populated]
        · simp [zero, populated, LayerContext.addField]
  rw [populateContext, general]
  simp [LayerContext.clearFields]

/-- Loading contexts keeps the links of every layer. -/
theorem map_links_loadLayers
    (session : Session)
    (rng : Rng G)
    (layers : List StackLayer)
    (engine : G) :
    (session.loadLayers rng layers engine).1.map StackLayer.links =
      layers.map StackLayer.links := by
  induction layers generalizing engine with
  | nil =>
      rfl
  | cons layer rest inductionHypothesis =>
      unfold loadLayers
      cases session.interfaceForLayer layer with
      | none =>
          simp [inductionHypothesis]
      | some iface =>
          simp [inductionHypothesis, StackLayer.links, populateContext_eq]

/-- Decoding keeps the links of every layer. -/
theorem map_links_decodeStackLayers
    (session : Session)
    (contexts : List LayerContext)
    (bytes : List UInt8)
    (layers : List StackLayer)
    (offset : Nat) :
    (session.decodeStackLayers contexts bytes layers offset).1.map
        StackLayer.links =
      layers.map StackLayer.links := by
  induction layers generalizing offset with
  | nil =>
      rfl
  | cons layer rest inductionHypothesis =>
      unfold decodeStackLayers
      cases session.interfaceForLayer layer with
      | none =>
          simp [inductionHypothesis]
      | some iface =>
          simp [inductionHypothesis, StackLayer.links, populateContext_eq]

end Session

/-- Pack named field lists, one layer each, and concatenate the layers. -/
def packRows
    (rows : List (String × List Field)) : StackedPacket where
  bytes := rows.flatMap fun row => packFields row.2
  layers :=
    rows.map fun row =>
      (row.1, { bytes := packFields row.2, fields := reported row.2 })

/-- What one generation returns and leaves behind. -/
structure Generated (G : Type) where
  packet : StackedPacket
  stack : Stack
  engine : G
  log : Log

/-- What one decode returns and leaves behind. -/
structure Decoded where
  packet : StackedPacket
  stack : Stack
  log : Log

namespace Stack

/-- Load every context of a stack with freshly built values. -/
def load
    (session : Session)
    (rng : Rng G)
    (stack : Stack)
    (engine : G) : Stack :=
  stack.withLayers (session.loadLayers rng stack.layers engine).1
    (session.map_links_loadLayers rng stack.layers engine)

/-- `Session::generateStack(Stack&)`: load, run the hooks, pack. -/
def generateStack
    (session : Session)
    (rng : Rng G)
    (stack : Stack)
    (engine : G) : Generated G :=
  let loaded := stack.load session rng engine
  let encoded := loaded.encodeSequence (List.range loaded.layers.length)
  { packet :=
      packRows (encoded.layers.map fun layer =>
        (layer.serviceName, layer.context.fields))
    stack := encoded
    engine := (session.loadLayers rng stack.layers engine).2.1
    log := (session.loadLayers rng stack.layers engine).2.2 }

/-- `Session::decodeStack(Stack&, bytes)`: slice, load, run the hooks. -/
def decodeStack
    (session : Session)
    (stack : Stack)
    (bytes : List UInt8) : Decoded :=
  let decoded :=
    session.decodeStackLayers stack.contexts bytes stack.layers 0
  { packet := { bytes := bytes, layers := decoded.2.1 }
    stack :=
      stack.withLayers decoded.1
        (session.map_links_decodeStackLayers _ bytes stack.layers 0)
    log := decoded.2.2 }

end Stack

/-- What a generation can see of a layer before it starts. -/
structure LayerView where
  serviceName : String
  kind : LogicKind
  iface : Option ProtocolInterface
  context : LayerContext

/--
A layer that resolves to an interface is reloaded, so the fields left in its
context cannot be seen.
-/
def StackLayer.view
    (session : Session)
    (layer : StackLayer) : LayerView where
  serviceName := layer.serviceName
  kind := layer.logic.kind
  iface := session.interfaceForLayer layer
  context :=
    match session.interfaceForLayer layer with
    | some _ => layer.context.clearFields
    | none => layer.context

namespace LayerView

/-- Draw the fields of every layer with an interface, in order. -/
def drawContexts
    (rng : Rng G)
    (varDb : Database Var) :
    List LayerView → G → List LayerContext × G
  | [], engine => ([], engine)
  | view :: rest, engine =>
      match view.iface with
      | none =>
          let later := drawContexts rng varDb rest engine
          (view.context :: later.1, later.2)
      | some iface =>
          let drawn :=
            drawFields (fun _ var => pickValue rng var)
              (layout varDb iface.varRefs) engine
          let later := drawContexts rng varDb rest drawn.2
          ({ view.context with
              fields :=
                Session.populated varDb iface.varRefs (reported drawn.1) } ::
              later.1,
            later.2)

/-- The named field lists that are packed after the hooks ran. -/
def encodedRows
    (views : List LayerView)
    (contexts : List LayerContext) : List (String × List Field) :=
  List.zipWith
    (fun view ctx => (view.serviceName, view.kind.encoded contexts ctx))
    views contexts

/-- Of a view the packing step reads the service name and the kind. -/
theorem encodedRows_eq
    (views : List LayerView)
    (contexts : List LayerContext) :
    encodedRows views contexts =
      List.zipWith
        (fun tag ctx => (tag.1, LogicKind.encoded tag.2 contexts ctx))
        (views.map fun view => (view.serviceName, view.kind)) contexts := by
  rw [encodedRows, List.zipWith_map_left]

/-- The warnings of a generation: one per layer without an interface. -/
def missingInterfaces
    (views : List LayerView) : Log :=
  views.flatMap fun view =>
    match view.iface with
    | some _ => []
    | none =>
        [(LogLevel.warn,
          "Session: no interface for stack layer '" ++
            view.serviceName ++ "'\n")]

/-- Layers of a frame decoded from a running byte offset. -/
def decodeViews
    (varDb : Database Var)
    (bytes : List UInt8) :
    List LayerView → Nat → List Layer
  | [], _ => []
  | view :: rest, offset =>
      match view.iface with
      | none =>
          (view.serviceName, { bytes := [], fields := [] }) ::
            decodeViews varDb bytes rest offset
      | some iface =>
          (view.serviceName,
              PacketDecoder.decode iface varDb bytes offset) ::
            decodeViews varDb bytes rest
              (offset + PacketDecoder.layerBytes iface varDb)

end LayerView

namespace Session

/-- Loading draws the contexts that the views describe. -/
theorem loadLayers_eq
    (session : Session)
    (rng : Rng G)
    (layers : List StackLayer)
    (engine : G) :
    let loaded := session.loadLayers rng layers engine
    let views := layers.map (StackLayer.view session)
    let drawn := LayerView.drawContexts rng session.varDb views engine
    loaded.1.map StackLayer.context = drawn.1 ∧
      loaded.2 = (drawn.2, LayerView.missingInterfaces views) := by
  induction layers generalizing engine with
  | nil =>
      exact ⟨rfl, rfl⟩
  | cons layer rest inductionHypothesis =>
      cases resolved : session.interfaceForLayer layer with
      | none =>
          obtain ⟨contexts, others⟩ := inductionHypothesis engine
          simp [loadLayers, resolved, StackLayer.view,
            LayerView.drawContexts, LayerView.missingInterfaces,
            contexts, others]
      | some iface =>
          obtain ⟨contexts, others⟩ :=
            inductionHypothesis
              (buildWithFields rng iface session.varDb engine).2
          simp only [buildWithFields_eq] at contexts others
          simp [loadLayers, resolved, StackLayer.view,
            LayerView.drawContexts, LayerView.missingInterfaces,
            buildWithFields_eq, populateContext_eq,
            LayerContext.clearFields, contexts, others]

/-- Loading changes contexts only. -/
theorem map_tags_loadLayers
    (session : Session)
    (rng : Rng G)
    (layers : List StackLayer)
    (engine : G) :
    ((session.loadLayers rng layers engine).1.map fun layer =>
        (layer.serviceName, layer.logic)) =
      layers.map fun layer => (layer.serviceName, layer.logic) := by
  induction layers generalizing engine with
  | nil =>
      rfl
  | cons layer rest inductionHypothesis =>
      unfold loadLayers
      cases session.interfaceForLayer layer with
      | none =>
          simp [inductionHypothesis]
      | some iface =>
          simp [inductionHypothesis]

/-- Decoding slices the frame by the layers' interfaces alone. -/
theorem decodeStackLayers_packet
    (session : Session)
    (contexts : List LayerContext)
    (bytes : List UInt8)
    (layers : List StackLayer)
    (offset : Nat) :
    (session.decodeStackLayers contexts bytes layers offset).2.1 =
      LayerView.decodeViews session.varDb bytes
        (layers.map (StackLayer.view session)) offset := by
  induction layers generalizing offset with
  | nil =>
      rfl
  | cons layer rest inductionHypothesis =>
      cases resolved : session.interfaceForLayer layer with
      | none =>
          simp [decodeStackLayers, LayerView.decodeViews, resolved,
            StackLayer.view, inductionHypothesis]
      | some iface =>
          simp [decodeStackLayers, LayerView.decodeViews, resolved,
            StackLayer.view, inductionHypothesis]

end Session

namespace Stack

/-- What a generation can see of a stack. -/
def views
    (session : Session)
    (stack : Stack) : List LayerView :=
  stack.layers.map (StackLayer.view session)

/-- The contexts of a loaded stack are those its views describe. -/
theorem load_contexts
    (session : Session)
    (rng : Rng G)
    (stack : Stack)
    (engine : G) :
    (stack.load session rng engine).contexts =
      (LayerView.drawContexts rng session.varDb (stack.views session)
        engine).1 :=
  (session.loadLayers_eq rng stack.layers engine).1

/-- A generated stack is the loaded one after one pass of the hooks. -/
theorem generateStack_layers
    (session : Session)
    (rng : Rng G)
    (stack : Stack)
    (engine : G) :
    (stack.generateStack session rng engine).stack.layers =
      (stack.load session rng engine).layers.map
        (StackLayer.encode (stack.load session rng engine).contexts) :=
  encodeSequence_range_layers _

/-- The rows a generation packed, read off the stack it left. -/
def rows
    (stack : Stack) : List (String × List Field) :=
  stack.layers.map fun layer => (layer.serviceName, layer.context.fields)

/-- The rows of a generation are the encoded contexts of the loaded stack. -/
theorem getElem?_rows_generateStack
    (session : Session)
    (rng : Rng G)
    (stack : Stack)
    (engine : G)
    (index : Nat) :
    let loaded := stack.load session rng engine
    (stack.generateStack session rng engine).stack.rows[index]? =
      loaded.layers[index]?.map fun layer =>
        (layer.serviceName,
          layer.logic.kind.encoded loaded.contexts layer.context) := by
  intro loaded
  rw [rows, generateStack_layers, List.map_map, List.getElem?_map]
  cases loaded.layers[index]? with
  | none =>
      rfl
  | some layer =>
      simp only [Option.map_some, Function.comp_apply,
        StackLayer.encode_fields]
      rfl

/-- The generated packet is a function of the views and the engine. -/
theorem generateStack_packet
    (session : Session)
    (rng : Rng G)
    (stack : Stack)
    (engine : G) :
    (stack.generateStack session rng engine).packet =
      packRows
        (LayerView.encodedRows (stack.views session)
          (LayerView.drawContexts rng session.varDb (stack.views session)
            engine).1) := by
  have packed :
      (stack.generateStack session rng engine).packet =
        packRows
          ((stack.generateStack session rng engine).stack.layers.map
            fun layer => (layer.serviceName, layer.context.fields)) :=
    rfl
  have tags :
      ((stack.views session).map fun view => (view.serviceName, view.kind)) =
        (stack.load session rng engine).layers.map fun layer =>
          (layer.serviceName, layer.logic.kind) := by
    have loadedTags :=
      congrArg
        (List.map fun tag : String × LogicModule => (tag.1, tag.2.kind))
        (session.map_tags_loadLayers rng stack.layers engine)
    simp only [List.map_map, Function.comp_def] at loadedTags
    simp only [views, List.map_map, Function.comp_def, StackLayer.view]
    exact loadedTags.symm
  rw [packed, generateStack_layers, ← load_contexts,
    LayerView.encodedRows_eq, tags, contexts, List.zipWith_map,
    List.zipWith_self]
  simp only [List.map_map, Function.comp_def, StackLayer.encode_fields]
  rfl

end Stack

end TsnGen
