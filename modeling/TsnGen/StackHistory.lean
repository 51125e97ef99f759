import TsnGen.StackRuntime

namespace TsnGen

/-!
# Histories of one stack

Contexts and module members live as long as their stack and are reused by both
directions.  Of all that a call leaves behind, a later call can see only the
fields of layers that resolve to no interface.  No call ever puts a field
there, so over any history the views of a stack stay those of a fresh one.
-/

/-- A call on a stack; the engine of each generation is arbitrary. -/
inductive Operation (G : Type) where
  | generate (engine : G)
  | decode (bytes : List UInt8)

namespace Stack

/-- A stack as it is built: empty contexts and newly constructed modules. -/
structure Fresh
    (stack : Stack) : Prop where
  unloaded :
    ∀ layer ∈ stack.layers, layer.context.fields = []
  unused :
    ∀ layer ∈ stack.layers, layer.logic = .create layer.logic.kind

/-- The stack one call leaves behind. -/
def perform
    (session : Session)
    (rng : Rng G)
    (stack : Stack) :
    Operation G → Stack
  | .generate engine => (stack.generateStack session rng engine).stack
  | .decode bytes => (stack.decodeStack session bytes).stack

/-- The stack a history of calls leaves behind. -/
def performAll
    (session : Session)
    (rng : Rng G)
    (stack : Stack)
    (history : List (Operation G)) : Stack :=
  history.foldl (perform session rng) stack

/-- Layers without an interface hold no fields. -/
def Clean
    (session : Session)
    (stack : Stack) : Prop :=
  ∀ view ∈ stack.views session,
    view.iface = none → view.context.fields = []

/-- A freshly built stack is clean. -/
theorem Fresh.clean
    {stack : Stack}
    (fresh : stack.Fresh)
    (session : Session) :
    stack.Clean session := by
  intro view member missing
  obtain ⟨layer, layerMember, rfl⟩ := List.mem_map.mp member
  have unresolved : session.interfaceForLayer layer = none := missing
  simp only [StackLayer.view, unresolved]
  exact fresh.unloaded layer layerMember

/-- Loading leaves the view of every layer as it is. -/
theorem views_load
    (session : Session)
    (rng : Rng G)
    (stack : Stack)
    (engine : G) :
    (stack.load session rng engine).views session = stack.views session := by
  have general :
      ∀ (layers : List StackLayer) (engine : G),
        (session.loadLayers rng layers engine).1.map
            (StackLayer.view session) =
          layers.map (StackLayer.view session) := by
    intro layers
    induction layers with
    | nil =>
        intro engine
        rfl
    | cons layer rest inductionHypothesis =>
        intro engine
        unfold Session.loadLayers
        cases resolved : session.interfaceForLayer layer with
        | none =>
            simp [inductionHypothesis]
        | some iface =>
            simp [inductionHypothesis, StackLayer.view, resolved,
              Session.populateContext_eq, LayerContext.clearFields]
  exact general stack.layers engine

/-- Without fields to write, an encode hook changes no view. -/
theorem view_encode
    {session : Session}
    {layer : StackLayer}
    (clean :
      (layer.view session).iface = none →
        (layer.view session).context.fields = [])
    (contexts : List LayerContext) :
    (layer.encode contexts).view session = layer.view session := by
  cases resolved : session.interfaceForLayer layer with
  | some iface =>
      simp [StackLayer.view, StackLayer.encode, resolved,
        LogicModule.onEncode_context, LayerContext.clearFields]
  | none =>
      simp only [StackLayer.view, resolved, forall_const] at clean
      have stillEmpty :
          layer.logic.kind.encoded contexts layer.context = [] := by
        have shape :=
          layer.logic.kind.shapeOf_encoded contexts layer.context
        rw [clean] at shape
        simpa [shapeOf] using shape
      have sameContext :
          { layer.context with fields := [] } = layer.context := by
        rw [← clean]
      simp [StackLayer.view, StackLayer.encode, resolved,
        LogicModule.onEncode_context, stillEmpty, sameContext]

/-- A generation on a clean stack changes no view. -/
theorem Clean.views_generateStack
    {session : Session}
    {stack : Stack}
    (clean : stack.Clean session)
    (rng : Rng G)
    (engine : G) :
    (stack.generateStack session rng engine).stack.views session =
      stack.views session := by
  rw [← views_load session rng stack engine, views, generateStack_layers,
    List.map_map, views]
  apply List.map_congr_left
  intro layer member
  apply view_encode
  apply clean
  rw [← views_load session rng stack engine]
  exact List.mem_map_of_mem member

/-- Decoding changes no view, whatever the frame holds. -/
theorem views_decodeStack
    (session : Session)
    (stack : Stack)
    (bytes : List UInt8) :
    (stack.decodeStack session bytes).stack.views session =
      stack.views session := by
  have general :
      ∀ (layers : List StackLayer) (offset : Nat),
        (session.decodeStackLayers stack.contexts bytes layers offset).1.map
            (StackLayer.view session) =
          layers.map (StackLayer.view session) := by
    intro layers
    induction layers with
    | nil =>
        intro offset
        rfl
    | cons layer rest inductionHypothesis =>
        intro offset
        unfold Session.decodeStackLayers
        cases resolved : session.interfaceForLayer layer with
        | none =>
            simp [inductionHypothesis]
        | some iface =>
            simp [inductionHypothesis, StackLayer.view, resolved,
              Session.populateContext_eq, LayerContext.clearFields]
  exact general stack.layers 0

/-- One call on a clean stack changes no view. -/
theorem Clean.views_perform
    {session : Session}
    {stack : Stack}
    (clean : stack.Clean session)
    (rng : Rng G)
    (operation : Operation G) :
    (stack.perform session rng operation).views session =
      stack.views session := by
  cases operation with
  | generate engine =>
      exact clean.views_generateStack rng engine
  | decode bytes =>
      exact views_decodeStack session stack bytes

/-- No history on a clean stack changes a view. -/
theorem Clean.views_performAll
    {session : Session}
    {stack : Stack}
    (clean : stack.Clean session)
    (rng : Rng G)
    (history : List (Operation G)) :
    (stack.performAll session rng history).views session =
      stack.views session := by
  induction history generalizing stack with
  | nil =>
      rfl
  | cons operation rest inductionHypothesis =>
      have sameViews := clean.views_perform rng operation
      have stillClean :
          (stack.perform session rng operation).Clean session := by
        intro view member
        rw [sameViews] at member
        exact clean view member
      rw [performAll, List.foldl_cons, ← performAll,
        inductionHypothesis stillClean, sameViews]

/-- A stack stays clean over every history. -/
theorem Clean.performAll
    {session : Session}
    {stack : Stack}
    (clean : stack.Clean session)
    (rng : Rng G)
    (history : List (Operation G)) :
    (stack.performAll session rng history).Clean session := by
  intro view member
  rw [clean.views_performAll rng history] at member
  exact clean view member

/--
No packet leaks into the next.  After any history of generations and decodes
of arbitrary frames, a stack generates from any engine state, and decodes any
frame, as it did when it was built.
-/
theorem no_packet_leaks
    {G : Type}
    (session : Session)
    (rng : Rng G)
    (built : Stack)
    (fresh : built.Fresh)
    (history : List (Operation G)) :
    let used := built.performAll session rng history
    (∀ engine : G,
      (used.generateStack session rng engine).packet =
          (built.generateStack session rng engine).packet ∧
        (used.generateStack session rng engine).engine =
            (built.generateStack session rng engine).engine ∧
          (used.generateStack session rng engine).log =
            (built.generateStack session rng engine).log) ∧
      ∀ bytes : List UInt8,
        (used.decodeStack session bytes).packet =
          (built.decodeStack session bytes).packet := by
  intro used
  have sameViews : used.views session = built.views session :=
    (fresh.clean session).views_performAll rng history
  refine ⟨?_, ?_⟩
  · intro engine
    have usedLoad := (session.loadLayers_eq rng used.layers engine).2
    have builtLoad := (session.loadLayers_eq rng built.layers engine).2
    have sameLoad :
        (session.loadLayers rng used.layers engine).2 =
          (session.loadLayers rng built.layers engine).2 := by
      rw [usedLoad, builtLoad]
      simp only [views] at sameViews
      rw [sameViews]
    refine ⟨?_, ?_, ?_⟩
    · rw [generateStack_packet, generateStack_packet, sameViews]
    · exact congrArg Prod.fst sameLoad
    · exact congrArg Prod.snd sameLoad
  · intro bytes
    simp only [decodeStack, Session.decodeStackLayers_packet]
    simp only [views] at sameViews
    rw [sameViews]

end Stack

/-- A session with the wire layout of an AECP command. -/
def commandSession : Session where
  varDb :=
    [("mac::ethertype", 16), ("avtp::subtype", 8), ("aecp::message_type", 4),
      ("aecp::control_data_length", 11), ("aecp::flags", 16)].foldl
      (fun varDb entry =>
        (varDb.addUniqueElement entry.1
          { name := entry.1
            size := entry.2
            expectedValues := []
            range := none
            mask := 0 }).2)
      Database.empty
  interfaceDb :=
    [("mac::E::IF", ["mac::ethertype"]),
      ("avtp::E::IF", ["avtp::subtype"]),
      ("aecp::E::IF",
        ["aecp::message_type", "aecp::control_data_length",
          "aecp::flags"])].foldl
      (fun interfaceDb entry =>
        (interfaceDb.addUniqueElement entry.1
          { name := entry.1, direction := .IN, varRefs := entry.2 }).2)
      Database.empty
  serviceDb := .empty

/-- A fresh command stack; its second layer resolves to no interface. -/
def freshCommandStack : Stack :=
  .assemble "command" [
    Stack.loadedLayer "mac" .ethernetFrame [],
    Stack.loadedLayer "unmapped" .aecpAem [],
    Stack.loadedLayer "avtp" .avtpControl [],
    Stack.loadedLayer "aecp" .aecpAem []]

/-- The command stack is as it was built. -/
theorem freshCommandStack_fresh :
    freshCommandStack.Fresh where
  unloaded := by
    decide
  unused := by
    decide

namespace Stack

theorem no_packet_leaks_command :
    ((freshCommandStack.performAll commandSession (Rng.constant 6)
          [.decode [0xFF, 0xFF, 0xFF], .generate ()]).decodeStack
        commandSession [0x22, 0xF0]).packet =
      (freshCommandStack.decodeStack commandSession [0x22, 0xF0]).packet :=
  (no_packet_leaks commandSession (Rng.constant 6) freshCommandStack
    freshCommandStack_fresh
    [.decode [0xFF, 0xFF, 0xFF], .generate ()]).2 [0x22, 0xF0]

end Stack

end TsnGen
