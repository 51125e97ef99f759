import TsnGen.StackBuilder

namespace TsnGen

/-!
# The demux check of a bound stack

While a frame is decoded, each module predicts the service above its layer and
the prediction is compared with the layer that is really there.  In a bound
stack every module predicts through the upper pointer, so the comparison never
fails; what the frame itself selected is kept in the module's members.
-/

/-- A layer's context carries the service name of its layer. -/
def StackLayer.Named
    (layer : StackLayer) : Prop :=
  layer.context.serviceName = layer.serviceName

/-- Every context of the stack carries its layer's service name. -/
def Stack.Named
    (stack : Stack) : Prop :=
  ∀ layer ∈ stack.layers, layer.Named

namespace LogicModule

/-- Below another context a module predicts that context's service or none. -/
theorem nextLayer_of_upper
    {contexts : List LayerContext}
    (logic : LogicModule)
    {ctx above : LayerContext}
    (isAbove : LayerContext.deref contexts ctx.upper = some above) :
    logic.nextLayer contexts ctx = "" ∨
      logic.nextLayer contexts ctx = above.serviceName := by
  cases logic with
  | ethernetFrame members =>
      exact Or.inr (by simp [nextLayer, EthernetFrameLogic.nextLayer, isAbove])
  | avtpControl members =>
      exact Or.inr (by simp [nextLayer, AvtpControlLogic.nextLayer, isAbove])
  | aecpAem members =>
      exact Or.inr (by simp [nextLayer, AecpAemLogic.nextLayer, isAbove])
  | passthrough =>
      exact Or.inl rfl

end LogicModule

namespace Stack

/-- In a named stack a prediction is empty or names the layer above. -/
theorem prediction_matches
    {stack : Stack}
    (named : stack.Named)
    {before higher : List StackLayer}
    {layer above : StackLayer}
    (split : stack.layers = before ++ layer :: above :: higher)
    {context : LayerContext}
    (sameUpper : context.upper = layer.context.upper)
    (logic : LogicModule) :
    ¬ (logic.nextLayer stack.contexts context ≠ "" ∧
      logic.nextLayer stack.contexts context ≠ above.serviceName) := by
  have layerAt : stack.layers[before.length]? = some layer := by
    simp [split]
  have contextAt :
      stack.contexts[before.length + 1]? = some above.context := by
    simp [contexts, split]
  have isAbove :
      LayerContext.deref stack.contexts context.upper =
        some above.context := by
    rw [sameUpper, stack.deref_upper layerAt, contextAt]
  have aboveNamed : above.context.serviceName = above.serviceName :=
    named above (by simp [split])
  rintro ⟨predicted, different⟩
  rcases logic.nextLayer_of_upper isAbove with isEmpty | isService
  · exact predicted isEmpty
  · exact different (isService.trans aboveNamed)

end Stack

namespace Session

/-- The layers of a named stack are decoded without an informational line. -/
theorem decodeStackLayers_log
    (session : Session)
    {stack : Stack}
    (named : stack.Named)
    (bytes : List UInt8)
    (before : List StackLayer)
    {layers : List StackLayer}
    (split : stack.layers = before ++ layers)
    (offset : Nat) :
    ∀ line ∈
        (session.decodeStackLayers stack.contexts bytes layers offset).2.2,
      line.1 = .warn := by
  induction layers generalizing before offset with
  | nil =>
      intro line member
      cases member
  | cons layer rest inductionHypothesis =>
      have later :=
        inductionHypothesis (before ++ [layer]) (by simpa using split)
      intro line member
      unfold decodeStackLayers at member
      cases resolved : session.interfaceForLayer layer with
      | none =>
          simp only [resolved, List.mem_cons] at member
          rcases member with isWarning | inRest
          · rw [isWarning]
          · exact later offset line inRest
      | some iface =>
          simp only [resolved, List.mem_append] at member
          rcases member with inDemux | inRest
          · cases rest with
            | nil =>
                cases inDemux
            | cons above higher =>
                have sameUpper :
                    (session.populateContext layer.context iface
                      (PacketDecoder.decode iface session.varDb bytes
                        offset).fields).upper = layer.context.upper := by
                  rw [populateContext_eq]
                dsimp only at inDemux
                rw [if_neg (Stack.prediction_matches named split sameUpper
                  _)] at inDemux
                cases inDemux
          · exact later _ line inRest

/-- What decoding leaves of one layer. -/
theorem getElem?_decodeStackLayers
    (session : Session)
    (contexts : List LayerContext)
    (bytes : List UInt8)
    {layers : List StackLayer}
    {index : Nat}
    {layer : StackLayer}
    (offset : Nat)
    (layerAt :
      (session.decodeStackLayers contexts bytes layers offset).1[index]? =
        some layer) :
    ∃ before context,
      layers[index]? = some before ∧
        context.serviceName = before.context.serviceName ∧
          (layer = before ∧ session.interfaceForLayer before = none ∨
            layer =
              { before with
                logic := before.logic.onDecode context
                context := context }) := by
  induction layers generalizing index offset with
  | nil =>
      cases layerAt
  | cons first rest inductionHypothesis =>
      unfold decodeStackLayers at layerAt
      cases resolved : session.interfaceForLayer first with
      | none =>
          simp only [resolved] at layerAt
          cases index with
          | zero =>
              rw [List.getElem?_cons_zero, Option.some.injEq] at layerAt
              exact ⟨first, first.context, rfl, rfl,
                Or.inl ⟨layerAt.symm, resolved⟩⟩
          | succ index =>
              exact inductionHypothesis _ layerAt
      | some iface =>
          simp only [resolved] at layerAt
          cases index with
          | zero =>
              rw [List.getElem?_cons_zero, Option.some.injEq] at layerAt
              exact ⟨first, _, rfl, by rw [populateContext_eq],
                Or.inr layerAt.symm⟩
          | succ index =>
              exact inductionHypothesis _ layerAt

end Session

/-- The service names of a layer: its own and its context's. -/
def StackLayer.serviceNames
    (layer : StackLayer) : String × String :=
  (layer.serviceName, layer.context.serviceName)

/-- Loading contexts keeps the service names. -/
theorem Session.map_serviceNames_loadLayers
    (session : Session)
    (rng : Rng G)
    (layers : List StackLayer)
    (engine : G) :
    (session.loadLayers rng layers engine).1.map StackLayer.serviceNames =
      layers.map StackLayer.serviceNames := by
  induction layers generalizing engine with
  | nil =>
      rfl
  | cons layer rest inductionHypothesis =>
      unfold loadLayers
      cases session.interfaceForLayer layer with
      | none =>
          simp [inductionHypothesis]
      | some iface =>
          simp [inductionHypothesis, StackLayer.serviceNames,
            populateContext_eq]

/-- Decoding keeps the service names. -/
theorem Session.map_serviceNames_decodeStackLayers
    (session : Session)
    (contexts : List LayerContext)
    (bytes : List UInt8)
    (layers : List StackLayer)
    (offset : Nat) :
    (session.decodeStackLayers contexts bytes layers offset).1.map
        StackLayer.serviceNames =
      layers.map StackLayer.serviceNames := by
  induction layers generalizing offset with
  | nil =>
      rfl
  | cons layer rest inductionHypothesis =>
      unfold decodeStackLayers
      cases session.interfaceForLayer layer with
      | none =>
          simp [inductionHypothesis]
      | some iface =>
          simp [inductionHypothesis, StackLayer.serviceNames,
            populateContext_eq]

namespace Stack

/-- Whether a stack is named is a matter of its service names. -/
theorem named_iff
    {stack : Stack} :
    stack.Named ↔
      ∀ names ∈ stack.layers.map StackLayer.serviceNames,
        names.2 = names.1 := by
  simp only [Named, StackLayer.Named, StackLayer.serviceNames,
    List.forall_mem_map]

/-- A call on a stack keeps the service names. -/
theorem map_serviceNames_perform
    (session : Session)
    (rng : Rng G)
    (stack : Stack)
    (operation : Operation G) :
    (stack.perform session rng operation).layers.map
        StackLayer.serviceNames =
      stack.layers.map StackLayer.serviceNames := by
  cases operation with
  | generate engine =>
      have encodeKeeps :
          ∀ contexts : List LayerContext,
            StackLayer.serviceNames ∘ StackLayer.encode contexts =
              StackLayer.serviceNames := by
        intro contexts
        funext layer
        simp [StackLayer.serviceNames, StackLayer.encode,
          LogicModule.onEncode_context]
      simp only [perform, generateStack, encodeSequence_range_layers,
        List.map_map, encodeKeeps]
      exact session.map_serviceNames_loadLayers rng stack.layers engine
  | decode bytes =>
      exact session.map_serviceNames_decodeStackLayers _ bytes
        stack.layers 0

/-- Whatever is called on a named stack, it stays named. -/
theorem Named.performAll
    {stack : Stack}
    (named : stack.Named)
    (session : Session)
    (rng : Rng G)
    (history : List (Operation G)) :
    (stack.performAll session rng history).Named := by
  induction history generalizing stack with
  | nil =>
      exact named
  | cons operation rest inductionHypothesis =>
      apply inductionHypothesis
      rw [named_iff, map_serviceNames_perform, ← named_iff]
      exact named

end Stack

namespace StackBuilder

/-- A bound layer's context is named after the layer. -/
theorem named_of_bindLayer
    {dbServices : Database ProtocolService}
    {registry : LogicRegistry}
    {entry : LayerEntry}
    {layer : StackLayer}
    (bound : bindLayer dbServices registry entry = .ok layer) :
    layer.Named := by
  unfold bindLayer at bound
  split at bound
  · cases bound
  · split at bound
    · cases bound
    · cases bound
      rfl

/-- Whatever stack the builder hands out is named. -/
theorem named_of_build
    {dbServices : Database ProtocolService}
    {registry : LogicRegistry}
    {root : Yaml}
    {code : StackBuilderErr}
    {stack : Stack}
    (built : build dbServices registry root = .ok (code, some stack)) :
    stack.Named := by
  obtain ⟨name, layerNodes, layers, isBound, rfl⟩ :=
    exists_layers_of_build built
  have named := forall_of_buildLayers named_of_bindLayer isBound
  intro layer member
  obtain ⟨index, inside, isWired⟩ := List.mem_mapIdx.mp member
  rw [← isWired]
  exact named layers[index] (List.getElem_mem inside)

end StackBuilder

/-- The module of a layer has recorded the selector its context carries. -/
def StackLayer.SelectorRecorded
    (layer : StackLayer) : Prop :=
  match layer.logic with
  | .ethernetFrame members =>
      ∀ value, layer.context.getValue "ethertype" = some value →
        members.lastEthertype = value
  | .avtpControl members =>
      ∀ value, layer.context.getValue "subtype" = some value →
        members.lastSubtype = value
  | .aecpAem _ | .passthrough => True

/-- Decoding a layer records the selector that the layer carries. -/
theorem StackLayer.selectorRecorded_decoded
    (layer : StackLayer)
    (context : LayerContext) :
    { layer with
      logic := layer.logic.onDecode context
      context := context }.SelectorRecorded := by
  unfold SelectorRecorded
  cases layer.logic with
  | ethernetFrame members =>
      intro value carries
      simp only [EthernetFrameLogic.onDecode]
      rw [carries, Option.getD_some]
  | avtpControl members =>
      intro value carries
      simp only [AvtpControlLogic.onDecode]
      rw [carries, Option.getD_some]
  | aecpAem members =>
      trivial
  | passthrough =>
      trivial

/--
Decoding a frame through a named stack records, in every layer with an
interface, the selector the frame carried there, whatever it is; and no layer
is reported to diverge from its prediction.
-/
theorem decodeStack_records_selectors
    (session : Session)
    {stack : Stack}
    (named : stack.Named)
    (bytes : List UInt8) :
    (∀ line ∈ (stack.decodeStack session bytes).log, line.1 ≠ .info) ∧
      ∀ layer ∈ (stack.decodeStack session bytes).stack.layers,
        (session.interfaceForLayer layer).isSome →
          layer.SelectorRecorded := by
  constructor
  · intro line member
    have warning :=
      session.decodeStackLayers_log named bytes [] rfl 0 line member
    rw [warning]
    decide
  · intro layer member resolved
    obtain ⟨index, layerAt⟩ := List.mem_iff_getElem?.mp member
    obtain ⟨before, context, -, -, ⟨rfl, missing⟩ | isDecoded⟩ :=
      session.getElem?_decodeStackLayers stack.contexts bytes 0 layerAt
    · rw [missing] at resolved
      cases resolved
    · rw [isDecoded]
      exact before.selectorRecorded_decoded context

/--
A layer carries a selector that does not lead to the layer above: an ethertype
other than that of IEEE 1722 below an AVTP control layer, or a subtype other
than the one its upper service stands for.
-/
def Stack.WrongSelector
    (stack : Stack)
    (index : Nat) : Prop :=
  ∃ layer above value,
    stack.layers[index]? = some layer ∧
      stack.layers[index + 1]? = some above ∧
        (layer.logic.kind = .ethernetFrame ∧
            above.logic.kind = .avtpControl ∧
              layer.context.getValue "ethertype" = some value ∧
                value ≠ EthernetFrameLogic.kEthertype1722 ∨
          layer.logic.kind = .avtpControl ∧
            layer.context.getValue "subtype" = some value ∧
              AvtpControlLogic.subtypeForUpper stack.contexts
                  layer.context ≠ 0 ∧
                value ≠
                  (AvtpControlLogic.subtypeForUpper stack.contexts
                    layer.context).toUInt64)

/-- Ethernet, AVTP control and an AECP command, by their services. -/
def demuxSession : Session where
  varDb :=
    [("ethernet_mac_frame::ethertype", 16), ("avtp::subtype", 8)].foldl
      (fun varDb entry =>
        (varDb.addUniqueElement entry.1
          { name := entry.1
            size := entry.2
            expectedValues := []
            range := none
            mask := 0 }).2)
      .empty
  interfaceDb :=
    [("ethernet_mac_frame::mac::rx", "ethernet_mac_frame::ethertype"),
      ("avtp::control::rx", "avtp::subtype")].foldl
      (fun interfaceDb entry =>
        (interfaceDb.addUniqueElement entry.1
          { name := entry.1, direction := .IN, varRefs := [entry.2] }).2)
      .empty
  serviceDb :=
    [("ethernet_mac_frame", "ethernet_mac_frame"), ("avtp", "avtp_control"),
      ("atdecc_aecp_lock", "")].foldl
      (fun serviceDb entry =>
        (serviceDb.addUniqueElement entry.1
          { name := entry.1, logicName := entry.2 }).2)
      .empty

/-- A stack of the three services. -/
def demuxRoot : Yaml :=
  .map [
    ("stack", .scalar "command"),
    ("layers", .seq [
      .map [("service", .scalar "ethernet_mac_frame")],
      .map [("service", .scalar "avtp")],
      .map [("service", .scalar "atdecc_aecp_lock")]])]

/-- What the builder makes of it. -/
def demuxStack : Stack :=
  let boundLayer (serviceName logicName : String) (kind : LogicKind) :
      StackLayer :=
    { serviceName := serviceName
      entityName := ""
      interfaceName := ""
      logicName := logicName
      bypassLogic := false
      logic := .create kind
      context := .new serviceName }
  .assemble "command" [
    boundLayer "ethernet_mac_frame" "ethernet_mac_frame" .ethernetFrame,
    boundLayer "avtp" "avtp_control" .avtpControl,
    boundLayer "atdecc_aecp_lock" "" .passthrough]

theorem build_demuxStack :
    StackBuilder.build demuxSession.serviceDb .shipped demuxRoot =
      .ok (.success, some demuxStack) :=
  rfl

/-- An IPv4 frame passes the stack without a report. -/
theorem wrong_selector_not_reported :
    ¬ ∀ (session : Session) (stack : Stack) (bytes : List UInt8)
        (index : Nat),
      stack.Named →
        (stack.decodeStack session bytes).stack.WrongSelector index →
          ∃ line ∈ (stack.decodeStack session bytes).log,
            line.1 = .info := by
  intro always
  have named := StackBuilder.named_of_build build_demuxStack
  have wrong :
      (demuxStack.decodeStack demuxSession
        [8, 0, 0]).stack.WrongSelector 0 :=
    ⟨_, _, 0x800, rfl, rfl, Or.inl ⟨rfl, rfl, rfl, by decide⟩⟩
  obtain ⟨line, member, isInfo⟩ :=
    always demuxSession demuxStack [8, 0, 0] 0 named wrong
  have warning :=
    demuxSession.decodeStackLayers_log named [8, 0, 0] [] rfl 0 line member
  rw [warning] at isInfo
  cases isInfo

end TsnGen
