import TsnGen.StackHistory
import TsnGen.Yaml

namespace TsnGen

/-!
# Building stacks

`StackBuilder::build` from the parsed document on.  Every entry of `layers` is
read, resolved against the service database and bound to a module of the
registry; the first entry that cannot be bound ends the build without a stack.
What is built has empty contexts and newly constructed modules, so it is the
starting point of every history.
-/

/-- Result codes of the stack builder. -/
inductive StackBuilderErr where
  | success
  | unknown
  | invalidFile
  | missingKey
  | unknownService
  | unknownLogic
  deriving Repr, DecidableEq

/-- Factories of logic modules by name. -/
structure LogicRegistry where
  factories : OrderedMap String LogicKind

namespace LogicRegistry

/-- The registry before static initialisation. -/
def empty : LogicRegistry where
  factories := .empty

/-- Register a factory under a fresh non-empty name. -/
def add
    (registry : LogicRegistry)
    (name : String)
    (factory : LogicKind) : Bool × LogicRegistry :=
  if name = "" ∨ (registry.factories.find? name).isSome then
    (false, registry)
  else
    (true, { factories := registry.factories.emplace name factory })

/-- Construct the module registered under a name. -/
def create
    (registry : LogicRegistry)
    (name : String) : Option LogicModule :=
  (registry.factories.find? name).map LogicModule.create

/-- The modules the logic library registers when it is loaded. -/
def shipped : LogicRegistry :=
  let withEthernet := (empty.add "ethernet_mac_frame" .ethernetFrame).2
  let withAvtp := (withEthernet.add "avtp_control" .avtpControl).2
  (withAvtp.add "aecp_aem" .aecpAem).2

end LogicRegistry

namespace StackBuilder

/-- A flag is set by three spellings; anything else leaves it unset. -/
def readBool
    (node : Yaml) : Bool :=
  match node.text? with
  | some text => text = "true" || text = "1" || text = "yes"
  | none => false

/-- The scalar under a key, empty when the key is absent. -/
def optionalVal
    (node : Yaml)
    (key : String) : Except Abort String :=
  match node.child? key with
  | some child => child.val
  | none => return ""

/-- What one entry of `layers` says about its layer. -/
structure LayerEntry where
  serviceName : String
  entityName : String
  interfaceName : String
  bypassLogic : Bool
  deriving Repr, DecidableEq

/-- Read one entry; `none` when it is not a map with a `service`. -/
def readLayer
    (layerNode : Yaml) : Except Abort (Option LayerEntry) :=
  match layerNode.child? "service" with
  | none => return none
  | some serviceNode => do
      let serviceName ← serviceNode.val
      let entityName ← optionalVal layerNode "entity"
      let interfaceName ← optionalVal layerNode "interface"
      return some {
        serviceName := serviceName
        entityName := entityName
        interfaceName := interfaceName
        bypassLogic :=
          ((layerNode.child? "bypass-logic").map readBool).getD false }

/-- The module of a layer: a passthrough where logic is bypassed or absent. -/
def bindLogic
    (registry : LogicRegistry)
    (svc : ProtocolService)
    (bypassLogic : Bool) : Option LogicModule :=
  if bypassLogic ∨ svc.logicName = "" then
    some .passthrough
  else
    registry.create svc.logicName

/-- Resolve an entry against the services and the registry. -/
def bindLayer
    (dbServices : Database ProtocolService)
    (registry : LogicRegistry)
    (entry : LayerEntry) : Except StackBuilderErr StackLayer :=
  match dbServices.getElement entry.serviceName with
  | none => .error .unknownService
  | some svc =>
      match bindLogic registry svc entry.bypassLogic with
      | none => .error .unknownLogic
      | some logic =>
          .ok {
            serviceName := entry.serviceName
            entityName := entry.entityName
            interfaceName := entry.interfaceName
            logicName := svc.logicName
            bypassLogic := entry.bypassLogic
            logic := logic
            context := .new entry.serviceName }

/-- Bind the entries in order; the first failing one ends the loop. -/
def buildLayers
    (dbServices : Database ProtocolService)
    (registry : LogicRegistry) :
    List Yaml → Except Abort (Except StackBuilderErr (List StackLayer))
  | [] => return .ok []
  | layerNode :: rest => do
      match ← readLayer layerNode with
      | none => return .error .missingKey
      | some entry =>
          match bindLayer dbServices registry entry with
          | .error code => return .error code
          | .ok layer => do
              match ← buildLayers dbServices registry rest with
              | .error code => return .error code
              | .ok layers => return .ok (layer :: layers)

/-- Build a stack from a parsed document. -/
def build
    (dbServices : Database ProtocolService)
    (registry : LogicRegistry)
    (root : Yaml) : Except Abort (StackBuilderErr × Option Stack) :=
  if root.isMap then
    match (root.child? "stack").bind Yaml.text?, root.child? "layers" with
    | some name, some (.seq layerNodes) => do
        match ← buildLayers dbServices registry layerNodes with
        | .error code => return (code, none)
        | .ok layers => return (.success, some (.assemble name layers))
    | _, _ => return (.missingKey, none)
  else
    return (.invalidFile, none)

/-- A layer as it is bound: an empty context and a newly constructed module. -/
structure FreshLayer
    (layer : StackLayer) : Prop where
  unloaded : layer.context.fields = []
  unused : layer.logic = .create layer.logic.kind

/-- Every module a layer can be bound to is newly constructed. -/
theorem unused_of_bindLogic
    {registry : LogicRegistry}
    {svc : ProtocolService}
    {bypassLogic : Bool}
    {logic : LogicModule}
    (bound : bindLogic registry svc bypassLogic = some logic) :
    logic = .create logic.kind := by
  unfold bindLogic at bound
  split at bound
  · rw [Option.some.injEq] at bound
    rw [← bound]
    rfl
  · obtain ⟨kind, -, constructed⟩ := Option.map_eq_some_iff.mp bound
    rw [← constructed, LogicModule.kind_create]

/-- A bound layer is fresh. -/
theorem freshLayer_of_bindLayer
    {dbServices : Database ProtocolService}
    {registry : LogicRegistry}
    {entry : LayerEntry}
    {layer : StackLayer}
    (bound : bindLayer dbServices registry entry = .ok layer) :
    FreshLayer layer := by
  unfold bindLayer at bound
  split at bound
  · cases bound
  · split at bound
    · cases bound
    next logic isLogic =>
      rw [Except.ok.injEq] at bound
      subst bound
      exact ⟨rfl, unused_of_bindLogic isLogic⟩

/-- What holds of every bound layer holds of all layers of the loop. -/
theorem forall_of_buildLayers
    {dbServices : Database ProtocolService}
    {registry : LogicRegistry}
    {holds : StackLayer → Prop}
    (holdsBound :
      ∀ {entry layer},
        bindLayer dbServices registry entry = .ok layer → holds layer)
    {layerNodes : List Yaml}
    {layers : List StackLayer}
    (bound : buildLayers dbServices registry layerNodes = .ok (.ok layers)) :
    ∀ layer ∈ layers, holds layer := by
  induction layerNodes generalizing layers with
  | nil =>
      cases bound
      simp
  | cons layerNode rest inductionHypothesis =>
      unfold buildLayers at bound
      obtain ⟨read, -, bound⟩ := bind_eq_ok_iff.mp bound
      cases read with
      | none =>
          cases bound
      | some entry =>
          dsimp only at bound
          cases isLayer : bindLayer dbServices registry entry with
          | error code =>
              rw [isLayer] at bound
              cases bound
          | ok layer =>
              rw [isLayer] at bound
              obtain ⟨later, isLater, bound⟩ := bind_eq_ok_iff.mp bound
              cases later with
              | error code =>
                  cases bound
              | ok laterLayers =>
                  cases bound
                  simp only [List.mem_cons, forall_eq_or_imp]
                  exact ⟨holdsBound isLayer, inductionHypothesis isLater⟩

/-- Wiring fresh layers gives a fresh stack: only pointers are set. -/
theorem fresh_assemble
    (name : String)
    {layers : List StackLayer}
    (fresh : ∀ layer ∈ layers, FreshLayer layer) :
    (Stack.assemble name layers).Fresh := by
  have wired :
      ∀ layer ∈ (Stack.assemble name layers).layers,
        ∃ original ∈ layers,
          layer.logic = original.logic ∧
            layer.context.fields = original.context.fields := by
    intro layer member
    obtain ⟨index, inside, isWired⟩ := List.mem_mapIdx.mp member
    exact ⟨layers[index], List.getElem_mem inside, by simp [← isWired]⟩
  constructor
  · intro layer member
    obtain ⟨original, originalMember, -, sameFields⟩ := wired layer member
    rw [sameFields]
    exact (fresh original originalMember).unloaded
  · intro layer member
    obtain ⟨original, originalMember, sameLogic, -⟩ := wired layer member
    rw [sameLogic]
    exact (fresh original originalMember).unused

/-- A stack the builder hands out is assembled from bound layers. -/
theorem exists_layers_of_build
    {dbServices : Database ProtocolService}
    {registry : LogicRegistry}
    {root : Yaml}
    {code : StackBuilderErr}
    {stack : Stack}
    (built : build dbServices registry root = .ok (code, some stack)) :
    ∃ name layerNodes layers,
      buildLayers dbServices registry layerNodes = .ok (.ok layers) ∧
        stack = .assemble name layers := by
  unfold build at built
  split at built
  · split at built
    next name layerNodes _ _ =>
      obtain ⟨bound, isBound, built⟩ := bind_eq_ok_iff.mp built
      cases bound with
      | error code =>
          cases built
      | ok layers =>
          cases built
          exact ⟨name, layerNodes, layers, isBound, rfl⟩
    next =>
      cases built
  · cases built

/-- Whatever stack the builder hands out is fresh. -/
theorem fresh_of_build
    {dbServices : Database ProtocolService}
    {registry : LogicRegistry}
    {root : Yaml}
    {code : StackBuilderErr}
    {stack : Stack}
    (built : build dbServices registry root = .ok (code, some stack)) :
    stack.Fresh := by
  obtain ⟨name, layerNodes, layers, isBound, rfl⟩ :=
    exists_layers_of_build built
  exact fresh_assemble name
    (forall_of_buildLayers freshLayer_of_bindLayer isBound)

example :
    let dbServices :=
      (Database.empty.addUniqueElement "aecp"
        ({ name := "aecp", logicName := "aecp_aem" } : ProtocolService)).2
    let root : Yaml :=
      .map [
        ("stack", .scalar "command"),
        ("layers", .seq [
          .map [("service", .scalar "aecp")],
          .map [
            ("service", .scalar "aecp"),
            ("bypass-logic", .scalar "yes")]])]
    (build dbServices .shipped root).map (fun built =>
        built.2.map fun stack =>
          stack.layers.map fun layer => layer.logic.kind) =
      .ok (some [.aecpAem, .passthrough]) := by
  rfl

end StackBuilder

end TsnGen
