import TsnGen.StackBuilder

namespace TsnGen

/-!
# What the builder binds

The builder reads an entry of `layers`, looks its service up and binds a
module, and stops at the first entry where one of the three fails.  For
entries of scalar values this is said here once per entry: what fails it, and
which layer it becomes.  A build then is the first failure, or all the layers.
-/

namespace LayerContext

/-- The pointers of a context, downwards and upwards. -/
def links
    (ctx : LayerContext) : Option Nat × Option Nat :=
  (ctx.lower, ctx.upper)

/--
The walk of `bytesAbove` with its end in view: `none` where a pointer is left
when the fuel is used up.
-/
def walkUpwards
    (contexts : List LayerContext) :
    Nat → Option Nat → Option Nat
  | _, none => some 0
  | 0, some _ => none
  | fuel + 1, some index =>
      contexts[index]?.bind fun above =>
        (walkUpwards contexts fuel above.upper).map (above.byteSize + ·)

/-- A walk that ends has added up what `bytesAbove` adds up. -/
theorem sumUpwards_of_walkUpwards
    {contexts : List LayerContext}
    {fuel : Nat}
    {pointer : Option Nat}
    {total : Nat}
    (ends : walkUpwards contexts fuel pointer = some total) :
    sumUpwards contexts fuel pointer = total := by
  induction fuel generalizing pointer total with
  | zero =>
      cases pointer with
      | none =>
          cases ends
          rfl
      | some index =>
          cases ends
  | succ fuel inductionHypothesis =>
      cases pointer with
      | none =>
          cases ends
          rfl
      | some index =>
          rw [walkUpwards] at ends
          obtain ⟨above, aboveAt, walked⟩ := Option.bind_eq_some_iff.mp ends
          obtain ⟨later, isLater, rfl⟩ := Option.map_eq_some_iff.mp walked
          simp only [sumUpwards, deref, Option.bind_some, aboveAt,
            inductionHypothesis isLater]

/-- Every upper pointer of the memory leads to the next context, if any. -/
def LinkedUpwards
    (contexts : List LayerContext) : Prop :=
  ∀ (index : Nat) (ctx : LayerContext),
    contexts[index]? = some ctx →
    ctx.upper =
      if index + 1 < contexts.length then some (index + 1) else none

/-- Linked contexts are walked to their end, each counted once. -/
theorem walkUpwards_eq
    {contexts : List LayerContext}
    (linked : LinkedUpwards contexts)
    (fuel : Nat)
    {index : Nat}
    {ctx : LayerContext}
    (ctxAt : contexts[index]? = some ctx)
    (enough : contexts.length ≤ fuel + (index + 1)) :
    walkUpwards contexts fuel ctx.upper =
      some ((contexts.drop (index + 1)).map byteSize).sum := by
  induction fuel generalizing index ctx with
  | zero =>
      have top : ¬ index + 1 < contexts.length := by
        omega
      rw [linked index ctx ctxAt, if_neg top,
        List.drop_eq_nil_of_le (by omega)]
      rfl
  | succ fuel inductionHypothesis =>
      rw [linked index ctx ctxAt]
      by_cases top : index + 1 < contexts.length
      · have aboveAt := List.getElem?_eq_getElem top
        have walked := inductionHypothesis aboveAt (by omega)
        rw [if_pos top, walkUpwards, aboveAt, Option.bind_some, walked,
          List.drop_eq_getElem_cons top]
        rfl
      · rw [if_neg top, List.drop_eq_nil_of_le (by omega)]
        rfl

end LayerContext

namespace StackBuilder

/-- The four values the builder reads of an entry are scalars. -/
def ScalarValues
    (layerNode : Yaml) : Prop :=
  ∀ key ∈ ["service", "entity", "interface", "bypass-logic"],
    ∀ child ∈ layerNode.child? key, child.text?.isSome = true

instance
    (layerNode : Yaml) :
    Decidable (ScalarValues layerNode) :=
  inferInstanceAs
    (Decidable
      (∀ key ∈ ["service", "entity", "interface", "bypass-logic"],
        ∀ child ∈ layerNode.child? key, child.text?.isSome = true))

/-- The spellings of `bypass-logic` that switch a layer's module off. -/
def bypassed
    (layerNode : Yaml) : Bool :=
  ["true", "1", "yes"].contains (layerNode.textOf "bypass-logic")

/-- Why an entry cannot be bound, if it cannot. -/
def failure
    (dbServices : Database ProtocolService)
    (registry : LogicRegistry)
    (layerNode : Yaml) : Option StackBuilderErr :=
  if layerNode.hasChild "service" then
    match dbServices.getElement (layerNode.textOf "service") with
    | none => some .unknownService
    | some svc =>
        if bypassed layerNode = false ∧ svc.logicName ≠ "" ∧
            registry.create svc.logicName = none then
          some .unknownLogic
        else
          none
  else
    some .missingKey

/--
The layer an entry becomes: its names as written, its module a passthrough
where it is bypassed or its service has no logic and otherwise what the
registry constructs, its context empty.
-/
structure BoundByTable
    (dbServices : Database ProtocolService)
    (registry : LogicRegistry)
    (layerNode : Yaml)
    (layer : StackLayer) : Prop where
  service : layer.serviceName = layerNode.textOf "service"
  entity : layer.entityName = layerNode.textOf "entity"
  interface : layer.interfaceName = layerNode.textOf "interface"
  bypass : layer.bypassLogic = bypassed layerNode
  context_named : layer.context.serviceName = layer.serviceName
  context_empty : layer.context.fields = []
  logic :
    ∃ svc,
      dbServices.getElement layer.serviceName = some svc ∧
        layer.logicName = svc.logicName ∧
          if layer.bypassLogic = true ∨ svc.logicName = "" then
            layer.logic = .passthrough
          else
            registry.create svc.logicName = some layer.logic

/-- The entry of a node with scalar values. -/
def entryOf
    (layerNode : Yaml) : LayerEntry where
  serviceName := layerNode.textOf "service"
  entityName := layerNode.textOf "entity"
  interfaceName := layerNode.textOf "interface"
  bypassLogic := bypassed layerNode

/-- A scalar or absent value is read as its text. -/
theorem optionalVal_eq
    {layerNode : Yaml}
    {key : String}
    (scalar : ∀ child ∈ layerNode.child? key, child.text?.isSome = true) :
    optionalVal layerNode key = .ok (layerNode.textOf key) := by
  unfold optionalVal Yaml.textOf
  cases found : layerNode.child? key with
  | none =>
      rfl
  | some child =>
      obtain ⟨text, isText⟩ := Option.isSome_iff_exists.mp (scalar child found)
      simp [Yaml.val, isText]

/-- The flag of an entry is read off its spelling. -/
theorem readBool_eq_bypassed
    (layerNode : Yaml) :
    ((layerNode.child? "bypass-logic").map readBool).getD false =
      bypassed layerNode := by
  unfold bypassed Yaml.textOf
  cases layerNode.child? "bypass-logic" with
  | none =>
      rfl
  | some child =>
      cases text : child.text? with
      | none =>
          simp [readBool, text]
      | some spelled =>
          simp [readBool, text, Bool.or_assoc]

/-- Entries of scalar values are read without an abort. -/
theorem readLayer_eq
    {layerNode : Yaml}
    (scalars : ScalarValues layerNode) :
    readLayer layerNode =
      .ok (if layerNode.hasChild "service" then
        some (entryOf layerNode)
      else
        none) := by
  have service :=
    optionalVal_eq (scalars "service" (by simp))
  have entity :=
    optionalVal_eq (scalars "entity" (by simp))
  have interface :=
    optionalVal_eq (scalars "interface" (by simp))
  unfold readLayer
  cases found : layerNode.child? "service" with
  | none =>
      simp [Yaml.hasChild, found]
  | some serviceNode =>
      simp only [optionalVal, found] at service
      simp only [service, entity, interface, Yaml.hasChild, found,
        readBool_eq_bypassed, Option.isSome_some, if_true]
      rfl

section Binding

variable
    {dbServices : Database ProtocolService}
    {registry : LogicRegistry}
    {layerNode : Yaml}

/-- An entry with a service that fails is refused with its code. -/
theorem bindLayer_of_failure
    (hasService : layerNode.hasChild "service" = true)
    {code : StackBuilderErr}
    (fails : failure dbServices registry layerNode = some code) :
    bindLayer dbServices registry (entryOf layerNode) = .error code := by
  unfold failure at fails
  rw [if_pos hasService] at fails
  unfold bindLayer
  cases found : dbServices.getElement (layerNode.textOf "service") with
  | none =>
      rw [found] at fails
      cases fails
      simp [entryOf, found]
  | some svc =>
      rw [found] at fails
      dsimp only at fails
      split at fails
      next unregistered =>
        cases fails
        obtain ⟨notBypassed, hasLogic, missing⟩ := unregistered
        simp [entryOf, found, bindLogic, notBypassed, hasLogic, missing]
      next =>
        cases fails

/-- A module is bound unless it is wanted and not registered. -/
theorem bindLogic_of_bindable
    {svc : ProtocolService}
    {bypassLogic : Bool}
    (bindable :
      ¬ (bypassLogic = false ∧ svc.logicName ≠ "" ∧
        registry.create svc.logicName = none)) :
    ∃ logic,
      bindLogic registry svc bypassLogic = some logic ∧
        if bypassLogic = true ∨ svc.logicName = "" then
          logic = .passthrough
        else
          registry.create svc.logicName = some logic := by
  unfold bindLogic
  by_cases plain : bypassLogic = true ∨ svc.logicName = ""
  · rw [if_pos plain]
    exact ⟨.passthrough, rfl, by rw [if_pos plain]⟩
  · obtain ⟨notBypassed, hasLogic⟩ := not_or.mp plain
    have registered : registry.create svc.logicName ≠ none := by
      intro missing
      exact bindable
        ⟨Bool.eq_false_iff.mpr notBypassed, hasLogic, missing⟩
    obtain ⟨logic, isLogic⟩ := Option.ne_none_iff_exists'.mp registered
    rw [if_neg plain]
    exact ⟨logic, isLogic, by rw [if_neg plain]; exact isLogic⟩

/-- An entry that does not fail is bound by the table. -/
theorem bindLayer_of_no_failure
    (passes : failure dbServices registry layerNode = none) :
    ∃ layer,
      bindLayer dbServices registry (entryOf layerNode) = .ok layer ∧
        BoundByTable dbServices registry layerNode layer := by
  unfold failure at passes
  split at passes
  next hasService =>
    cases found : dbServices.getElement (layerNode.textOf "service") with
    | none =>
        rw [found] at passes
        cases passes
    | some svc =>
        rw [found] at passes
        dsimp only at passes
        split at passes
        next unregistered =>
          cases passes
        next bindable =>
          obtain ⟨logic, isLogic, table⟩ := bindLogic_of_bindable bindable
          simp only [bindLayer, entryOf, found, isLogic]
          exact ⟨_, rfl, rfl, rfl, rfl, rfl, rfl, rfl, svc, found, rfl,
            table⟩
  next =>
    cases passes

end Binding

/--
The loop over the entries ends with the first failure, or with every entry
bound by the table.
-/
theorem buildLayers_eq
    {dbServices : Database ProtocolService}
    {registry : LogicRegistry}
    {layerNodes : List Yaml}
    (scalars : ∀ layerNode ∈ layerNodes, ScalarValues layerNode) :
    (∀ code,
        layerNodes.findSome? (failure dbServices registry) = some code →
        buildLayers dbServices registry layerNodes = .ok (.error code)) ∧
      (layerNodes.findSome? (failure dbServices registry) = none →
        ∃ layers,
          buildLayers dbServices registry layerNodes = .ok (.ok layers) ∧
            List.Forall₂ (BoundByTable dbServices registry)
              layerNodes layers) := by
  induction layerNodes with
  | nil =>
      refine ⟨?_, fun _ => ⟨[], rfl, .nil⟩⟩
      intro code fails
      cases fails
  | cons layerNode rest inductionHypothesis =>
      obtain ⟨restFails, restPasses⟩ :=
        inductionHypothesis fun later member =>
          scalars later (List.mem_cons_of_mem _ member)
      have read := readLayer_eq (scalars layerNode List.mem_cons_self)
      rw [List.findSome?_cons]
      unfold buildLayers
      rw [read]
      cases verdict : failure dbServices registry layerNode with
      | some code =>
          refine ⟨?_, fun passes => by cases passes⟩
          intro first isFirst
          cases isFirst
          by_cases hasService : layerNode.hasChild "service" = true
          · rw [if_pos hasService]
            have refused := bindLayer_of_failure hasService verdict
            simp only [bind, Except.bind, refused]
            rfl
          · rw [if_neg hasService]
            rw [failure, if_neg hasService] at verdict
            cases verdict
            rfl
      | none =>
          obtain ⟨layer, isLayer, bound⟩ := bindLayer_of_no_failure verdict
          have hasService : layerNode.hasChild "service" = true := by
            by_contra missing
            rw [failure, if_neg missing] at verdict
            cases verdict
          rw [if_pos hasService]
          simp only [bind, Except.bind, isLayer]
          refine ⟨?_, ?_⟩
          · intro code fails
            rw [restFails code fails]
            rfl
          · intro passes
            obtain ⟨layers, isLayers, related⟩ := restPasses passes
            exact ⟨layer :: layers, by rw [isLayers]; rfl,
              .cons bound related⟩

/--
A stack built from entries: one layer per entry in order, each bound by the
table; contexts linked to their neighbours, so that whatever fields they are
loaded with later, `bytesAbove` comes to an end with the layers above.
-/
structure BuiltFrom
    (dbServices : Database ProtocolService)
    (registry : LogicRegistry)
    (layerNodes : List Yaml)
    (stack : Stack) : Prop where
  bound :
    List.Forall₂ (BoundByTable dbServices registry) layerNodes stack.layers
  linked :
    ∀ (index : Nat) (layer : StackLayer),
      stack.layers[index]? = some layer →
      layer.context.lower = (if 0 < index then some (index - 1) else none) ∧
        layer.context.upper =
          if index + 1 < layerNodes.length then some (index + 1) else none
  above :
    ∀ contexts : List LayerContext,
      contexts.map LayerContext.links =
        stack.contexts.map LayerContext.links →
      ∀ (index : Nat) (ctx : LayerContext),
        contexts[index]? = some ctx →
        (∀ fuel, contexts.length ≤ fuel →
          LayerContext.walkUpwards contexts fuel ctx.upper =
            some ((contexts.drop (index + 1)).map
              LayerContext.byteSize).sum) ∧
          ctx.bytesAbove contexts =
            ((contexts.drop (index + 1)).map LayerContext.byteSize).sum

/-- Wiring sets pointers only, so that the layers stay bound. -/
theorem forall₂_wireAdjacency
    {dbServices : Database ProtocolService}
    {registry : LogicRegistry}
    {layerNodes : List Yaml}
    {layers : List StackLayer}
    (bound :
      List.Forall₂ (BoundByTable dbServices registry) layerNodes layers) :
    List.Forall₂ (BoundByTable dbServices registry)
      layerNodes (wireAdjacency layers) := by
  rw [List.forall₂_iff_get] at bound ⊢
  obtain ⟨sameLength, related⟩ := bound
  refine ⟨by simp [wireAdjacency, sameLength], ?_⟩
  intro index nodeInside layerInside
  have inside : index < layers.length := by
    rw [← sameLength]
    exact nodeInside
  obtain ⟨service, entity, interface, bypass, named, empty, logic⟩ :=
    related index nodeInside inside
  simp only [wireAdjacency, List.get_eq_getElem, List.getElem_mapIdx]
  exact ⟨service, entity, interface, bypass, named, empty, logic⟩

/-- Contexts with the links of a stack are linked upwards. -/
theorem linkedUpwards_of_links
    {stack : Stack}
    {contexts : List LayerContext}
    (sameLinks :
      contexts.map LayerContext.links =
        stack.contexts.map LayerContext.links) :
    LayerContext.LinkedUpwards contexts := by
  have sameLength : contexts.length = stack.layers.length := by
    simpa [Stack.contexts] using congrArg List.length sameLinks
  intro index ctx ctxAt
  have linksAt := congrArg (fun links => links[index]?) sameLinks
  simp only [Stack.contexts, List.map_map, List.getElem?_map, ctxAt,
    Option.map_some] at linksAt
  obtain ⟨layer, layerAt, same⟩ :=
    Option.map_eq_some_iff.mp linksAt.symm
  have sameUpper : layer.context.upper = ctx.upper :=
    congrArg Prod.snd same
  rw [← sameUpper, stack.upper_eq layerAt, sameLength]

/-- The stack assembled from bound layers is built from their entries. -/
theorem builtFrom_assemble
    {dbServices : Database ProtocolService}
    {registry : LogicRegistry}
    {layerNodes : List Yaml}
    {layers : List StackLayer}
    (name : String)
    (bound :
      List.Forall₂ (BoundByTable dbServices registry) layerNodes layers) :
    BuiltFrom dbServices registry layerNodes
      (Stack.assemble name layers) where
  bound := forall₂_wireAdjacency bound
  linked := by
    intro index layer layerAt
    simp only [Stack.assemble, wireAdjacency, List.getElem?_mapIdx,
      Option.map_eq_some_iff] at layerAt
    obtain ⟨original, -, rfl⟩ := layerAt
    rw [bound.length_eq]
    exact ⟨rfl, rfl⟩
  above := by
    intro contexts sameLinks index ctx ctxAt
    have linked := linkedUpwards_of_links sameLinks
    have walked :
        ∀ fuel, contexts.length ≤ fuel →
          LayerContext.walkUpwards contexts fuel ctx.upper =
            some ((contexts.drop (index + 1)).map
              LayerContext.byteSize).sum := by
      intro fuel enough
      exact LayerContext.walkUpwards_eq linked fuel ctxAt (by omega)
    exact ⟨walked,
      LayerContext.sumUpwards_of_walkUpwards
        (walked contexts.length (le_refl _))⟩

section Build

variable
    {dbServices : Database ProtocolService}
    {registry : LogicRegistry}
    {root : Yaml}
    {name : String}
    {layerNodes : List Yaml}
    (isName : (root.child? "stack").bind Yaml.text? = some name)
    (isLayers : root.child? "layers" = some (.seq layerNodes))

include isName isLayers

/-- With a name and a sequence of layers, a build is the loop over them. -/
theorem build_eq
    {bound : Except StackBuilderErr (List StackLayer)}
    (isBound : buildLayers dbServices registry layerNodes = .ok bound) :
    build dbServices registry root =
      .ok (match bound with
        | .error code => (code, none)
        | .ok layers => (.success, some (.assemble name layers))) := by
  have isMap : root.isMap = true := by
    cases root with
    | map entries =>
        rfl
    | scalar text =>
        cases isLayers
    | seq items =>
        cases isLayers
  rw [build, if_pos isMap, isName, isLayers]
  simp only [bind, Except.bind, isBound]
  cases bound with
  | error code =>
      rfl
  | ok layers =>
      rfl

section Scalars

variable
    (scalars : ∀ layerNode ∈ layerNodes, ScalarValues layerNode)

include scalars

/-- An entry that cannot be bound ends the build with its code. -/
theorem build_of_failure
    {code : StackBuilderErr}
    (fails :
      layerNodes.findSome? (failure dbServices registry) = some code) :
    build dbServices registry root = .ok (code, none) :=
  build_eq isName isLayers ((buildLayers_eq scalars).1 code fails)

/-- If every entry can be bound, all of them are. -/
theorem build_of_no_failure
    (passes : layerNodes.findSome? (failure dbServices registry) = none) :
    ∃ stack,
      build dbServices registry root = .ok (.success, some stack) ∧
        stack.name = name ∧
          BuiltFrom dbServices registry layerNodes stack := by
  obtain ⟨layers, isBound, bound⟩ := (buildLayers_eq scalars).2 passes
  exact ⟨.assemble name layers, build_eq isName isLayers isBound, rfl,
    builtFrom_assemble name bound⟩

/--
A build of scalar entries is all or nothing: it fails, without a stack, with
the code of the first entry that cannot be bound, and if there is none it
succeeds with a stack built from the entries.
-/
theorem build_all_or_nothing :
    (∀ code,
        build dbServices registry root = .ok (code, none) ↔
          layerNodes.findSome? (failure dbServices registry) =
            some code) ∧
      (layerNodes.findSome? (failure dbServices registry) = none →
        ∃ stack,
          build dbServices registry root = .ok (.success, some stack) ∧
            stack.name = name ∧
              BuiltFrom dbServices registry layerNodes stack) := by
  refine ⟨?_, build_of_no_failure isName isLayers scalars⟩
  intro code
  constructor
  · intro failed
    cases verdict :
        layerNodes.findSome? (failure dbServices registry) with
    | none =>
        obtain ⟨stack, succeeded, -⟩ :=
          build_of_no_failure isName isLayers scalars verdict
        rw [succeeded] at failed
        cases failed
    | some first =>
        rw [build_of_failure isName isLayers scalars verdict] at failed
        cases failed
        rfl
  · exact build_of_failure isName isLayers scalars

end Scalars

end Build

/-- A bypassed layer of an unregistered module under a plain one. -/
def bypassedNodes : List Yaml :=
  [.map [
      ("service", .scalar "mac"),
      ("bypass-logic", .scalar "yes")],
    .map [
      ("service", .scalar "payload"),
      ("interface", .scalar "tx")]]

/-- A service of an unregistered module and one without a module. -/
def bypassedServices : Database ProtocolService :=
  [("mac", "never_registered"), ("payload", "")].foldl
    (fun dbServices entry =>
      (dbServices.addUniqueElement entry.1
        { name := entry.1, logicName := entry.2 }).2)
    .empty

/-- A stack of these layers. -/
def bypassedRoot : Yaml :=
  .map [("stack", .scalar "fuzz"), ("layers", .seq bypassedNodes)]

theorem build_bypassed_over_unregistered :
    (∀ layerNode ∈ bypassedNodes, ScalarValues layerNode) ∧
      ∃ stack,
        build bypassedServices .shipped bypassedRoot =
            .ok (.success, some stack) ∧
          BuiltFrom bypassedServices .shipped bypassedNodes stack := by
  have scalars : ∀ layerNode ∈ bypassedNodes, ScalarValues layerNode := by
    decide
  obtain ⟨stack, succeeded, -, built⟩ :=
    (@build_all_or_nothing bypassedServices .shipped bypassedRoot "fuzz"
      bypassedNodes rfl rfl scalars).2 rfl
  exact ⟨scalars, stack, succeeded, built⟩

end StackBuilder

end TsnGen
