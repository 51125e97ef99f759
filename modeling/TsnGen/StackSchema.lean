import TsnGen.DeclaredElements
import TsnGen.ProtocolSchema
import TsnGen.StackBinding

namespace TsnGen

/-!
# Stack documents: schema, validator and builder

`stack.schema.json` as a `Schema`, next to the schema the validator enforces of
it: the same tree, except that anything may stand under the optional keys of a
layer.  An accepted document conforms and is built as written exactly where
these keys hold what the schema asks for and no flag is spelled in a way that
only the schema takes for true.
-/

namespace StackSchema

open Schema

/-- The spellings of a YAML boolean. -/
def boolean : Schema :=
  .string 0 (some ["true", "True", "TRUE", "false", "False", "FALSE"])

/-- `$defs/layer`, over what stands under the optional keys. -/
def layer
    (optionalName flag : Schema) : Schema :=
  .object ["service"] [] 0 [
    ("service", ProtocolSchema.name),
    ("entity", optionalName),
    ("interface", optionalName),
    ("bypass-logic", flag)]

/-- The top level of a stack document. -/
def stack
    (layer : Schema) : Schema :=
  .object ["stack", "layers"] [] 0 [
    ("stack", ProtocolSchema.name),
    ("layers", .array 1 none layer)]

/-- `stack.schema.json`. -/
def published : Schema :=
  stack (layer ProtocolSchema.name boolean)

/-- What the validator enforces of it. -/
def enforced : Schema :=
  stack (layer .anything .anything)

/-- A document conforms to the published schema. -/
def Conforms
    (root : Yaml) : Prop :=
  conforms Numeral.unsignedLiteral? published root = true

variable
    {reading : String → Option Int}

/-- Names are the non-empty scalars. -/
theorem conforms_name_iff
    {node : Yaml} :
    conforms reading ProtocolSchema.name node = true ↔
      ∃ text, node.text? = some text ∧ text ≠ "" := by
  rw [ProtocolSchema.name, conforms_string_iff]
  simp [Nat.one_le_iff_ne_zero]

/-- Flags are the scalars that spell a boolean. -/
theorem conforms_boolean_iff
    {node : Yaml} :
    conforms reading boolean node = true ↔
      ∃ text, node.text? = some text ∧
        text ∈ ["true", "True", "TRUE", "false", "False", "FALSE"] := by
  rw [boolean, conforms_string_iff]
  simp only [Nat.zero_le, Option.some.injEq, forall_eq', true_and]

/-- A required name is a non-empty scalar under its key. -/
theorem required_name_iff
    (reading : String → Option Int)
    {node : Yaml}
    {key : String} :
    (node.hasChild key = true ∧
        ∀ child, node.child? key = some child →
          conforms reading ProtocolSchema.name child = true) ↔
      ∃ text, node.child? key = some (.scalar text) ∧ text ≠ "" := by
  unfold Yaml.hasChild
  cases node.child? key with
  | none =>
      simp
  | some child =>
      cases child with
      | scalar text =>
          simp [conforms_name_iff, Yaml.text?]
      | seq items =>
          simp [conforms_name_iff, Yaml.text?]
      | map entries =>
          simp [conforms_name_iff, Yaml.text?]

/-- A layer conforms when its service is named and its other keys conform. -/
theorem conforms_layer_iff
    {optionalName flag : Schema}
    {node : Yaml} :
    conforms reading (layer optionalName flag) node = true ↔
      node.isMap = true ∧
        (∀ key ∈ node.keys,
          key ∈ ["service", "entity", "interface", "bypass-logic"]) ∧
          (∃ service, node.child? "service" = some (.scalar service) ∧
            service ≠ "") ∧
            (∀ key ∈ ["entity", "interface"],
              ∀ child, node.child? key = some child →
                conforms reading optionalName child = true) ∧
              ∀ child, node.child? "bypass-logic" = some child →
                conforms reading flag child = true := by
  rw [layer, conforms_object_iff, ← required_name_iff reading]
  simp [and_assoc]

/-- A stack conforms when it is named and lists conforming layers. -/
theorem conforms_stack_iff
    {layer : Schema}
    {root : Yaml} :
    conforms reading (stack layer) root = true ↔
      root.isMap = true ∧
        (∀ key ∈ root.keys, key ∈ ["stack", "layers"]) ∧
          (∃ name, root.child? "stack" = some (.scalar name) ∧
            name ≠ "") ∧
            ∃ nodes, root.child? "layers" = some (.seq nodes) ∧
              nodes ≠ [] ∧
                ∀ node ∈ nodes, conforms reading layer node = true := by
  have listed :
      (root.hasChild "layers" = true ∧
          ∀ child, root.child? "layers" = some child →
            conforms reading (.array 1 none layer) child = true) ↔
        ∃ nodes, root.child? "layers" = some (.seq nodes) ∧
          nodes ≠ [] ∧
            ∀ node ∈ nodes, conforms reading layer node = true := by
    unfold Yaml.hasChild
    cases root.child? "layers" with
    | none =>
        simp
    | some child =>
        simp only [Option.isSome_some, Option.some.injEq, forall_eq',
          true_and, conforms_array_iff, Nat.one_le_iff_ne_zero, ne_eq,
          List.length_eq_zero_iff, reduceCtorEq, false_implies,
          implies_true]
  rw [stack, conforms_object_iff, ← required_name_iff reading,
    ← listed]
  simp [and_assoc, and_left_comm]

end StackSchema

namespace ProtocolValidator

open Schema

/-- A layer passes the validator when its service is named. -/
theorem validateLayer_eq_nil_iff
    (reading : String → Option Int)
    {layer : Yaml} :
    validateLayer layer = [] ↔
      conforms reading (StackSchema.layer .anything .anything) layer =
        true := by
  rw [StackSchema.layer, conforms_object_iff]
  unfold validateLayer
  by_cases isMap : layer.isMap = true
  · simp [isMap, isNonEmptyScalar_child_iff reading]
  · simp [isMap]

/-- The validator accepts what conforms to the enforced schema. -/
theorem validateStackFile_eq_ok_nil_iff
    (reading : String → Option Int)
    {root : Yaml} :
    validateStackFile root = .ok [] ↔
      conforms reading StackSchema.enforced root = true := by
  rw [StackSchema.enforced, StackSchema.stack, conforms_object_iff]
  unfold validateStackFile
  by_cases isMap : root.isMap = true
  · rw [if_pos isMap]
    split
    next missing =>
      simp [Yaml.hasChild, missing]
    next first rest isLayers =>
      simp [isMap, isLayers, Yaml.hasChild,
        isNonEmptyScalar_child_iff reading, conforms_array_iff,
        validateLayer_eq_nil_iff reading, and_assoc]
    next other child notLayers isChild =>
      simp only [pure_eq_ok_iff, List.append_eq_nil_iff, report_ne_nil,
        and_false, false_iff]
      rintro ⟨-, -, -, -, -, properties⟩
      have conforming :=
        properties
          ("layers", .array 1 none (StackSchema.layer .anything .anything))
          (by simp) child isChild
      obtain ⟨nodes, rfl, present, -⟩ := conforms_array_iff.mp conforming
      cases nodes with
      | nil =>
          simp at present
      | cons first rest =>
          exact notLayers first rest rfl
  · simp [isMap]

end ProtocolValidator

namespace StackBuilder

open Schema

/-- An accepted document has a name and a list of layers with services. -/
structure AcceptedShape
    (root : Yaml)
    (name : String)
    (layerNodes : List Yaml) : Prop where
  isName : (root.child? "stack").bind Yaml.text? = some name
  isLayers : root.child? "layers" = some (.seq layerNodes)
  services :
    ∀ layerNode ∈ layerNodes,
      ∃ service,
        layerNode.child? "service" = some (.scalar service) ∧ service ≠ ""

/-- What the database and the registry must hold for a document. -/
structure Provides
    (dbServices : Database ProtocolService)
    (registry : LogicRegistry)
    (layerNodes : List Yaml) : Prop where
  registered :
    ∀ layerNode ∈ layerNodes,
      ∃ svc,
        dbServices.getElement (layerNode.textOf "service") = some svc ∧
          (svc.logicName ≠ "" →
            (registry.create svc.logicName).isSome = true)

/-- The spellings of true that the schema knows. -/
def writtenTrue
    (layerNode : Yaml) : Bool :=
  ["true", "True", "TRUE"].contains (layerNode.textOf "bypass-logic")

/-- A layer says what is written in its entry. -/
structure AsWritten
    (layerNode : Yaml)
    (layer : StackLayer) : Prop where
  service : layer.serviceName = layerNode.textOf "service"
  entity : layer.entityName = layerNode.textOf "entity"
  interface : layer.interfaceName = layerNode.textOf "interface"
  bypass : layer.bypassLogic = true ↔ writtenTrue layerNode = true

/-- Wherever its services are known, the document is built as written. -/
def BuiltAsWritten
    (root : Yaml) : Prop :=
  ∀ dbServices registry,
    Provides dbServices registry (root.listed "layers") →
      ∃ stack,
        build dbServices registry root = .ok (.success, some stack) ∧
          List.Forall₂ AsWritten (root.listed "layers") stack.layers

/-- The optional keys of a layer hold what the schema asks for. -/
structure ConformingKeys
    (layerNode : Yaml) : Prop where
  names :
    ∀ key ∈ ["entity", "interface"],
      ∀ child, layerNode.child? key = some child →
        ∃ text, child.text? = some text ∧ text ≠ ""
  flag :
    ∀ child, layerNode.child? "bypass-logic" = some child →
      ∃ text, child.text? = some text ∧
        text ∈ ["true", "True", "TRUE", "false", "False", "FALSE"]

/--
The optional keys of a layer hold non-empty scalars, and a flag that both the
schema and the builder read alike.
-/
structure PlainlyWritten
    (layerNode : Yaml) : Prop where
  entity :
    ∀ child, layerNode.child? "entity" = some child →
      ∃ text, child.text? = some text ∧ text ≠ ""
  interface :
    ∀ child, layerNode.child? "interface" = some child →
      ∃ text, child.text? = some text ∧ text ≠ ""
  flag :
    ∀ child, layerNode.child? "bypass-logic" = some child →
      ∃ text, child.text? = some text ∧
        text ∈ ["true", "false", "False", "FALSE"]

/-- The shape of what the validator accepts. -/
theorem acceptedShape_of_accepted
    {root : Yaml}
    (accepted : ProtocolValidator.validateStackFile root = .ok []) :
    ∃ name, AcceptedShape root name (root.listed "layers") := by
  rw [ProtocolValidator.validateStackFile_eq_ok_nil_iff
    Numeral.unsignedLiteral?] at accepted
  obtain ⟨-, -, ⟨name, isName, -⟩, nodes, isLayers, -, conforming⟩ :=
    StackSchema.conforms_stack_iff.mp accepted
  have isListed : root.listed "layers" = nodes := by
    rw [Yaml.listed, isLayers]
  rw [isListed]
  refine ⟨name, by rw [isName]; rfl, isLayers, ?_⟩
  intro layerNode member
  obtain ⟨-, -, service, -⟩ :=
    StackSchema.conforms_layer_iff.mp (conforming layerNode member)
  exact service

/-- Under the published schema the optional keys conform, too. -/
theorem conforms_iff_of_accepted
    {root : Yaml}
    (accepted : ProtocolValidator.validateStackFile root = .ok []) :
    StackSchema.Conforms root ↔
      ∀ layerNode ∈ root.listed "layers", ConformingKeys layerNode := by
  rw [ProtocolValidator.validateStackFile_eq_ok_nil_iff
    Numeral.unsignedLiteral?] at accepted
  obtain ⟨isMap, keys, named, nodes, isLayers, nonempty, conforming⟩ :=
    StackSchema.conforms_stack_iff.mp accepted
  have isListed : root.listed "layers" = nodes := by
    rw [Yaml.listed, isLayers]
  rw [isListed, StackSchema.Conforms, StackSchema.published,
    StackSchema.conforms_stack_iff]
  constructor
  · rintro ⟨-, -, -, others, isOthers, -, published⟩ layerNode member
    rw [isLayers, Option.some.injEq, Yaml.seq.injEq] at isOthers
    subst isOthers
    obtain ⟨-, -, -, names, flag⟩ :=
      StackSchema.conforms_layer_iff.mp (published layerNode member)
    exact ⟨fun key isKey child isChild =>
        StackSchema.conforms_name_iff.mp (names key isKey child isChild),
      fun child isChild =>
        StackSchema.conforms_boolean_iff.mp (flag child isChild)⟩
  · intro plain
    refine ⟨isMap, keys, named, nodes, isLayers, nonempty, ?_⟩
    intro layerNode member
    obtain ⟨layerIsMap, layerKeys, service, -, -⟩ :=
      StackSchema.conforms_layer_iff.mp (conforming layerNode member)
    obtain ⟨names, flag⟩ := plain layerNode member
    exact StackSchema.conforms_layer_iff.mpr
      ⟨layerIsMap, layerKeys, service,
        fun key isKey child isChild =>
          StackSchema.conforms_name_iff.mpr (names key isKey child isChild),
        fun child isChild =>
          StackSchema.conforms_boolean_iff.mpr (flag child isChild)⟩

section Accepted

variable
    {root : Yaml}
    {name : String}
    {layerNodes : List Yaml}
    (shape : AcceptedShape root name layerNodes)
    {dbServices : Database ProtocolService}
    {registry : LogicRegistry}
    (provides : Provides dbServices registry layerNodes)

include shape provides

/-- With its services known, no entry of an accepted document fails. -/
theorem findSome?_failure_of_provides :
    layerNodes.findSome? (failure dbServices registry) = none := by
  rw [List.findSome?_eq_none_iff]
  intro layerNode member
  obtain ⟨service, isService, -⟩ := shape.services layerNode member
  obtain ⟨svc, found, registered⟩ := provides.registered layerNode member
  have hasService : layerNode.hasChild "service" = true := by
    rw [Yaml.hasChild, isService]
    rfl
  rw [failure, if_pos hasService, found]
  dsimp only
  rw [if_neg]
  rintro ⟨-, hasLogic, missing⟩
  have isRegistered := registered hasLogic
  rw [missing] at isRegistered
  cases isRegistered

/-- Scalar entries of an accepted document are built by the table. -/
theorem build_of_accepted
    (scalars : ∀ layerNode ∈ layerNodes, ScalarValues layerNode) :
    ∃ stack,
      build dbServices registry root = .ok (.success, some stack) ∧
        List.Forall₂ (BoundByTable dbServices registry) layerNodes
          stack.layers := by
  obtain ⟨stack, built, -, fromNodes⟩ :=
    build_of_no_failure shape.isName shape.isLayers scalars
      (findSome?_failure_of_provides shape provides)
  exact ⟨stack, built, fromNodes.bound⟩

/-- Scalar entries are built as written where every flag is read so. -/
theorem build_asWritten_iff
    (scalars : ∀ layerNode ∈ layerNodes, ScalarValues layerNode) :
    (∃ stack,
        build dbServices registry root = .ok (.success, some stack) ∧
          List.Forall₂ AsWritten layerNodes stack.layers) ↔
      ∀ layerNode ∈ layerNodes,
        (bypassed layerNode = true ↔ writtenTrue layerNode = true) := by
  obtain ⟨stack, built, bound⟩ := build_of_accepted shape provides scalars
  obtain ⟨sameLength, boundAt⟩ := List.forall₂_iff_get.mp bound
  constructor
  · rintro ⟨other, builtOther, written⟩ layerNode member
    rw [built] at builtOther
    cases builtOther
    obtain ⟨index, inside, rfl⟩ := List.mem_iff_getElem.mp member
    have layerInside : index < stack.layers.length := by
      omega
    have isBound := (boundAt index inside layerInside).bypass
    have isWritten := (written.get inside layerInside).bypass
    rw [isBound] at isWritten
    exact isWritten
  · intro flags
    refine ⟨stack, built, List.forall₂_iff_get.mpr ⟨sameLength, ?_⟩⟩
    intro index inside layerInside
    have isBound := boundAt index inside layerInside
    refine ⟨isBound.service, isBound.entity, isBound.interface, ?_⟩
    rw [isBound.bypass]
    exact flags _ (List.get_mem _ _)

end Accepted

/-- A database that knows every named service, none of them with logic. -/
def plainServices
    (names : List String) : Database ProtocolService :=
  Database.empty.addAll ProtocolService.name
    (names.map fun name => { name := name, logicName := "" })

/-- Every non-empty name of the list is known there. -/
theorem getElement_plainServices
    {names : List String}
    {name : String}
    (member : name ∈ names)
    (nonempty : name ≠ "") :
    (plainServices names).getElement name =
      some { name := name, logicName := "" } := by
  rw [plainServices, Database.getElement_addAll,
    Database.getElement_empty, Option.none_or, Database.firstNamed,
    if_neg nonempty, List.find?_map]
  cases found :
      names.find? fun other => decide (other = name) with
  | none =>
      have absent := List.find?_eq_none.mp found name member
      simp at absent
  | some other =>
      have same : other = name := by
        simpa using List.find?_some found
      simp only [Function.comp_def, found, Option.map_some, same]

/-- Every accepted document has a database and a registry to be built with. -/
theorem provides_plainServices
    {root : Yaml}
    {name : String}
    {layerNodes : List Yaml}
    (shape : AcceptedShape root name layerNodes) :
    Provides
      (plainServices (layerNodes.map fun layerNode =>
        layerNode.textOf "service"))
      .empty layerNodes where
  registered := by
    intro layerNode member
    obtain ⟨service, isService, nonempty⟩ := shape.services layerNode member
    have isText : layerNode.textOf "service" = service := by
      rw [Yaml.textOf, isService]
      rfl
    refine ⟨_, getElement_plainServices
      (List.mem_map.mpr ⟨layerNode, member, rfl⟩)
      (by rw [isText]; exact nonempty), ?_⟩
    intro hasLogic
    exact absurd rfl hasLogic

/-- An accepted document with conforming keys has scalar values only. -/
theorem AcceptedShape.scalarValues
    {root : Yaml}
    {name : String}
    {layerNodes : List Yaml}
    (shape : AcceptedShape root name layerNodes)
    (conforming : ∀ layerNode ∈ layerNodes, ConformingKeys layerNode) :
    ∀ layerNode ∈ layerNodes, ScalarValues layerNode := by
  intro layerNode member key isKey child isChild
  obtain ⟨service, isService, -⟩ := shape.services layerNode member
  obtain ⟨names, flag⟩ := conforming layerNode member
  simp only [List.mem_cons, List.not_mem_nil, or_false] at isKey
  rcases isKey with rfl | rfl | rfl | rfl
  · rw [Option.mem_def, isService, Option.some.injEq] at isChild
    rw [← isChild]
    rfl
  · obtain ⟨text, isText, -⟩ := names "entity" (by simp) child isChild
    rw [isText]
    rfl
  · obtain ⟨text, isText, -⟩ := names "interface" (by simp) child isChild
    rw [isText]
    rfl
  · obtain ⟨text, isText, -⟩ := flag child isChild
    rw [isText]
    rfl

/-- What is plainly written conforms. -/
theorem PlainlyWritten.conformingKeys
    {layerNode : Yaml}
    (plain : PlainlyWritten layerNode) :
    ConformingKeys layerNode where
  names := by
    simp only [List.mem_cons, List.not_mem_nil, or_false]
    rintro key (rfl | rfl)
    · exact plain.entity
    · exact plain.interface
  flag := by
    intro child isChild
    obtain ⟨text, isText, spelled⟩ := plain.flag child isChild
    refine ⟨text, isText, ?_⟩
    simp only [List.mem_cons, List.not_mem_nil, or_false] at spelled ⊢
    tauto

/-- A flag is read as written unless it spells true with a capital. -/
theorem ConformingKeys.bypassed_iff
    {layerNode : Yaml}
    (conforming : ConformingKeys layerNode) :
    (bypassed layerNode = true ↔ writtenTrue layerNode = true) ↔
      ∀ child, layerNode.child? "bypass-logic" = some child →
        ∃ text, child.text? = some text ∧
          text ∈ ["true", "false", "False", "FALSE"] := by
  unfold bypassed writtenTrue Yaml.textOf
  cases present : layerNode.child? "bypass-logic" with
  | none =>
      simp
  | some child =>
      obtain ⟨text, isText, spelled⟩ := conforming.flag child present
      simp only [Option.bind_some, isText, Option.getD_some,
        Option.some.injEq, forall_eq', exists_eq_left']
      revert spelled
      simp only [List.mem_cons, List.not_mem_nil, or_false]
      rintro (rfl | rfl | rfl | rfl | rfl | rfl) <;> decide

/--
An accepted document conforms to the schema and is built as written exactly
where the optional keys of every layer are plainly written.
-/
theorem accepted_conforms_and_builds_iff
    {root : Yaml}
    (accepted : ProtocolValidator.validateStackFile root = .ok []) :
    (StackSchema.Conforms root ∧ BuiltAsWritten root) ↔
      ∀ layerNode ∈ root.listed "layers", PlainlyWritten layerNode := by
  obtain ⟨name, shape⟩ := acceptedShape_of_accepted accepted
  rw [conforms_iff_of_accepted accepted]
  constructor
  · rintro ⟨conforming, written⟩ layerNode member
    have provides := provides_plainServices shape
    have flags :=
      (build_asWritten_iff shape provides
        (shape.scalarValues conforming)).mp (written _ _ provides)
    have conformingKeys := conforming layerNode member
    exact ⟨conformingKeys.names "entity" (by simp),
      conformingKeys.names "interface" (by simp),
      conformingKeys.bypassed_iff.mp (flags layerNode member)⟩
  · intro plain
    have conforming :
        ∀ layerNode ∈ root.listed "layers", ConformingKeys layerNode :=
      fun layerNode member => (plain layerNode member).conformingKeys
    refine ⟨conforming, ?_⟩
    intro dbServices registry provides
    apply (build_asWritten_iff shape provides
      (shape.scalarValues conforming)).mpr
    intro layerNode member
    exact (conforming layerNode member).bypassed_iff.mpr
      (plain layerNode member).flag

/-- A layer with a flag. -/
def flaggedLayer
    (flag : String) : Yaml :=
  .map [("service", .scalar "mac"), ("bypass-logic", .scalar flag)]

/-- A stack of one layer with a flag. -/
def flaggedRoot
    (flag : String) : Yaml :=
  .map [
    ("stack", .scalar "fuzz"),
    ("layers", .seq [flaggedLayer flag])]

theorem accepted_lower_case_flag :
    ProtocolValidator.validateStackFile (flaggedRoot "true") = .ok [] ∧
      StackSchema.Conforms (flaggedRoot "true") ∧
        BuiltAsWritten (flaggedRoot "true") := by
  have accepted :
      ProtocolValidator.validateStackFile (flaggedRoot "true") = .ok [] :=
    rfl
  refine ⟨accepted, (accepted_conforms_and_builds_iff accepted).mpr ?_⟩
  intro layerNode member
  rw [List.mem_singleton.mp member]
  constructor
  · intro child isChild
    cases isChild
  · intro child isChild
    cases isChild
  · intro child isChild
    cases isChild
    exact ⟨"true", rfl, by simp⟩

/-- A flag with a capital is accepted and conforms, but is read as false. -/
theorem accepted_capital_flag_ignored :
    ¬ ∀ root : Yaml,
      ProtocolValidator.validateStackFile root = .ok [] →
        StackSchema.Conforms root ∧ BuiltAsWritten root := by
  intro always
  have accepted :
      ProtocolValidator.validateStackFile (flaggedRoot "True") = .ok [] :=
    rfl
  obtain ⟨-, written⟩ := always (flaggedRoot "True") accepted
  obtain ⟨name, shape⟩ := acceptedShape_of_accepted accepted
  have provides := provides_plainServices shape
  have scalars :
      ∀ layerNode ∈ (flaggedRoot "True").listed "layers",
        ScalarValues layerNode := by
    decide
  have flags :=
    (build_asWritten_iff shape provides scalars).mp (written _ _ provides)
  have flag := flags (flaggedLayer "True") (List.mem_singleton.mpr rfl)
  revert flag
  decide

end StackBuilder

end TsnGen
