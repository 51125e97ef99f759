import TsnGen.Yaml

namespace TsnGen

/-!
# Schemas of document trees

The fragment of JSON Schema that the published schemas use, as a tree: objects
without additional properties, arrays with bounds on their size, strings and
integers.  References to shared definitions are unfolded.  Any scalar is a
string; which scalars are integers is a parameter, the reading.
-/

/-- A schema; an absent keyword is its neutral value. -/
inductive Schema where
  | anything
  | string (minLength : Nat) (enum : Option (List String))
  | integer (minimum maximum : Option Int)
  | array (minItems : Nat) (maxItems : Option Nat) (items : Schema)
  | object
      (required : List String)
      (anyOf : List (List String))
      (minProperties : Nat)
      (properties : List (String × Schema))

namespace Schema

mutual

/-- Whether a tree conforms to a schema under a reading of integers. -/
def conforms
    (reading : String → Option Int) :
    Schema → Yaml → Bool
  | .anything, _ => true
  | .string minLength enum, node =>
      match node.text? with
      | none => false
      | some text =>
          decide (minLength ≤ text.length) &&
            enum.all fun values => values.contains text
  | .integer minimum maximum, node =>
      match node.text?.bind reading with
      | none => false
      | some value =>
          minimum.all (fun bound => decide (bound ≤ value)) &&
            maximum.all fun bound => decide (value ≤ bound)
  | .array minItems maxItems items, node =>
      match node with
      | .seq nodes =>
          decide (minItems ≤ nodes.length) &&
            maxItems.all (fun bound => decide (nodes.length ≤ bound)) &&
            nodes.all (conforms reading items)
      | _ => false
  | .object required anyOf minProperties properties, node =>
      node.isMap &&
        node.keys.all (properties.map Prod.fst).contains &&
        required.all node.hasChild &&
        (anyOf.isEmpty || anyOf.any fun keys => keys.all node.hasChild) &&
        decide (minProperties ≤ node.keys.length) &&
        propertiesConform reading properties node

/-- Whether every declared property that is present conforms. -/
def propertiesConform
    (reading : String → Option Int) :
    List (String × Schema) → Yaml → Bool
  | [], _ => true
  | (key, schema) :: rest, node =>
      (node.child? key).all (conforms reading schema) &&
        propertiesConform reading rest node

end

variable {reading : String → Option Int}

@[simp] theorem conforms_anything
    (node : Yaml) :
    conforms reading .anything node = true :=
  rfl

/-- Strings are the scalars of sufficient length and, maybe, of a given set. -/
theorem conforms_string_iff
    {minLength : Nat}
    {enum : Option (List String)}
    {node : Yaml} :
    conforms reading (.string minLength enum) node = true ↔
      ∃ text, node.text? = some text ∧ minLength ≤ text.length ∧
        ∀ values, enum = some values → text ∈ values := by
  rw [conforms]
  cases node.text? with
  | none =>
      simp
  | some text =>
      cases enum with
      | none =>
          simp
      | some values =>
          simp

/-- Integers are the scalars with a reading between the bounds. -/
theorem conforms_integer_iff
    {minimum maximum : Option Int}
    {node : Yaml} :
    conforms reading (.integer minimum maximum) node = true ↔
      ∃ text value, node.text? = some text ∧ reading text = some value ∧
        (∀ bound, minimum = some bound → bound ≤ value) ∧
          ∀ bound, maximum = some bound → value ≤ bound := by
  rw [conforms]
  cases node.text? with
  | none =>
      simp
  | some text =>
      cases read : reading text with
      | none =>
          simp [read]
      | some value =>
          cases minimum <;> cases maximum <;> simp [read]

/-- Arrays are the sequences of bounded size with conforming items. -/
theorem conforms_array_iff
    {minItems : Nat}
    {maxItems : Option Nat}
    {items : Schema}
    {node : Yaml} :
    conforms reading (.array minItems maxItems items) node = true ↔
      ∃ nodes, node = .seq nodes ∧ minItems ≤ nodes.length ∧
        (∀ bound, maxItems = some bound → nodes.length ≤ bound) ∧
          ∀ item ∈ nodes, conforms reading items item = true := by
  cases node with
  | scalar text =>
      simp [conforms]
  | map entries =>
      simp [conforms]
  | seq nodes =>
      cases maxItems with
      | none =>
          simp [conforms]
      | some bound =>
          simp [conforms, and_assoc]

/-- Items of a conforming child list conform. -/
theorem conforms_of_mem_listed
    {minItems : Nat}
    {maxItems : Option Nat}
    {items : Schema}
    {node : Yaml}
    {key : String}
    (conforming :
      ∀ child, node.child? key = some child →
        conforms reading (.array minItems maxItems items) child = true)
    {item : Yaml}
    (member : item ∈ node.listed key) :
    conforms reading items item = true := by
  unfold Yaml.listed at member
  split at member
  next nodes isSeq =>
    obtain ⟨_, same, -, -, conformingItems⟩ :=
      conforms_array_iff.mp (conforming _ isSeq)
    cases same
    exact conformingItems item member
  next =>
    simp at member

theorem propertiesConform_iff
    {properties : List (String × Schema)}
    {node : Yaml} :
    propertiesConform reading properties node = true ↔
      ∀ property ∈ properties,
        ∀ child, node.child? property.1 = some child →
          conforms reading property.2 child = true := by
  induction properties with
  | nil =>
      simp [propertiesConform]
  | cons property rest inductionHypothesis =>
      rw [propertiesConform, Bool.and_eq_true, inductionHypothesis,
        List.forall_mem_cons]
      cases node.child? property.1 with
      | none =>
          simp
      | some child =>
          simp

/--
Objects are the mappings with declared keys only, all required keys and
conforming values.
-/
theorem conforms_object_iff
    {required : List String}
    {anyOf : List (List String)}
    {minProperties : Nat}
    {properties : List (String × Schema)}
    {node : Yaml} :
    conforms reading
        (.object required anyOf minProperties properties) node = true ↔
      node.isMap = true ∧
        (∀ key ∈ node.keys, key ∈ properties.map Prod.fst) ∧
          (∀ key ∈ required, node.hasChild key = true) ∧
            (anyOf = [] ∨
              ∃ keys ∈ anyOf, ∀ key ∈ keys, node.hasChild key = true) ∧
              minProperties ≤ node.keys.length ∧
                ∀ property ∈ properties,
                  ∀ child, node.child? property.1 = some child →
                    conforms reading property.2 child = true := by
  rw [conforms, ← propertiesConform_iff]
  simp [and_assoc]

end Schema

end TsnGen
