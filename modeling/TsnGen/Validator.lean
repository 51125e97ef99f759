import TsnGen.Yaml

namespace TsnGen

/-!
# Validating protocol files

`ProtocolValidator` walks the same document trees as the loader and the stack
builder and reports structural violations of the published schemas.  Every
finding it adds has error severity, so a file is accepted exactly when no
finding is reported.
-/

/-- One reported violation. -/
structure ValidationFinding where
  message : String
  deriving Repr, DecidableEq

namespace ProtocolValidator

/-- The findings of a walk, or the way in which the walk ended early. -/
abbrev Findings := Except Abort (List ValidationFinding)

/-- A single finding. -/
def report
    (message : String) : List ValidationFinding :=
  [{ message := message }]

/-- A finding unless a check holds. -/
def expect
    (check : Bool)
    (message : String) : List ValidationFinding :=
  if check then [] else report message

/-- Findings of every node in order. -/
def validateEach
    (validate : Yaml → Findings)
    (nodes : List Yaml) : Findings := do
  let findings ← nodes.mapM validate
  return findings.flatten

/-- A present scalar with a non-empty text. -/
def isNonEmptyScalar
    (node : Option Yaml) : Bool :=
  match node.bind Yaml.text? with
  | some text => text ≠ ""
  | none => false

/-- An unsigned literal without sign that covers the whole scalar. -/
def isUintScalar
    (node : Option Yaml) : Bool :=
  match node.bind Yaml.text? with
  | none => false
  | some text =>
      match text.toList with
      | [] => false
      | first :: _ =>
          if first = '-' ∨ first = '+' then
            false
          else
            match Numeral.stoull text with
            | some (_, consumed) => consumed = text.toList.length
            | none => false

/-- Signed conversion of a scalar, without a guard of its own. -/
def asInt
    (node : Yaml) : Except Abort Int := do
  let text ← node.val
  match Numeral.stoll text with
  | some value => return value
  | none => .error .outOfRange

/-- Report every key that the schema does not allow here. -/
def checkAllowedKeys
    (map : Yaml)
    (allowed : List String)
    (place : String) : List ValidationFinding :=
  map.keys.flatMap fun key =>
    expect (allowed.contains key)
      ("unknown key '" ++ key ++ "' in " ++ place ++
        " (not part of the protocol schema)")

/-- The text of a scalar child, or `?` when it is missing or empty. -/
def nameOf
    (node : Yaml)
    (key : String) : String :=
  if isNonEmptyScalar (node.child? key) then
    ((node.child? key).bind Yaml.text?).getD "?"
  else
    "?"

/-- `expected.values`: only its first wrong item is reported. -/
def validateValues
    (values : Yaml)
    (varName : String) : List ValidationFinding :=
  match values with
  | .seq (first :: rest) =>
      expect ((first :: rest).all fun item => isUintScalar (some item))
        ("expected.values of '" ++ varName ++
          "' must contain unsigned integers")
  | _ =>
      report ("expected.values of '" ++ varName ++
        "' must be a non-empty list")

/-- `expected.range`: exactly two unsigned integers. -/
def isRange : Yaml → Bool
  | .seq [low, high] => isUintScalar (some low) && isUintScalar (some high)
  | _ => false

/-- `expected.mask`: exactly one unsigned integer. -/
def isMask : Yaml → Bool
  | .seq [mask] => isUintScalar (some mask)
  | _ => false

/-- Check a present child and report nothing for an absent one. -/
def whenChild
    (node : Yaml)
    (key : String)
    (validate : Yaml → List ValidationFinding) : List ValidationFinding :=
  match node.child? key with
  | some child => validate child
  | none => []

/-- Findings below an `expected` node. -/
def validateExpected
    (expected : Yaml)
    (varName : String) : List ValidationFinding :=
  if expected.isMap then
    checkAllowedKeys expected ["value", "values", "range", "mask"]
        ("expected of var '" ++ varName ++ "'") ++
      whenChild expected "value" (fun value =>
        expect (isUintScalar (some value))
          ("expected.value of '" ++ varName ++
            "' must be an unsigned integer")) ++
      whenChild expected "values" (fun values =>
        validateValues values varName) ++
      whenChild expected "range" (fun range =>
        expect (isRange range)
          ("expected.range of '" ++ varName ++
            "' must be [min, max] unsigned integers")) ++
      whenChild expected "mask" (fun mask =>
        expect (isMask mask)
          ("expected.mask of '" ++ varName ++
            "' must be a single-element [M] list"))
  else
    report ("'expected' for var '" ++ varName ++ "' must be a map")

/-- Findings on the width of a variable. -/
def validateSize
    (var : Yaml)
    (name : String) : Findings :=
  match var.child? "size" with
  | none => return report ("var '" ++ name ++ "' missing 'size'")
  | some size =>
      if isUintScalar (some size) then do
        let bits ← asInt size
        return expect (1 ≤ bits ∧ bits ≤ 4096)
          ("var '" ++ name ++ "' size must be in 1..4096 bits")
      else
        return report
          ("var '" ++ name ++ "' size must be an unsigned integer")

/-- Findings of one `vars` entry. -/
def validateVar
    (var : Yaml) : Findings :=
  if var.isMap then do
    let name := nameOf var "var"
    let sized ← validateSize var name
    return checkAllowedKeys var ["var", "size", "expected"] "a vars entry" ++
      expect (isNonEmptyScalar (var.child? "var"))
        "vars entry missing a non-empty 'var' name" ++
      sized ++
      whenChild var "expected" (fun expected =>
        validateExpected expected name)
  else
    return report "each 'vars' entry must be a map"

/-- Findings on the direction of an interface; its scalar is unguarded. -/
def validateDir
    (iface : Yaml)
    (name : String) : Findings :=
  match iface.child? "dir" with
  | none => return report ("interface '" ++ name ++ "' missing 'dir'")
  | some node => do
      let dir ← node.val
      return expect (dir = "in" ∨ dir = "out")
        ("interface '" ++ name ++ "' dir must be 'in' or 'out' (got '" ++
          dir ++ "')")

/-- Findings of a `var_ref` list, up to its first malformed entry. -/
def validateVarRefs
    (name : String) :
    List Yaml → List ValidationFinding
  | [] => []
  | ref :: rest =>
      if ref.hasChild "var_ref" then
        checkAllowedKeys ref ["var_ref"]
            ("a var_ref of interface '" ++ name ++ "'") ++
          validateVarRefs name rest
      else
        report ("interface '" ++ name ++
          "' vars entries must be '\x7b var_ref: name \x7d'")

/-- Findings of one interface. -/
def validateInterface
    (iface : Yaml) : Findings :=
  if iface.isMap then do
    let name := nameOf iface "interface"
    let directed ← validateDir iface name
    return checkAllowedKeys iface ["interface", "dir", "vars"]
        "an interface" ++
      expect (isNonEmptyScalar (iface.child? "interface"))
        "interface missing a non-empty 'interface' name" ++
      directed ++
      whenChild iface "vars" (fun vars =>
        if vars.isSeq then
          validateVarRefs name vars.children
        else
          report ("interface '" ++ name ++
            "' vars must be a list of var_ref"))
  else
    return report "each interface must be a map"

/-- Findings of one entity. -/
def validateEntity
    (entity : Yaml) : Findings :=
  if entity.isMap then do
    let name := nameOf entity "entity"
    let named :=
      checkAllowedKeys entity ["entity", "interfaces"]
          "an entities entry" ++
        expect (isNonEmptyScalar (entity.child? "entity"))
          "entities entry missing a non-empty 'entity' name"
    match entity.child? "interfaces" with
    | none =>
        return named ++
          report ("entity '" ++ name ++ "' missing 'interfaces'")
    | some (.seq (first :: rest)) =>
        let below ← validateEach validateInterface (first :: rest)
        return named ++ below
    | some _ =>
        return named ++
          report ("entity '" ++ name ++
            "' interfaces must be a non-empty list")
  else
    return report "each 'entities' entry must be a map"

/-- Findings of an optional top-level list. -/
def validateList
    (root : Yaml)
    (key : String)
    (validate : Yaml → Findings) : Findings :=
  match root.child? key with
  | none => return []
  | some (.seq items) => validateEach validate items
  | some _ => return report ("'" ++ key ++ "' must be a list")

/-- Findings of one protocol document. -/
def validateProtocolFile
    (root : Yaml) : Findings :=
  if root.isMap then do
    let vars ← validateList root "vars" validateVar
    let entities ← validateList root "entities" validateEntity
    return checkAllowedKeys root ["service", "logic", "vars", "entities"]
        "the top level" ++
      expect (isNonEmptyScalar (root.child? "service"))
        "missing required non-empty 'service'" ++
      whenChild root "logic" (fun logic =>
        expect (isNonEmptyScalar (some logic))
          "'logic' must be a non-empty string") ++
      expect (root.hasChild "vars" || root.hasChild "entities")
        "a protocol must define 'vars' and/or 'entities'" ++
      vars ++ entities
  else
    return report "file is empty or not a YAML map"

/-- Findings of one layer of a stack document. -/
def validateLayer
    (layer : Yaml) : List ValidationFinding :=
  if layer.isMap then
    checkAllowedKeys layer
        ["service", "entity", "interface", "bypass-logic"] "a layer" ++
      expect (isNonEmptyScalar (layer.child? "service"))
        "layer missing a non-empty 'service'"
  else
    report "each layer must be a map"

/-- Findings of one stack document. -/
def validateStackFile
    (root : Yaml) : Findings :=
  if root.isMap then
    let named :=
      checkAllowedKeys root ["stack", "layers"] "the top level" ++
        expect (isNonEmptyScalar (root.child? "stack"))
          "missing required non-empty 'stack'"
    match root.child? "layers" with
    | none => return named ++ report "missing 'layers'"
    | some (.seq (first :: rest)) =>
        return named ++ (first :: rest).flatMap validateLayer
    | some _ =>
        return named ++ report "'layers' must be a non-empty list"
  else
    return report "file is empty or not a YAML map"

/-- A document is accepted when the walk completes without a finding. -/
def Accepts
    (root : Yaml) : Prop :=
  validateProtocolFile root = .ok []

instance
    (root : Yaml) :
    Decidable (Accepts root) :=
  match shape : validateProtocolFile root with
  | .ok [] => .isTrue shape
  | .ok (_ :: _) => .isFalse (by simp [Accepts, shape])
  | .error _ => .isFalse (by simp [Accepts, shape])

end ProtocolValidator

end TsnGen
