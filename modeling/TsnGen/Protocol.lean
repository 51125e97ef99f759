import TsnGen.Session
import TsnGen.Yaml

namespace TsnGen

/-!
# Loading protocol files

`Protocol::parseProtocolFile` from the parsed document on: the service name is
checked, then variables, interfaces and the service are added to the shared
databases in that order.  Malformed numbers fall back to a default, entries of
unexpected shape are skipped, and duplicate names keep their first element.

The library's test for numeric scalars, `is_number`, is a parameter of the
loader.
-/

/-- Result codes of the protocol loader. -/
inductive ProtocolErr where
  | success
  | unknown
  | invalidFile
  | unexpected
  deriving Repr, DecidableEq

namespace Protocol

/-- Parse an unsigned literal, or take the fallback when it is malformed. -/
def parseU64
    (text : String)
    (fallback : UInt64) : UInt64 :=
  match Numeral.stoull text with
  | some (value, _) => value
  | none => fallback

/-- Parse the literal of every node in order. -/
def parseAll
    (nodes : List Yaml) : Except Abort (List UInt64) :=
  nodes.mapM fun node => do
    let text ← node.val
    return parseU64 text 0

/-- Value constraints read from an `expected` node. -/
structure Expected where
  values : List UInt64
  range : Option Range
  mask : UInt64

/-- The constraints of a variable without `expected`. -/
def Expected.none : Expected where
  values := []
  range := .none
  mask := 0

/-- `expected.values`: an exhaustive list of allowed values. -/
def parseValues
    (expected : Yaml) : Except Abort (List UInt64) :=
  match expected.child? "values" with
  | some (.seq items) => parseAll items
  | _ => return []

/-- `expected.value`: one more allowed value. -/
def parseValue
    (expected : Yaml) : Except Abort (List UInt64) :=
  match expected.child? "value" with
  | some node => parseAll [node]
  | none => return []

/-- `expected.range`: a sequence of exactly two bounds. -/
def parseRange
    (expected : Yaml) : Except Abort (Option Range) :=
  match expected.child? "range" with
  | some (.seq [low, high]) => do
      let lowText ← low.val
      let highText ← high.val
      return some
        { min := parseU64 lowText 0, max := parseU64 highText 0 }
  | _ => return none

/-- `expected.mask`: only the first entry of the sequence counts. -/
def parseMask
    (expected : Yaml) : Except Abort UInt64 :=
  match expected.child? "mask" with
  | some (.seq (first :: _)) => do
      let text ← first.val
      return parseU64 text 0
  | _ => return 0

/-- Read the constraints below an `expected` node. -/
def parseExpected
    (expected : Yaml) : Except Abort Expected := do
  let values ← parseValues expected
  let value ← parseValue expected
  let range ← parseRange expected
  let mask ← parseMask expected
  return { values := values ++ value, range := range, mask := mask }

/-- The width of a variable; a missing or malformed size is zero. -/
def parseSize
    (varItem : Yaml) : Except Abort UInt32 :=
  match varItem.child? "size" with
  | some node => do
      let text ← node.val
      return (parseU64 text 0).toUInt32
  | none => return 0

/-- One entry of `vars`; entries without a `var` key are skipped. -/
def parseVar
    (serviceName : String)
    (varItem : Yaml) : Except Abort (Option Var) :=
  match varItem.child? "var" with
  | none => return none
  | some nameNode => do
      let varName ← nameNode.val
      let size ← parseSize varItem
      let expected ←
        match varItem.child? "expected" with
        | some node => parseExpected node
        | none => pure Expected.none
      return some {
        name := serviceName ++ "::" ++ varName
        size := size
        expectedValues := expected.values
        range := expected.range
        mask := expected.mask }

/-- Add the variables of a document to the variable database. -/
def getParsedProtocolVars
    (serviceName : String)
    (root : Yaml)
    (varDb : Database Var) : Except Abort (Database Var) :=
  match root.child? "vars" with
  | some (.seq items) =>
      items.foldlM
        (fun varDb varItem => do
          match ← parseVar serviceName varItem with
          | none => return varDb
          | some var => return (varDb.addUniqueElement var.name var).2)
        varDb
  | _ => return varDb

/-- Qualify a reference with the service unless it already is qualified. -/
def qualifyRef
    (serviceName refVal : String) : String :=
  if (rfind? "::".toList refVal.toList).isSome then
    refVal
  else
    serviceName ++ "::" ++ refVal

/--
Variable references of an interface.  The map form qualifies every value; the
sequence form keeps qualified references and skips other entries.
-/
def parseVarRefs
    (serviceName : String)
    (ifItem : Yaml) : Except Abort (List String) :=
  match ifItem.child? "vars" with
  | some (.map entries) =>
      entries.mapM fun entry => do
        let refVal ← entry.2.val
        return serviceName ++ "::" ++ refVal
  | some (.seq items) => do
      let refs ← items.mapM fun refItem =>
        match refItem.child? "var_ref" with
        | none => return []
        | some node => do
            let refVal ← node.val
            return [qualifyRef serviceName refVal]
      return refs.flatten
  | _ => return []

/-- The direction of an interface: `out` exactly when written so. -/
def parseDirection
    (ifItem : Yaml) : Except Abort IfDirections :=
  match ifItem.child? "dir" with
  | some node => do
      let dirStr ← node.val
      return if dirStr = "out" then .OUT else .IN
  | none => return .IN

/-- One interface of an entity; other entries are skipped. -/
def parseInterface
    (serviceName entityName : String)
    (ifItem : Yaml) : Except Abort (Option ProtocolInterface) :=
  match ifItem.child? "interface" with
  | none => return none
  | some nameNode => do
      let ifName ← nameNode.val
      let direction ← parseDirection ifItem
      let varRefs ← parseVarRefs serviceName ifItem
      return some {
        name := serviceName ++ "::" ++ entityName ++ "::" ++ ifName
        direction := direction
        varRefs := varRefs }

/-- Add the interfaces of one entity to the interface database. -/
def parseEntity
    (serviceName : String)
    (interfaceDb : Database ProtocolInterface)
    (entityItem : Yaml) : Except Abort (Database ProtocolInterface) :=
  match entityItem.child? "entity" with
  | none => return interfaceDb
  | some nameNode => do
      let entityName ← nameNode.val
      match entityItem.child? "interfaces" with
      | some (.seq items) =>
          items.foldlM
            (fun interfaceDb ifItem => do
              match ← parseInterface serviceName entityName ifItem with
              | none => return interfaceDb
              | some iface =>
                  return (interfaceDb.addUniqueElement iface.name iface).2)
            interfaceDb
      | _ => return interfaceDb

/-- Add the interfaces of a document to the interface database. -/
def getParsedProtocolInterface
    (serviceName : String)
    (root : Yaml)
    (interfaceDb : Database ProtocolInterface) :
    Except Abort (Database ProtocolInterface) :=
  match root.child? "entities" with
  | some (.seq items) =>
      items.foldlM (parseEntity serviceName) interfaceDb
  | _ => return interfaceDb

/-- Record the service with its logic name, empty when none is declared. -/
def getParsedProtocolService
    (serviceName : String)
    (root : Yaml)
    (serviceDb : Database ProtocolService) : Database ProtocolService :=
  let logicName := ((root.child? "logic").bind Yaml.text?).getD ""
  (serviceDb.addUniqueElement serviceName
    { name := serviceName, logicName := logicName }).2

/-- The service name: a scalar that is not a number. -/
def getProtocolName
    (isNumber : String → Bool)
    (root : Yaml) : Except ProtocolErr String :=
  match root.child? "service" with
  | none => .error .invalidFile
  | some node =>
      match node.text? with
      | none => .error .unexpected
      | some text => if isNumber text then .error .unexpected else .ok text

/-- Load one parsed document into the databases. -/
def parseProtocolFile
    (isNumber : String → Bool)
    (root : Yaml)
    (session : Session) : Except Abort (ProtocolErr × Session) :=
  if root.isMap then
    match getProtocolName isNumber root with
    | .error code => return (code, session)
    | .ok serviceName => do
        let varDb ← getParsedProtocolVars serviceName root session.varDb
        let interfaceDb ←
          getParsedProtocolInterface serviceName root session.interfaceDb
        let serviceDb :=
          getParsedProtocolService serviceName root session.serviceDb
        return (.success,
          { varDb := varDb
            interfaceDb := interfaceDb
            serviceDb := serviceDb })
  else
    return (.invalidFile, session)

/-- Load documents one after the other into fresh databases. -/
def parseProtocolFiles
    (isNumber : String → Bool)
    (roots : List Yaml) : Except Abort Session :=
  roots.foldlM
    (fun session root => do
      let loaded ← parseProtocolFile isNumber root session
      return loaded.2)
    { varDb := .empty, interfaceDb := .empty, serviceDb := .empty }

end Protocol

end TsnGen
