import SolidityAudit.Contract.Facts
import SolidityAudit.Fault
import SolidityAudit.Text.Blank

/-!
# Collecting facts from an outline

An outline is a tree of values. Its nodes are visited in order: a node before what it holds, the
items of a list in order, the fields of an object in the order of their keys, and never what stands
under the key `type`. A visit adds to the facts by the kind of the node; a node of a shape that
cannot be read ends the collection, and so does a type whose text cannot be written.
-/

namespace SolidityAudit

/-- The fields of a node. -/
abbrev Fields := List (String × Value)

namespace Fields

/-- The value under a key, or null. -/
def get (key : String) (fields : Fields) : Value :=
  (fieldOf key fields).getD .null

end Fields

namespace Value

mutual

/-- The text of a type. -/
def typeLabel : Value → Except Fault Value
  | object fields =>
    let kind := (fieldOf "type" fields).getD (.str "")
    let name := (fieldOf "name" fields).getD (.str "")
    if fields.isEmpty then .ok (.str "")
    else if kind.same (.str "ElementaryTypeName") then .ok name
    else if kind.same (.str "UserDefinedTypeName") then
      .ok ((fieldOf "namePath" fields).getD (.str ""))
    else if kind.same (.str "Mapping") then do
      let key ← labelUnder "keyType" fields
      let value ← labelUnder "valueType" fields
      return .str ("mapping(" ++ (← key.shown) ++ " => " ++ (← value.shown) ++ ")")
    else if kind.same (.str "ArrayTypeName") then do
      let item ← labelUnder "baseTypeName" fields
      return .str ((← item.shown) ++ "[]")
    else .ok (name.orElse kind)
  | v => if v.truthy then str <$> v.shown else .ok (.str "")

/-- The text of the type under a key. -/
def labelUnder (key : String) : List (String × Value) → Except Fault Value
  | [] => .ok (.str "")
  | (k, v) :: rest => if k = key then typeLabel v else labelUnder key rest

end

end Value

namespace Collect

/-- The visibilities of functions. -/
def visibilities : List String := ["public", "private", "internal", "external", "default"]

/-- The name of a node, empty if it has none. -/
def nameOf (fields : Fields) : Value :=
  (Fields.get "name" fields).orElse (.str "")

/-- The parameter of a node. -/
def parameter (fields : Fields) : Except Fault Parameter := do
  return ⟨nameOf fields, ← (Fields.get "typeName" fields).typeLabel⟩

/-- The fields of an object. -/
def fields? : Value → Option Fields
  | .object fields => some fields
  | _ => none

/-- The objects in a list. -/
def objectItems : Value → List Fields
  | .list items => items.filterMap fields?
  | _ => []

/-- The nodes of parameters in a list, or in the list that an object holds under `parameters`. -/
def parameterNodes : Value → List Fields
  | .object fields => objectItems (Fields.get "parameters" fields)
  | v => objectItems v

/-- The parameters in a list, or in the list that an object holds under `parameters`. -/
def parameters (v : Value) : Except Fault (List Parameter) :=
  (parameterNodes v).mapM parameter

/-- The visibility of a function, which is one of the known ones. -/
def visibilityOf (fields : Fields) : Value :=
  let visibility := (Fields.get "visibility" fields).orElse (.str "default")
  let isKnown := visibilities.any fun name => visibility.same (.str name)
  if isKnown then visibility else .str "default"

/-- The function of a node. -/
def function (fields : Fields) : Except Fault FunctionFacts := do
  let given ← parameters (Fields.get "parameters" fields)
  let returns ← parameters (Fields.get "returnParameters" fields)
  return {
    name := nameOf fields
    visibility := visibilityOf fields
    mutability := Fields.get "stateMutability" fields
    parameters := given
    returns }

/-- The event or modifier of a node. -/
def signature (fields : Fields) : Except Fault Signature := do
  return ⟨nameOf fields, ← parameters (Fields.get "parameters" fields)⟩

/-- The name of a declared variable, if it has one. -/
def variableName? : Value → Option Value
  | .object fields =>
    let name := Fields.get "name" fields
    if name.truthy then some name else none
  | _ => none

/-- The state variables of a node. The visibility of the first one stands for a missing one. -/
def variableFacts (fields : Fields) : Except Fault VariableFacts :=
  let declared := (Fields.get "variables" fields).orElse (.list [])
  let own := Fields.get "visibility" fields
  let made (names : List Value) (visibility : Value) : VariableFacts :=
    ⟨names, visibility.orElse (.str "default")⟩
  match declared with
  | .list items =>
    let first :=
      match items with
      | .object v :: _ => Fields.get "visibility" v
      | _ => own
    .ok (made (items.filterMap variableName?) (if own.truthy then own else first))
  | .str _ => .ok (made [] own)
  | .object _ => if own.truthy then .ok (made [] own) else .error (.missingKey (.int 0))
  | other => .error (.notIterable other.kind)

/-- The path of an import, without the quotes around it. -/
def importPath (fields : Fields) : Except Fault Value :=
  match (Fields.get "path" fields).orElse (.str "") with
  | .str s => .ok (.str (String.ofList (Text.stripBoth (fun c => c == '"' || c == '\'') s.toList)))
  | other => .error (.noAttribute other.kind "strip")

/-- The facts collected so far, and whether a contract has given them its name. -/
structure State where
  facts : ContractFacts
  named : Bool
deriving Inhabited

/-- The facts after one more node. -/
def visit (s : State) (fields : Fields) : Except Fault State :=
  let facts := s.facts
  match Fields.get "type" fields with
  | .str "ContractDefinition" =>
    if s.named then .ok s
    else
      let name := (Fields.get "name" fields).orElse (.str ContractFacts.unknownName)
      .ok ⟨{ facts with name }, true⟩
  | .str "FunctionDefinition" => do
    let f ← function fields
    return { s with facts := { facts with functions := facts.functions ++ [f] } }
  | .str "EventDefinition" => do
    let e ← signature fields
    return { s with facts := { facts with events := facts.events ++ [e] } }
  | .str "ModifierDefinition" => do
    let m ← signature fields
    return { s with facts := { facts with modifiers := facts.modifiers ++ [m] } }
  | .str "StateVariableDeclaration" => do
    let v ← variableFacts fields
    return { s with facts := { facts with stateVariables := facts.stateVariables ++ [v] } }
  | .str "ImportDirective" => do
    let path ← importPath fields
    return { s with facts := { facts with imports := facts.imports ++ [path] } }
  | .list _ => .error (.unhashable .list)
  | .object _ => .error (.unhashable .object)
  | _ => .ok s

mutual

/-- The facts after the nodes of a value, each before those inside it. -/
def walk (s : State) : Value → Except Fault State
  | .object fields => do walkFields (← visit s fields) fields
  | .list items => walkItems s items
  | _ => .ok s

/-- The facts after the nodes in the items of a list. -/
def walkItems (s : State) : List Value → Except Fault State
  | [] => .ok s
  | v :: rest => do walkItems (← walk s v) rest

/-- The facts after the nodes in the fields of an object. -/
def walkFields (s : State) : List (String × Value) → Except Fault State
  | [] => .ok s
  | (k, v) :: rest =>
    if k = "type" then walkFields s rest else do walkFields (← walk s v) rest

end

/-- The facts of an outline. -/
def facts (tree : Value) : Except Fault ContractFacts := do
  let s ← walk ⟨.empty, false⟩ tree
  return { s.facts with complexity := s.facts.estimate }

end Collect

end SolidityAudit
