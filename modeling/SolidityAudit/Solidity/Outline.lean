import SolidityAudit.Solidity.Defect
import SolidityAudit.Text.Blank
import SolidityAudit.Value

/-!
# The outline of a source file

The outline of a file is a tree of nodes, objects with their kind under the key `type`. It holds the
imports, the contracts with their state variables, functions, events and modifiers, and the
functions outside of contracts, in the order of the source. What a file holds besides these leaves
no node.
-/

namespace SolidityAudit.Solidity

/-- A node of the outline. -/
def outlineNode (kind : String) (fields : List (String × Value)) : Value :=
  .object (("type", .str kind) :: fields)

/-- A text, or null. -/
def textOrNull (s : Option String) : Value :=
  match s with
  | some s => .str s
  | none => .null

namespace Tree

/-! ## Types -/

/-- A type with the given number of array brackets after it. -/
def arrayOf (base : Value) : Nat → Value
  | 0 => base
  | n + 1 => outlineNode "ArrayTypeName" [("baseTypeName", arrayOf base n)]

mutual

/-- The node of a type. -/
def typeNode : Tree → Value
  | leaf t => outlineNode "ElementaryTypeName" [("name", .str t.text)]
  | tree@(node .elementaryTypeName _) => outlineNode "ElementaryTypeName" [("name", .str tree.text)]
  | tree@(node .userDefinedTypeName _) =>
    outlineNode "UserDefinedTypeName" [("namePath", .str tree.text)]
  | node .functionTypeName _ => outlineNode "FunctionTypeName" []
  | node .mapping children =>
    match typeNodes children with
    | [key, value] => outlineNode "Mapping" [("keyType", key), ("valueType", value)]
    | _ => .null
  | node .typeName children =>
    let suffixes := children.filter (·.isA .arraySuffixes)
    let depth := (suffixes.flatMap fun s => s.children).length
    match children, typeNodes children with
    | leaf t :: _, _ =>
      arrayOf (outlineNode "ElementaryTypeName" [("name", .str t.text)]) depth
    | _, base :: _ => arrayOf base depth
    | _, [] => .null
  | node _ _ => .null

/-- The nodes of the phrases in a list, its tokens left out. -/
def typeNodes : List Tree → List Value
  | [] => []
  | leaf _ :: ts => typeNodes ts
  | t :: ts => typeNode t :: typeNodes ts

end

/-! ## Declarations -/

/-- The name among the parts. -/
def name? (t : Tree) : Option String :=
  (t.part? .identifier).map text

/-- The node of a parameter. -/
def parameterNode (t : Tree) : Value :=
  outlineNode "Parameter"
    [("typeName", ((t.part? .typeName).map typeNode).getD .null), ("name", textOrNull t.name?)]

/-- The nodes of the parameters in a list of the category. -/
def parameterNodes (list item : Category) (t : Tree) : Value :=
  match t.part? list with
  | some ps => .list ((ps.outermost item).map parameterNode)
  | none => .list []

/-- The first of the words that is among the texts. -/
def firstOf (words texts : List String) : String :=
  (words.find? texts.contains).getD "default"

/-- The words that stand alone among the marks of a declaration. -/
def markWords (marks : Option Tree) : List String :=
  match marks with
  | some t => t.children.filterMap fun m => m.word?.map (·.text)
  | none => []

/-- The name of a function: the word for the special functions, and the text of the whole
definition for a function without a name. -/
def functionName (t : Tree) : String :=
  match t.part? .functionDescriptor with
  | none => t.text
  | some d =>
    match d.name? with
    | some name => name
    | none => if d.text = "function" then t.text else d.text

/-- The node of a function definition. -/
def functionNode (t : Tree) : Value :=
  let marks := t.part? .modifierList
  let mutability := marks.bind fun m =>
    ((m.outermost .stateMutability).head?).map text
  let returns := (t.part? .returnParameters).map (parameterNodes .parameterList .parameter)
  outlineNode "FunctionDefinition"
    [("name", .str t.functionName),
     ("parameters", parameterNodes .parameterList .parameter t),
     ("returnParameters", returns.getD (.list [])),
     ("visibility", .str (firstOf ["external", "internal", "public", "private"] (markWords marks))),
     ("stateMutability", textOrNull mutability)]

/-- The node of a state variable. -/
def stateVariableNode (t : Tree) : Value :=
  let marks := markWords (t.part? .stateVariableMarks)
  outlineNode "StateVariableDeclaration"
    [("variables", .list
      [outlineNode "VariableDeclaration"
        [("name", textOrNull t.name?),
         ("visibility", .str (firstOf ["internal", "public", "private"] marks))]])]

/-- The node of an event. -/
def eventNode (t : Tree) : Value :=
  outlineNode "EventDefinition"
    [("name", textOrNull t.name?),
     ("parameters", parameterNodes .eventParameterList .eventParameter t)]

/-- The node of a modifier. -/
def modifierNode (t : Tree) : Value :=
  outlineNode "ModifierDefinition"
    [("name", textOrNull t.name?), ("parameters", parameterNodes .parameterList .parameter t)]

/-- The node of a part of a contract, if it has one. -/
def contractPartNode? (t : Tree) : Option Value :=
  match t with
  | node .stateVariableDeclaration _ => some t.stateVariableNode
  | node .functionDefinition _ => some t.functionNode
  | node .eventDefinition _ => some t.eventNode
  | node .modifierDefinition _ => some t.modifierNode
  | _ => none

/-- The node of a contract, an interface or a library. -/
def contractNode (t : Tree) : Value :=
  let parts := ((t.part? .contractParts).map children).getD []
  outlineNode "ContractDefinition"
    [("name", textOrNull t.name?),
     ("subNodes", .list (parts.filterMap fun p => p.children.head?.bind contractPartNode?))]

/-- The node of an import; its path stands without double quotes around it. -/
def importNode (t : Tree) : Value :=
  let path := ((t.part? .importPath).map text).getD ""
  outlineNode "ImportDirective"
    [("path", .str (String.ofList (Text.stripBoth (· == '"') path.toList)))]

/-- The node of an item of a file, if it has one. -/
def itemNode? (t : Tree) : Option Value :=
  match t with
  | node .importDirective _ => some t.importNode
  | node .contractDefinition _ => some t.contractNode
  | node .functionDefinition _ => some t.functionNode
  | _ => none

end Tree

/-- The outline of the items of a file. -/
def outline (items : List Tree) : Value :=
  let children := items.filterMap fun i => i.children.head?.bind Tree.itemNode?
  outlineNode "SourceUnit" [("children", .list children)]

end SolidityAudit.Solidity
