import SolidityAudit.Value

/-!
# Facts about a contract

What an audit knows about the structure of a source file: the name of its first contract, the
functions, events, modifiers, state variables and imports in source order, and an estimate of its
complexity. Names and types are values, since an outline from outside may hold anything in their
place.
-/

namespace SolidityAudit

/-- How complex a contract is. -/
inductive Complexity
  | low | medium | high
deriving DecidableEq, Repr, Inhabited

namespace Complexity

/-- The name of a complexity. -/
def name : Complexity → String
  | low => "LOW"
  | medium => "MEDIUM"
  | high => "HIGH"

/-- The complexities in ascending order. -/
def every : List Complexity := [low, medium, high]

/-- The complexity of a name. -/
def ofName? (s : String) : Option Complexity :=
  every.find? (·.name == s)

/-- The band of a weighted count of declarations. -/
def ofWeight (n : Nat) : Complexity :=
  if n < 10 then low else if n < 25 then medium else high

end Complexity

/-- A parameter of a function, an event or a modifier. -/
structure Parameter where
  name : Value
  type : Value
deriving Repr, Inhabited

/-- A function. -/
structure FunctionFacts where
  name : Value
  visibility : Value
  mutability : Value
  parameters : List Parameter
  returns : List Parameter
deriving Repr, Inhabited

/-- An event or a modifier. -/
structure Signature where
  name : Value
  parameters : List Parameter
deriving Repr, Inhabited

/-- One declaration of state variables. -/
structure VariableFacts where
  names : List Value
  visibility : Value
deriving Repr, Inhabited

/-- What is known about the structure of a source file. -/
structure ContractFacts where
  name : Value
  functions : List FunctionFacts
  events : List Signature
  modifiers : List Signature
  stateVariables : List VariableFacts
  imports : List Value
  complexity : Complexity
deriving Repr, Inhabited

namespace Parameter

/-- A parameter as data. -/
def toValue (p : Parameter) : Value :=
  .object [("name", p.name), ("type", p.type)]

end Parameter

namespace FunctionFacts

/-- A function as data. -/
def toValue (f : FunctionFacts) : Value :=
  .object
    [("name", f.name), ("visibility", f.visibility), ("mutability", f.mutability),
     ("parameters", .list (f.parameters.map Parameter.toValue)),
     ("returnParameters", .list (f.returns.map Parameter.toValue))]

end FunctionFacts

namespace Signature

/-- An event or a modifier as data. -/
def toValue (s : Signature) : Value :=
  .object [("name", s.name), ("parameters", .list (s.parameters.map Parameter.toValue))]

end Signature

namespace VariableFacts

/-- A declaration of state variables as data. -/
def toValue (v : VariableFacts) : Value :=
  .object [("variables", .list v.names), ("visibility", v.visibility)]

end VariableFacts

namespace ContractFacts

/-- The name of a file without a contract. -/
def unknownName : String := "Unknown"

/-- Nothing known. -/
def empty : ContractFacts := ⟨.str unknownName, [], [], [], [], [], .low⟩

/-- The declarations, weighted by how much they add to a review. -/
def weight (c : ContractFacts) : Nat :=
  c.functions.length * 2 + c.stateVariables.length + (c.events.length + c.modifiers.length)
    + c.imports.length * 3

/-- The complexity that the declarations suggest. -/
def estimate (c : ContractFacts) : Complexity := .ofWeight c.weight

/-- Whether a function is marked public. -/
def hasPublicFunction (c : ContractFacts) : Bool :=
  c.functions.any fun f => f.visibility.same (.str "public")

/-- The facts as data. -/
def toValue (c : ContractFacts) : Value :=
  .object
    [("contractName", c.name),
     ("functions", .list (c.functions.map FunctionFacts.toValue)),
     ("events", .list (c.events.map Signature.toValue)),
     ("modifiers", .list (c.modifiers.map Signature.toValue)),
     ("variables", .list (c.stateVariables.map VariableFacts.toValue)),
     ("imports", .list c.imports),
     ("complexity", .str c.complexity.name)]

end ContractFacts

end SolidityAudit
