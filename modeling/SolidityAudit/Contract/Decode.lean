import SolidityAudit.Contract.Facts
import SolidityAudit.Value.Access

/-!
# Facts from data

The facts that data in the form of `ContractFacts.toValue` describes. Every field may be left out.
-/

namespace SolidityAudit

/-- The complexity that a value names. -/
def Complexity.ofValue (v : Value) : Except Fault Complexity :=
  match v.text?.bind ofName? with
  | some c => .ok c
  | none => .error (.notMember v "Complexity")

namespace ContractFacts

/-- The items under a key, none if the key is not there. -/
def itemsUnder (key : String) (v : Value) : Except Fault (List Value) := do
  (← v.getD key (.list [])).iterate

/-- The parameters under a key. -/
def parametersUnder (key : String) (v : Value) : Except Fault (List Parameter) := do
  (← itemsUnder key v).mapM fun p => do
    return ⟨← p.getD "name" (.str ""), ← p.getD "type" (.str "")⟩

/-- The function that data describes. -/
def functionOf (v : Value) : Except Fault FunctionFacts := do
  return {
    name := ← v.getD "name" (.str "f")
    visibility := ← v.getD "visibility" (.str "default")
    mutability := ← v.get "mutability"
    parameters := ← parametersUnder "parameters" v
    returns := ← parametersUnder "returnParameters" v }

/-- The event or modifier that data describes. -/
def signatureOf (v : Value) : Except Fault Signature := do
  return ⟨← v.getD "name" (.str ""), ← parametersUnder "parameters" v⟩

/-- The declaration of state variables that data describes. -/
def variablesOf (v : Value) : Except Fault VariableFacts := do
  return ⟨← itemsUnder "variables" v, ← v.getD "visibility" (.str "default")⟩

/-- The facts that data describes. -/
def ofValue (v : Value) : Except Fault ContractFacts := do
  return {
    name := ← v.getD "contractName" (.str unknownName)
    functions := ← (← itemsUnder "functions" v).mapM functionOf
    events := ← (← itemsUnder "events" v).mapM signatureOf
    modifiers := ← (← itemsUnder "modifiers" v).mapM signatureOf
    stateVariables := ← (← itemsUnder "variables" v).mapM variablesOf
    imports := ← itemsUnder "imports" v
    complexity := ← Complexity.ofValue (← v.getD "complexity" (.str Complexity.low.name)) }

end ContractFacts

end SolidityAudit
