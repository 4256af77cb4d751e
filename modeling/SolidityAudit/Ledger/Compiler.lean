import SolidityAudit.Outside.Request
import SolidityAudit.Value.Access

/-!
# Compiling contracts

A source is compiled for deployment by the Solidity compiler of a fixed version. The output must
hold no error and a contract with code; of several contracts the first is taken.
-/

namespace SolidityAudit

/-- A compiled contract. -/
structure CompiledContract where
  name : String
  interface : Value
  bytecode : Value
deriving Repr

/-- A compiler of a version, and how often the compiled code is expected to run. -/
structure Compiler where
  version : Value := .str "0.8.20"
  runs : Value := .int 200
deriving Repr

namespace Compiler

/-- The compiler that fields give. -/
def ofFields (fields : List (String × Value)) : Except Fault Compiler := do
  checkNames "SolidityCompiler" [] ["solc_version", "optimize_runs"] (fields.map (·.1))
  let d : Compiler := {}
  return {
    version := (fieldOf "solc_version" fields).getD d.version
    runs := (fieldOf "optimize_runs" fields).getD d.runs }

/-- A failure to compile. -/
def failure (message : String) (details : List (String × Value)) : Fault :=
  .report (.make .compilation message details)

/-- The name under which a source is compiled. -/
def sourceName : String := "contract.sol"

/-- What the compiler is told about a source. -/
def input (c : Compiler) (source : Value) : Value :=
  .object
    [("language", .str "Solidity"),
     ("sources", .object [(sourceName, .object [("content", source)])]),
     ("settings", .object
      [("optimizer", .object [("enabled", .bool true), ("runs", c.runs)]),
       ("outputSelection", .object
        [("*", .object [("*", .list [.str "abi", .str "evm.bytecode.object"])])])])]

/-- The compiler of the version is installed if it is missing, and selected. -/
def prepare (c : Compiler) : Action Unit := do
  let installed ← Action.settle (← Action.ask .compilers)
  let present ←
    match c.version with
    | .list _ | .object _ => throw (.unhashable c.version.kind)
    | v => pure (v.text?.any installed.contains)
  if !present then
    Action.log .info ("Installing solc " ++ c.version.display)
    Action.settle (← Action.ask (.installCompiler c.version))
  Action.settle (← Action.ask (.selectCompiler c.version))

/-- The output of the compiler. What goes wrong is a failure to compile. -/
def output (c : Compiler) (source : Value) : Action Value := do
  let run : Action Value := do
    c.prepare
    Action.settle (← Action.ask (.compile (c.input source) true))
  match ← Action.attempt run with
  | .ok v => return v
  | .error f =>
    if f.family? = some .compilation then throw f
    else throw (failure ("Contract compilation failed: " ++ f.message) [])

/-- The texts of the errors in an output. -/
def errorsOf (output : Value) : Except Fault (List Value) := do
  let entries ← (← output.getD "errors" (.list [])).iterate
  let errors ← entries.filterM fun e => return (← e.get "severity").same (.str "error")
  errors.mapM fun e => do
    let message ← e.getD "message" (.str "")
    e.getD "formattedMessage" message

/-- The code of a compiled contract. -/
def bytecodeOf (contract : Value) : Except Fault Value := do
  let machine ← contract.getD "evm" (.object [])
  let code ← machine.getD "bytecode" (.object [])
  code.getD "object" (.str "")

/-- The first contract in an output without errors. -/
def firstContract (output : Value) : Except Fault CompiledContract := do
  let files ← output.getD "contracts" (.object [])
  let contracts ← files.getD sourceName (.object [])
  if !contracts.truthy then throw (failure "No contracts found in compilation output" [])
  match ← contracts.fields "items" with
  | [] => throw (failure "No contracts found in compilation output" [])
  | (name, contract) :: _ =>
    let bytecode ← bytecodeOf contract
    if !bytecode.truthy then
      throw (failure
        ("Contract " ++ name ++ " produced no bytecode (abstract or interface?)") [])
    return { name, interface := ← contract.getD "abi" (.list []), bytecode }

/-- The contract of an output. -/
def contractOf (output : Value) : Except Fault CompiledContract := do
  let errors ← errorsOf output
  if !errors.isEmpty then
    throw (failure "Contract compilation failed" [("errors", .list errors)])
  firstContract output

/-- The compiled contract of a source. -/
def compile (c : Compiler) (source : Value) : Action CompiledContract := do
  let output ← c.output source
  let contract ← Action.settle (contractOf output)
  let size ← Action.settle contract.bytecode.length
  Action.log .debug ("Compiled " ++ contract.name ++ ": " ++ toString (size / 2) ++ " bytes")
  return contract

end Compiler

end SolidityAudit
