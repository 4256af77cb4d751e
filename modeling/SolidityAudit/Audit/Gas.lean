import SolidityAudit.Text.Pattern
import SolidityAudit.Value

/-!
# Gas reports

Loops, external calls and storage operations are counted in the text of a source. Loops and calls
decide the gas risk, and each count that is high has a recommendation.
-/

namespace SolidityAudit

/-- How much gas a contract may use. -/
inductive GasRisk
  | low | medium | high
deriving DecidableEq, Repr, Inhabited

/-- The name of a gas risk. -/
def GasRisk.name : GasRisk → String
  | low => "LOW"
  | medium => "MEDIUM"
  | high => "HIGH"

/-- How often each kind of costly construct occurs. -/
structure GasCounts where
  loops : Nat
  externalCalls : Nat
  storageOperations : Nat
deriving DecidableEq, Repr, Inhabited

/-- What is known about the gas that a contract uses. -/
structure GasReport where
  risk : GasRisk
  counts : GasCounts
  recommendations : List String
deriving Repr, Inhabited

namespace GasCounts

open Pattern

/-- The heads of loops. -/
def loopHead : Pattern :=
  [literal "for" ++ blanks ++ literal "(", literal "while" ++ blanks ++ literal "("]

/-- Calls of other contracts. -/
def externalCall : Pattern :=
  [literal ".call(", literal ".delegatecall(", literal ".staticcall("]

/-- Variables in storage. -/
def storageOperation : Pattern :=
  [literal "storage" ++ blanks1 ++ word1, literal "mapping" ++ blanks ++ literal "("]

/-- The counts of a source. -/
def ofSource (source : String) : GasCounts :=
  let cs := source.toList
  ⟨loopHead.count cs, externalCall.count cs, storageOperation.count cs⟩

/-- The risk of a number of loops and calls. -/
def risk (c : GasCounts) : GasRisk :=
  if 3 < c.loops ∨ 5 < c.externalCalls then .high
  else if 1 < c.loops ∨ 2 < c.externalCalls then .medium
  else .low

/-- The recommendations for the counts. -/
def recommendations (c : GasCounts) : List String :=
  (if 1 < c.loops then ["Consider limiting loop iterations to prevent gas limit issues"] else [])
    ++ (if 2 < c.externalCalls then ["Review external calls for reentrancy protection"] else [])
    ++ (if 5 < c.storageOperations then ["Optimize storage operations to reduce gas costs"] else [])
    ++ (if c.risk = .high then ["Comprehensive gas optimization review recommended"] else [])

end GasCounts

namespace GasReport

/-- The gas report of a source. -/
def ofSource (source : String) : GasReport :=
  let counts := GasCounts.ofSource source
  ⟨counts.risk, counts, counts.recommendations⟩

/-- A report as data. -/
def toValue (r : GasReport) : Value :=
  .object
    [("gasRisk", .str r.risk.name),
     ("patterns", .object
      [("loops", .int r.counts.loops), ("externalCalls", .int r.counts.externalCalls),
       ("storageOperations", .int r.counts.storageOperations)]),
     ("recommendations", .list (r.recommendations.map .str))]

end GasReport

end SolidityAudit
