import SolidityAudit.Digest.Sha256
import SolidityAudit.Json.Writer
import SolidityAudit.Ledger.Client
import SolidityAudit.Number.Integer

/-!
# Transactions

A client deploys contracts and anchors documents. A document is anchored by the digest of its
canonical text. Each transaction is numbered by the count of those that the node has taken from the
account, signed, sent, and waited for.
-/

namespace SolidityAudit

/-- A contract on the ledger. -/
structure Deployment where
  contractId : Value
  transactionId : String
  gasUsed : Int
  contractName : String
deriving Repr

namespace Deployment

/-- A deployment as data. -/
def toValue (d : Deployment) : Value :=
  .object
    [("contract_id", d.contractId), ("transaction_id", .str d.transactionId),
     ("gas_used", .int d.gasUsed), ("contract_name", .str d.contractName)]

end Deployment

namespace LedgerClient

/-- The gas that anchoring a document may use. -/
def anchorGas : Nat := 50000

/-- The digest under which a document is anchored. -/
def digestOf (document : Value) : Except Fault String := do
  let text ← writtenText (Json.canonical? document)
  return Sha256.digest (Text.Utf8.encode text)

/-- The receipt of a transaction that is signed, sent and waited for. -/
def submit (c : LedgerClient) (transaction : Value) (timeout : Nat) : Action Value := do
  let signed ← Action.settle (← Action.ask (.sign transaction c.privateKey))
  let hash ← Action.settle (← Action.ask (.send signed))
  Action.settle (← Action.ask (.awaitReceipt hash timeout))

/-- What goes wrong on the way to a receipt is a failure of the ledger. -/
def receiptOr (what : String) (exchange : Action Value) : Action Value := do
  match ← Action.attempt exchange with
  | .ok receipt => return receipt
  | .error f =>
    if f.family? = some .ledger then throw f else throw (failure (what ++ ": " ++ f.message) [])

/-- The fields that number and price a transaction. -/
def envelope (c : LedgerClient) (gas : Value) : Action (List (String × Value)) := do
  let nonce ← Action.settle (← Action.ask (.transactionCount c.address))
  let price ← Action.settle (← Action.ask .gasPrice)
  return [("nonce", .int nonce), ("gas", gas), ("gasPrice", .int price),
    ("chainId", .int c.network.chainId)]

/-- The hash in a receipt, which names its transaction. -/
def transactionIdOf (receipt : Value) : Except Fault String := do
  return "0x" ++ (← receipt.item "transactionHash").display

/-- Whether a receipt says that the transaction went through. -/
def isSuccess (receipt : Value) : Except Fault Bool := do
  return (← receipt.item "status").same (.int 1)

/-! ## Deploying -/

/-- The receipt of the transaction that creates a compiled contract. -/
def create (c : LedgerClient) (contract : CompiledContract) (arguments : Value) :
    Action Value := do
  let arguments ← Action.settle (arguments.orElse (.list [])).iterate
  Action.settle (← Action.ask (.construct contract.interface contract.bytecode arguments))
  let rest ← c.envelope c.gasLimit
  c.submit (.object (("from", .str c.address) :: rest)) 120

/-- The deployment that a receipt tells of. -/
def deploymentOf (name : String) (receipt : Value) : Except Fault Deployment := do
  let created ← if ← isSuccess receipt then receipt.get "contractAddress" else pure .null
  if !created.truthy then
    throw (failure "Contract deployment failed"
      [("transaction_id", .str (← transactionIdOf receipt))])
  let transactionId ← transactionIdOf receipt
  let gasUsed ← (← receipt.item "gasUsed").toInteger
  return { contractId := created, transactionId, gasUsed, contractName := name }

/-- A source is compiled and deployed. -/
def deploy (c : LedgerClient) (source arguments : Value) : Action Deployment := do
  let contract ← c.compiler.compile source
  let receipt ← receiptOr "Contract deployment failed" (c.create contract arguments)
  let d ← Action.settle (deploymentOf contract.name receipt)
  Action.log .info
    ("Deployed " ++ d.contractName ++ " at " ++ d.contractId.display ++ " (gas "
      ++ toString d.gasUsed ++ ")")
  return d

/-! ## Anchoring -/

/-- The receipt of the transaction that carries a digest. -/
def carry (c : LedgerClient) (digest : String) : Action Value := do
  let rest ← c.envelope (.int anchorGas)
  let transaction : List (String × Value) :=
    [("from", .str c.address), ("to", .str c.address), ("value", .int 0),
     ("data", .str ("0x" ++ digest))] ++ rest
  c.submit (.object transaction) 60

/-- A document is anchored; the result names its transaction. -/
def anchor (c : LedgerClient) (document memo : Value) : Action String := do
  let digest ← Action.settle (digestOf document)
  let receipt ← receiptOr "Failed to store document on Hedera" (c.carry digest)
  if !(← Action.settle (isSuccess receipt)) then
    throw (failure "Provenance transaction reverted" [("memo", memo)])
  let id ← Action.settle (transactionIdOf receipt)
  Action.log .info
    ("Stored document '" ++ memo.display ++ "' as " ++ id ++ " (sha256 "
      ++ String.ofList (digest.toList.take 16) ++ "…)")
  return id

end LedgerClient

end SolidityAudit
