import SolidityAudit.Ledger.Compiler
import SolidityAudit.Ledger.Network

/-!
# The ledger client

A client has an account on a network and the endpoints that it deals with: the node that takes
transactions, the mirror that answers queries, and the explorer that shows both to people.
-/

namespace SolidityAudit

/-- A client of the ledger. -/
structure LedgerClient where
  network : Network
  accountId : Value
  privateKey : Value
  /-- the address of the account -/
  address : String
  nodeUrl : Value
  mirrorUrl : String
  explorerUrl : String
  compiler : Compiler
  gasLimit : Value
  timeout : Value
deriving Repr

namespace LedgerClient

/-- How a client is opened. An endpoint that is left empty is the one of the network. -/
structure Options where
  accountId : Value
  privateKey : Value
  network : Value := .str Network.testnet.name
  nodeUrl : Value := .null
  mirrorUrl : Value := .null
  explorerUrl : Value := .null
  compiler : Compiler := {}
  gasLimit : Value := .int 1000000
  timeout : Value := .float (.ofInt 30)
  retries : Value := .int 3
deriving Repr

/-- The options that fields give. -/
def Options.ofFields (fields : List (String × Value)) : Except Fault Options := do
  checkNames "HederaClient" ["account_id", "private_key"]
    ["network", "json_rpc_url", "mirror_node_url", "hashscan_base_url", "gas_limit", "timeout",
     "max_retries"]
    (fields.map (·.1))
  let field (key : String) (default : Value) : Value := (fieldOf key fields).getD default
  let d : Options := { accountId := .null, privateKey := .null }
  return {
    accountId := field "account_id" .null
    privateKey := field "private_key" .null
    network := field "network" d.network
    nodeUrl := field "json_rpc_url" d.nodeUrl
    mirrorUrl := field "mirror_node_url" d.mirrorUrl
    explorerUrl := field "hashscan_base_url" d.explorerUrl
    gasLimit := field "gas_limit" d.gasLimit
    timeout := field "timeout" d.timeout
    retries := field "max_retries" d.retries }

/-- A failure of the ledger. -/
def failure (message : String) (details : List (String × Value)) : Fault :=
  .report (.make .ledger message details)

/-- An address without the separators at its end, or the one of the network for an empty one. -/
def baseUrl (given : Value) (ofNetwork : String) : Except Fault String :=
  match given.orElse (.str ofNetwork) with
  | .str s => .ok (String.ofList (Text.stripRight (· == '/') s.toList))
  | v => .error (.noAttribute v.kind "rstrip")

/-- Exchanges with the mirror that break off are tried again, up to the given number of times. -/
def retryPolicy (total : Value) : Outside.RetryPolicy where
  total := total
  backoff := .ofDecimal false 5 (-1)
  statuses := [429, 500, 502, 503, 504]
  methods := ["GET"]

/-- Whether a fault says that a key is no key. -/
def isKeyFault : Fault → Bool
  | .outside .badValue _ | .outside .badKind _ => true
  | .outside _ _ => false
  | .report _ => false
  | _ => true

/-- A client with the given options. -/
def start (o : Options) : Action LedgerClient := do
  if !o.accountId.truthy || !o.privateKey.truthy then
    throw (.report (.make .configuration
      "Hedera credentials not configured. Set HEDERA_ACCOUNT_ID and HEDERA_PRIVATE_KEY" []))
  let network ← Action.settle (Network.ofValue o.network)
  let nodeUrl := o.nodeUrl.orElse (.str network.nodeUrl)
  let mirrorUrl ← Action.settle (baseUrl o.mirrorUrl network.mirrorUrl)
  let explorerUrl ← Action.settle (baseUrl o.explorerUrl network.explorerUrl)
  Action.settle (← Action.ask (.openNode nodeUrl o.timeout))
  Action.settle (← Action.ask (.retry "https://" (retryPolicy o.retries)))
  Action.settle (← Action.ask (.retry "http://" (retryPolicy o.retries)))
  match ← Action.ask (.useKey o.privateKey) with
  | .error f =>
    if isKeyFault f then
      throw (.report (.make .configuration
        ("Invalid Hedera ECDSA private key: " ++ f.message) []))
    else throw f
  | .ok address =>
    Action.log .info
      ("Hedera client initialized for " ++ network.name ++ " (" ++ o.accountId.display ++ ")")
    return {
      network
      accountId := o.accountId
      privateKey := o.privateKey
      address
      nodeUrl
      mirrorUrl
      explorerUrl
      compiler := o.compiler
      gasLimit := o.gasLimit
      timeout := o.timeout }

/-- Where the explorer shows a transaction and a contract; what is not given has no link. -/
def links (explorerUrl : String) (transactionId contractId : Value) : List (String × Value) :=
  let link (kind : String) (id : Value) : List (String × Value) :=
    if id.truthy then [(kind, .str (explorerUrl ++ "/" ++ kind ++ "/" ++ id.display))] else []
  link "transaction" transactionId ++ link "contract" contractId

/-- What is shown of a client. -/
def toValue (c : LedgerClient) : Value :=
  .object
    [("network", c.network.toValue), ("json_rpc_url", c.nodeUrl),
     ("mirror_node_url", .str c.mirrorUrl), ("explorer_url", .str c.explorerUrl),
     ("gas_limit", c.gasLimit), ("timeout", c.timeout)]

end LedgerClient

end SolidityAudit
