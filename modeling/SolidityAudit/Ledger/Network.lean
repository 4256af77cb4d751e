import SolidityAudit.Fault

/-!
# Ledger networks

The networks of the ledger with their endpoints.
-/

namespace SolidityAudit

/-- A network and its endpoints. -/
structure Network where
  name : String
  chainId : Nat
  nodeUrl : String
  mirrorUrl : String
  explorerUrl : String
deriving DecidableEq, Repr

namespace Network

/-- The network for trials. -/
def testnet : Network where
  name := "testnet"
  chainId := 296
  nodeUrl := "https://testnet.hashio.io/api"
  mirrorUrl := "https://testnet.mirrornode.hedera.com"
  explorerUrl := "https://hashscan.io/testnet"

/-- The public network. -/
def mainnet : Network where
  name := "mainnet"
  chainId := 295
  nodeUrl := "https://mainnet.hashio.io/api"
  mirrorUrl := "https://mainnet.mirrornode.hedera.com"
  explorerUrl := "https://hashscan.io/mainnet"

/-- The networks in the order of their names. -/
def every : List Network := [mainnet, testnet]

/-- The network that a value names. -/
def ofValue (v : Value) : Except Fault Network :=
  match v with
  | .list _ | .object _ => .error (.unhashable v.kind)
  | _ =>
    match v.text?.bind fun s => every.find? (·.name == s) with
    | some n => .ok n
    | none =>
      .error (.report (.make .configuration ("Unknown Hedera network: " ++ v.display)
        [("supported", .list (every.map (.str ·.name)))]))

/-- A network as data. -/
def toValue (n : Network) : Value :=
  .object
    [("name", .str n.name), ("chain_id", .int n.chainId), ("json_rpc_url", .str n.nodeUrl),
     ("mirror_node_url", .str n.mirrorUrl), ("explorer_url", .str n.explorerUrl)]

end Network

end SolidityAudit
