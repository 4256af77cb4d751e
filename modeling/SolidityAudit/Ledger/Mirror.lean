import SolidityAudit.Ledger.Client
import SolidityAudit.Number.Decimal

/-!
# Queries to the mirror

The mirror of the ledger answers queries about contracts and balances over the web. A balance comes
in the smallest unit of the currency and is shown in the unit of a hundred million of them.
-/

namespace SolidityAudit

namespace Outside.ServerReply

/-- The fault of a reply whose status reports one. -/
def check (r : ServerReply) (url : String) : Except Fault Unit :=
  let side? : Option String :=
    if 400 ≤ r.status ∧ r.status < 500 then some "Client"
    else if 500 ≤ r.status ∧ r.status < 600 then some "Server"
    else none
  match side? with
  | none => .ok ()
  | some side =>
    .error (.outside .http
      (toString r.status ++ " " ++ side ++ " Error: " ++ r.reason ++ " for url: " ++ url))

/-- The value in the body of a reply. -/
def content (r : ServerReply) : Except Fault Value :=
  match Json.read .strict r.body with
  | .ok v => .ok v
  | .error e =>
    match e.reason with
    | .tooManyDigits _ => .error (.unreadable e)
    | _ => .error (.outside .unreadableAnswer e.message)

end Outside.ServerReply

namespace LedgerClient

/-- Whether a fault ended an exchange with a server. -/
def endsExchange : Fault → Bool
  | .outside .connection _ | .outside .timeout _ | .outside .http _
  | .outside .unreadableAnswer _ => true
  | _ => false

/-- Whether a fault says that a value is not as it should be. -/
def isValueFault : Fault → Bool
  | .outside .badValue _ | .unreadable _ | .undecodable _ => true
  | _ => false

/-! ## Contracts -/

/-- The answer about a contract that is not known to be on the network. -/
def unverified (contractId : Value) (more : List (String × Value)) : Value :=
  .object ([("verified", .bool false), ("contractId", contractId)] ++ more)

/-- What the mirror holds about a contract; `none` if it does not know the contract. -/
def contractRecord (c : LedgerClient) (contractId : Value) : Action (Option Value) := do
  let url := c.mirrorUrl ++ "/api/v1/contracts/" ++ contractId.display
  let reply ← Action.settle (← Action.ask (.fetch url none c.timeout))
  if reply.status = 404 then return none
  Action.settle (reply.check url)
  return some (← Action.settle reply.content)

/-- What is told about a contract on the network. -/
def verifiedAnswer (contractId record : Value) : Except Fault Value := do
  return .object
    [("verified", .bool true), ("contractId", ← record.getD "contract_id" contractId),
     ("evmAddress", ← record.get "evm_address"),
     ("createdTimestamp", ← record.get "created_timestamp"), ("fileId", ← record.get "file_id")]

/-- Whether a contract is on the network, and what is known about it. -/
def verify (c : LedgerClient) (contractId : Value) : Action Value := do
  match ← Action.attempt (c.contractRecord contractId) with
  | .ok none => return unverified contractId []
  | .ok (some record) => Action.settle (verifiedAnswer contractId record)
  | .error f =>
    if endsExchange f then
      Action.log .warning
        ("Contract verification failed for " ++ contractId.display ++ ": " ++ f.message)
      return unverified contractId [("error", .str f.message)]
    else throw f

/-! ## Balances -/

/-- The places between the smallest unit and the one that is shown. -/
def unitPlaces : Nat := 8

/-- An amount in the smallest unit, as shown. -/
def amountText (v : Value) : Except Fault String := do
  let amount ← (← Decimal.ofValue v).movePoint unitPlaces
  return amount.plain ++ " ℏ"

/-- The entries of an answer about balances. -/
def balanceEntries (c : LedgerClient) : Action Value := do
  let url := c.mirrorUrl ++ "/api/v1/balances"
  let query : Action Value := do
    let reply ←
      Action.settle (← Action.ask (.fetch url (some [("account.id", c.accountId)]) c.timeout))
    Action.settle (reply.check url)
    let answer ← Action.settle reply.content
    Action.settle (answer.getD "balances" (.list []))
  match ← Action.attempt query with
  | .ok v => return v
  | .error f =>
    if endsExchange f || isValueFault f then
      throw (failure ("Failed to get account balance: " ++ f.message) [])
    else throw f

/-- The first entry of an answer about balances. -/
def firstEntry : Value → Except Fault Value
  | .list (v :: _) => .ok v
  | .str s => .ok (.str (String.ofList (s.toList.take 1)))
  | .object _ => .error (.missingKey (.int 0))
  | v => .error (.notIndexable v.kind)

/-- The balance of the account, as shown. -/
def balance (c : LedgerClient) : Action String := do
  let entries ← c.balanceEntries
  if !entries.truthy then
    throw (failure ("Account not found: " ++ c.accountId.display) [])
  let amount ← Action.settle do (← firstEntry entries).getD "balance" (.int 0)
  Action.settle (amountText amount)

/-- How the account stands on the network. -/
def status (c : LedgerClient) : Action Value := do
  let now ← Action.ask .clock
  let answer (balance : Value) (status : String) (more : List (String × Value)) : Value :=
    .object
      ([("network", .str c.network.name), ("accountId", c.accountId), ("balance", balance),
        ("status", .str status), ("timestamp", .str (Instant.text now))] ++ more)
  match ← Action.attempt c.balance with
  | .ok amount => return answer (.str amount) "connected" []
  | .error (.report r) =>
    if r.family = .ledger then return answer .null "error" [("error", r.message)]
    else throw (.report r)
  | .error f => throw f

end LedgerClient

end SolidityAudit
