import SolidityAudit.Value.Access

/-!
# Settings

The settings of the program with their names, their defaults, and the environment variables that
override them. A setting may have values of any type, and one that is used has a value that may come
from outside and be anything.
-/

namespace SolidityAudit

/-- What can be set. -/
inductive Setting
  | modelKey | model | riskModel | modelTimeout | modelRetries
  | network | accountId | privateKey | nodeUrl | mirrorUrl | explorerUrl
  | gasLimit | ledgerTimeout | ledgerRetries
  | compilerVersion | optimizeRuns
  | recentLimit
deriving DecidableEq, Repr

namespace Setting

/-- The settings in the order in which they are shown. -/
def every : List Setting :=
  [modelKey, model, riskModel, modelTimeout, modelRetries, network, accountId, privateKey, nodeUrl,
   mirrorUrl, explorerUrl, gasLimit, ledgerTimeout, ledgerRetries, compilerVersion, optimizeRuns,
   recentLimit]

/-- The name of a setting. -/
def name : Setting → String
  | modelKey => "openai_api_key"
  | model => "openai_model"
  | riskModel => "openai_risk_model"
  | modelTimeout => "llm_timeout"
  | modelRetries => "llm_max_retries"
  | network => "hedera_network"
  | accountId => "hedera_account_id"
  | privateKey => "hedera_private_key"
  | nodeUrl => "hedera_json_rpc_url"
  | mirrorUrl => "hedera_mirror_node_url"
  | explorerUrl => "hashscan_base_url"
  | gasLimit => "deploy_gas_limit"
  | ledgerTimeout => "ledger_timeout"
  | ledgerRetries => "ledger_max_retries"
  | compilerVersion => "solc_version"
  | optimizeRuns => "optimize_runs"
  | recentLimit => "recent_analyses_limit"

/-- The setting with a name. -/
def ofName? (s : String) : Option Setting :=
  every.find? (·.name == s)

/-- The value of a setting that is set nowhere. An empty endpoint is the one of the network. -/
def default : Setting → Value
  | modelKey | accountId | privateKey | nodeUrl | mirrorUrl | explorerUrl => .str ""
  | model => .str "gpt-3.5-turbo"
  | riskModel => .str "gpt-4"
  | modelTimeout => .float (.ofInt 60)
  | modelRetries => .int 2
  | network => .str "testnet"
  | gasLimit => .int 1000000
  | ledgerTimeout => .float (.ofInt 30)
  | ledgerRetries => .int 3
  | compilerVersion => .str "0.8.20"
  | optimizeRuns => .int 200
  | recentLimit => .int 10

/-- The environment variable that overrides a setting. -/
def environmentName? : Setting → Option String
  | modelKey => some "OPENAI_API_KEY"
  | network => some "HEDERA_NETWORK"
  | accountId => some "HEDERA_ACCOUNT_ID"
  | privateKey => some "HEDERA_PRIVATE_KEY"
  | nodeUrl => some "HEDERA_JSON_RPC_URL"
  | mirrorUrl => some "HEDERA_MIRROR_NODE_URL"
  | explorerUrl => some "HASHSCAN_BASE_URL"
  | _ => none

/-- Whether the value of a setting is shown in part only. -/
def isSecret : Setting → Bool
  | modelKey | privateKey => true
  | _ => false

end Setting

/-- A value for each setting. -/
abbrev Settings (α : Type := Value) := Setting → α

namespace Settings

/-- The settings when nothing is set. -/
def default : Settings := Setting.default

/-- The settings with one of them set. -/
def set {α : Type} (s : Settings α) (k : Setting) (v : α) : Settings α :=
  fun j => if j = k then v else s j

/-- The settings under their names. -/
def named {α : Type} (s : Settings α) : List (String × α) :=
  Setting.every.map fun k => (k.name, s k)

/-- The settings with a field set by its name; other fields do not count. -/
def setField (s : Settings) (name : String) (v : Value) : Settings :=
  match Setting.ofName? name with
  | some k => s.set k v
  | none => s

/-- The settings that fields give. -/
def ofFields (fields : List (String × Value)) : Except Fault Settings := do
  checkNames "LexAuditConfig" [] (Setting.every.map Setting.name) (fields.map (·.1))
  return fields.foldl (fun s (name, v) => s.setField name v) default

/-- Settings as data. -/
def toValue (s : Settings) : Value :=
  .object s.named

/-- Whether there is an account on the ledger. -/
def hasCredentials (s : Settings) : Bool :=
  (s .accountId).truthy && (s .privateKey).truthy

end Settings

end SolidityAudit
