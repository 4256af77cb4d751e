import SolidityAudit.Analysis.Store
import SolidityAudit.Audit.Gas
import SolidityAudit.Audit.Report
import SolidityAudit.Ledger.Transaction

/-!
# The analysis service

A service analyzes contracts, deploys and verifies them, and tells of what it has done. Each
operation is a job: a script over the store of the session, the clock, the log, and the
collaborators. A collaborator may take its time, so other jobs may go on while one waits for it;
what stands between two such requests happens at once.
-/

namespace SolidityAudit

/-- A service. Without an explorer there is no ledger. -/
structure Service where
  /-- where the explorer of the ledger shows things -/
  explorerUrl : Option String
  network : Value
  recentLimit : Value
  /-- whether the summaries come from a model -/
  hasModel : Bool
deriving Repr

namespace Service

/-! ## Requests -/

/-- What a job asks for. -/
inductive Request
  | log (level : Outside.Level) (text : String)
  | now
  | load
  | save (s : Store)
  | summarize (source : String)
  | anchor (document memo : Value)
  | deploy (source arguments : Value)
  | verify (contractId : Value)
  | status
deriving Repr

/-- The type of the answer to a request. -/
@[reducible] def Answer : Request → Type
  | .log .. | .save _ => Unit
  | .now => Instant
  | .load => Store
  | .summarize _ => Except Fault Value
  | .anchor .. => Except Fault String
  | .deploy .. => Except Fault Deployment
  | .verify _ => Except Fault Value
  | .status => Except Fault Value

/-- Whether a request goes to a collaborator, so that other jobs may go on meanwhile. -/
def Request.waits : Request → Bool
  | .summarize _ | .anchor .. | .deploy .. | .verify _ | .status => true
  | _ => false

/-- One operation of a service. -/
abbrev Job := ExceptT Fault (Script Request Answer)

/-- The answer to a request. -/
def ask (r : Request) : Job (Answer r) := ExceptT.lift (Script.request r)

/-- The result of an exchange, or its fault. -/
def settle {α : Type} (r : Except Fault α) : Job α := ExceptT.mk (pure r)

/-- An entry in the log. -/
def note (level : Outside.Level) (text : String) : Job Unit := ask (.log level text)

/-! ## Ids -/

/-- The id of a number. -/
def idOf (n : Int) : String := "analysis-" ++ toString n

/-- The number of milliseconds of an instant that is kept in seconds. -/
def numberOf (t : Instant) : Int :=
  (((Double.ofRatio t 1000).scale 1000).truncate?).getD 0

/-- The first number from the given one on whose id is free, within some steps. -/
def freeFrom (s : Store) : Nat → Int → Int
  | 0, n => n
  | steps + 1, n => if s.contains (idOf n) then freeFrom s steps (n + 1) else n

/-- The id of the first free number from the given one on. As many ids as there are analyses can be
taken, no more. -/
def newId (s : Store) (n : Int) : String :=
  idOf (freeFrom s s.count n)

/-! ## Analyzing -/

/-- The fault of a request that lacks a field. -/
def lacking (message field : String) : Fault :=
  .report (.invalid message field .null)

/-- The fault of a request without a source. -/
def noSource : Fault := lacking "Contract source is empty" "source"

/-- The source of a contract, which must not be blank. -/
def sourceOf (source : Value) : Except Fault String :=
  match source with
  | .str s => if Text.trim s = "" then .error noSource else .ok s
  | v => if v.truthy then .error (.noAttribute v.kind "strip") else .error noSource

/-- The facts of a source. -/
def read (source : String) : Job ContractFacts := do
  if let some notice := ContractFacts.parseNotice (some source) then
    note .warning notice
  return ContractFacts.parseOrFallback (some source)

/-- The document of an analysis, as it is anchored. -/
def documentOf (a : StoredAnalysis) (source : String) : Value :=
  .object
    [("id", .str a.id), ("contractName", a.contractName), ("summary", a.summary),
     ("securityReport", a.securityReport), ("contractCode", .str source),
     ("timestamp", a.timestamp), ("originalFilename", a.filename)]

/-- The text that goes with the document of an analysis. -/
def memoOf (a : StoredAnalysis) : Value :=
  .str ("LexAudit Analysis: " ++ a.contractName.display)

/-- The answer about an analysis. -/
def analysisAnswer (a : StoredAnalysis) (gas : GasReport) : Value :=
  .object
    [("success", .bool true), ("analysisId", .str a.id), ("fileId", a.fileId),
     ("contractName", a.contractName), ("summary", a.summary),
     ("securityReport", a.securityReport), ("gasReport", gas.toValue),
     ("riskScore", a.riskScore)]

/-- An analysis is stored under its id. -/
def keep (a : StoredAnalysis) (source : String) : Job Value := do
  ask (.save ((← ask .load).insert a))
  note .debug ("Stored analysis " ++ a.id ++ " (" ++ a.contractName.display ++ ")")
  note .info ("Analysis complete: " ++ a.id ++ " (risk " ++ a.riskScore.display ++ ")")
  return analysisAnswer a (GasReport.ofSource source)

/-- An analysis is stored with the record that the ledger keeps of it. -/
def keepAnchored (a : StoredAnalysis) (source : String) (anchored : Except Fault String) :
    Job Value := do
  let fileId ← settle anchored
  keep { a with fileId := .str fileId } source

/-- An analysis is anchored, if there is a ledger, and stored. -/
def anchorAndKeep (s : Service) (a : StoredAnalysis) (source : String) : Job Value :=
  match s.explorerUrl with
  | none => keep a source
  | some _ => do keepAnchored a source (← ask (.anchor (documentOf a source) (memoOf a)))

/-- A new analysis. -/
def newAnalysis (id : String) (time : Instant) (filename : Value) (facts : ContractFacts)
    (report : SecurityReport) (summary : Value) : StoredAnalysis where
  id
  contractName := facts.name
  filename
  riskScore := report.riskScore
  timestamp := .str (Instant.text time)
  status := .analyzed
  fileId := .null
  contractId := .null
  transactionId := .null
  summary
  securityReport := report.toValue

/-- A source with known facts is audited, and gets the first free id from the present on. -/
def assess (s : Service) (filename : Value) (source : String) (facts : ContractFacts)
    (summarized : Except Fault Value) : Job Value := do
  let report := audit source facts
  note .debug (report.notice facts)
  let summary ← settle summarized
  let id := newId (← ask .load) (numberOf (← ask .now))
  s.anchorAndKeep (newAnalysis id (← ask .now) filename facts report summary) source

/-- A source is analyzed, anchored and stored. -/
def analyze (s : Service) (source filename : Value) : Job Value := do
  let source ← settle (sourceOf source)
  note .info ("Analyzing contract: " ++ filename.display)
  let facts ← read source
  s.assess filename source facts (← ask (.summarize source))

/-! ## Deploying -/

/-- The explorer of the ledger, which must be there. -/
def requireLedger (s : Service) : Except Fault String :=
  match s.explorerUrl with
  | some url => .ok url
  | none =>
    .error (.report (.make .configuration
      "Hedera ledger not configured. Set HEDERA_ACCOUNT_ID and HEDERA_PRIVATE_KEY" []))

/-- The document of a deployment, as it is anchored. -/
def deploymentDocument (s : Service) (analysisId : Value) (d : Deployment) (now : Instant)
    (links : Value) : Value :=
  .object
    [("analysisId", analysisId), ("contractId", d.contractId),
     ("transactionId", .str d.transactionId), ("gasUsed", .int d.gasUsed),
     ("deploymentTimestamp", .str (Instant.text now)), ("network", s.network),
     ("hashScanLinks", links)]

/-- An analysis is marked as deployed, if it is one of this session. -/
def markDeployed (analysisId : Value) (d : Deployment) : Job Unit := do
  let store ← ask .load
  match ← settle (store.lookUp analysisId) with
  | none =>
    note .info
      ("Analysis " ++ analysisId.display ++ " not in this session's store; status not updated")
  | some _ =>
    let (store, outcome) := store.updateStatus analysisId .deployed
      [("contract_id", d.contractId), ("transaction_id", .str d.transactionId)]
    ask (.save store)
    let _ ← settle outcome

/-- The text that goes with the document of a deployment. -/
def deploymentMemo (analysisId : Value) : Value :=
  .str ("LexAudit Deployment: " ++ analysisId.display)

/-- The answer about a deployment. -/
def deploymentAnswer (d : Deployment) (fileId : String) (links : Value) : Value :=
  .object
    [("success", .bool true), ("contractId", d.contractId),
     ("transactionId", .str d.transactionId), ("gasUsed", .int d.gasUsed),
     ("deploymentFileId", .str fileId), ("hashScanLinks", links)]

/-- An anchored deployment is marked. -/
def finishDeployment (analysisId : Value) (d : Deployment) (links : Value)
    (anchored : Except Fault String) : Job Value := do
  let fileId ← settle anchored
  markDeployed analysisId d
  return deploymentAnswer d fileId links

/-- Where the explorer shows a deployment. -/
def linksOf (explorerUrl : String) (d : Deployment) : Value :=
  .object (LedgerClient.links explorerUrl (.str d.transactionId) d.contractId)

/-- A contract that may have been deployed is anchored and marked. -/
def recordDeployment (s : Service) (explorerUrl : String) (analysisId : Value)
    (deployed : Except Fault Deployment) : Job Value := do
  let d ← settle deployed
  let links := linksOf explorerUrl d
  let document := s.deploymentDocument analysisId d (← ask .now) links
  finishDeployment analysisId d links (← ask (.anchor document (deploymentMemo analysisId)))

/-- The contract of an analysis is deployed, and the deployment is anchored. -/
def deploy (s : Service) (analysisId source arguments : Value) : Job Value := do
  if !analysisId.truthy then throw (lacking "Analysis ID is required" "analysis_id")
  if !source.truthy then
    throw (lacking "Contract code is required for deployment" "source")
  let explorerUrl ← settle s.requireLedger
  note .info ("Deploying contract for analysis: " ++ analysisId.display)
  let arguments ← settle (arguments.orElse (.list [])).iterate
  s.recordDeployment explorerUrl analysisId (← ask (.deploy source (.list arguments)))

/-! ## Verifying -/

/-- The analysis whose contract is on the network is marked as verified, if there is one. -/
def markVerified (contractId : Value) : Job Unit := do
  let store ← ask .load
  if let some a := store.findByContract contractId then
    let (store, outcome) := store.updateStatus (.str a.id) .verified []
    ask (.save store)
    let _ ← settle outcome

/-- The answer about a verification. -/
def verificationAnswer (contractId : Value) (found : Bool) (details : Value) : Value :=
  .object
    [("success", .bool true), ("contractId", contractId), ("verified", .bool found),
     ("details", details)]

/-- A contract that the network knows is marked. -/
def finishVerification (contractId : Value) (answered : Except Fault Value) : Job Value := do
  let details ← settle answered
  let verified := (← settle (details.get "verified")).truthy
  if verified then markVerified contractId
  return verificationAnswer contractId verified details

/-- Whether a contract is on the network. -/
def verify (s : Service) (contractId : Value) : Job Value := do
  if !contractId.truthy then throw (lacking "Contract ID is required" "contract_id")
  let _ ← settle s.requireLedger
  note .info ("Verifying contract: " ++ contractId.display)
  finishVerification contractId (← ask (.verify contractId))

/-! ## Queries -/

/-- How many analyses a limit allows; a negative limit allows none. -/
def limitOf (limit : Value) : Except Fault Int :=
  match limit.integer?, limit with
  | some n, _ => .ok (max n 0)
  | none, .float x => if x.compareRatio 0 1 = some .lt then .ok 0 else .error .badSlice
  | none, v => .error (.noOrder ">" .int v.kind)

/-- The last analyses, newest first. An empty limit is the one of the service. -/
def recent (s : Service) (limit : Value) : Job Value := do
  let store ← ask .load
  let count ← settle (limitOf (limit.orElse s.recentLimit))
  return .list ((store.recent count).map StoredAnalysis.toValue)

/-- What the session has done, in numbers. -/
def stats : Job Value := do
  let store ← ask .load
  let average ← settle store.averageRiskScore
  let high ← settle store.highRiskCount
  return .object
    [("totalAnalyses", .int store.count), ("contractsDeployed", .int store.deployedCount),
     ("averageRiskScore", .int average), ("highRiskDetected", .int high)]

/-- The analysis under an id. -/
def find (analysisId : Value) : Job Value := do
  return (← settle ((← ask .load).get analysisId)).toValue

/-- How the service and its collaborators do. -/
def health (s : Service) : Job Value := do
  let status ←
    if s.explorerUrl.isSome then settle (← ask .status) else pure .null
  let field (key : String) (default : Value) : Job Value :=
    if status.truthy then settle (status.get key) else return default
  let now ← ask .now
  let store ← ask .load
  return .object
    [("status", .str "OK"), ("timestamp", .str (Instant.text now)),
     ("services", .object
      [("hedera", .bool ((← field "status" .null).same (.str "connected"))),
       ("openai", .bool s.hasModel), ("network", ← field "network" s.network),
       ("balance", ← field "balance" .null)]),
     ("networkStatus", status),
     ("stats", .object
      [("totalAnalyses", .int store.count), ("contractsDeployed", .int store.deployedCount)])]

end Service

end SolidityAudit
