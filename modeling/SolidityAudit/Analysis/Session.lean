import SolidityAudit.Analysis.Service
import SolidityAudit.Config.Settings
import SolidityAudit.Ledger.Mirror
import SolidityAudit.Legal.Summary

/-!
# Sessions

A session is a service with its collaborators and its store. Its jobs run one after the other, each
request going to the collaborator that answers it.
-/

namespace SolidityAudit

/-- A service at work. -/
structure Session where
  summarizer : Summarizer
  ledger : Option LedgerClient
  network : Value
  recentLimit : Value
  store : Store
deriving Repr

namespace Session

/-- The service of a session. -/
def service (s : Session) : Service where
  explorerUrl := s.ledger.map (·.explorerUrl)
  network := s.network
  recentLimit := s.recentLimit
  hasModel := s.summarizer.hasKey

/-- The client of the ledger, which must be there. -/
def requireLedger (s : Session) : Action LedgerClient :=
  match s.ledger with
  | some c => return c
  | none => throw (.report (.make .configuration "Hedera ledger not configured" []))

/-- What answers the requests of jobs: the store of the session, and the outside. -/
abbrev Worker := StateT Store (Script Outside.Request Outside.Answer)

/-- The outcome of an exchange with a collaborator. -/
def exchange {α : Type} (x : Action α) : Worker (Except Fault α) := liftM x.run

/-- The answer to a request of a job. -/
def answer (s : Session) : (r : Service.Request) → Worker (Service.Answer r)
  | .log level text => liftM (Script.request (A := Outside.Answer) (.log level text))
  | .now => liftM (Script.request (A := Outside.Answer) .clock)
  | .load => get
  | .save store => set store
  | .summarize source => exchange (s.summarizer.summarize source)
  | .anchor document memo => exchange do (← s.requireLedger).anchor document memo
  | .deploy source arguments => exchange do (← s.requireLedger).deploy source arguments
  | .verify contractId => exchange do (← s.requireLedger).verify contractId
  | .status => exchange do (← s.requireLedger).status

/-- The outcome of a job, and the session after it. -/
def perform {α : Type} (s : Session) (job : Service.Job α) :
    Script Outside.Request Outside.Answer (Except Fault α × Session) := do
  let (outcome, store) ← (Script.run s.answer job.run).run s.store
  return (outcome, { s with store })

/-! ## Opening -/

/-- The options of the summarizer that settings give. -/
def summarizerOptions (c : Settings) : Summarizer.Options where
  key := (c .modelKey).orElse .null
  model := c .model
  riskModel := c .riskModel
  timeout := c .modelTimeout
  retries := c .modelRetries

/-- The options of the ledger client that settings give. -/
def ledgerOptions (c : Settings) : LedgerClient.Options where
  accountId := c .accountId
  privateKey := c .privateKey
  network := c .network
  nodeUrl := (c .nodeUrl).orElse .null
  mirrorUrl := (c .mirrorUrl).orElse .null
  explorerUrl := (c .explorerUrl).orElse .null
  compiler := { version := c .compilerVersion, runs := c .optimizeRuns }
  gasLimit := c .gasLimit
  timeout := c .ledgerTimeout
  retries := c .ledgerRetries

/-- A session with the given settings. Without credentials there is no ledger. -/
def start (c : Settings) : Action Session := do
  let summarizer ← Summarizer.start (summarizerOptions c)
  let ledger ←
    if c.hasCredentials then pure (some (← LedgerClient.start (ledgerOptions c)))
    else do
      Action.log .warning
        "Hedera credentials not configured - provenance and deployment disabled"
      pure none
  return {
    summarizer
    ledger
    network := c .network
    recentLimit := c .recentLimit
    store := .empty }

end Session

end SolidityAudit
