import SolidityAudit.Analysis.Session
import SolidityAudit.Command.Display
import SolidityAudit.Command.Help
import SolidityAudit.Config.SettingsFile
import SolidityAudit.Source.File
import SolidityAudit.Yaml.Codec

/-!
# Running commands

What a command does and the exit code that it ends with. A session is opened only when a command
needs it. What goes wrong in the program's own parts is shown, and so is a file that is not there;
any other fault ends the program.
-/

namespace SolidityAudit

open Outside

namespace Command

/-- The version of the program. -/
def versionText : String := "LexAudit v1.0.0"

/-- All of it goes to the console. -/
def showAll : List Shown → Action Unit
  | [] => return
  | s :: rest => do
    Action.ask (.print s)
    showAll rest

/-- A value over several lines goes to the output. -/
def writeValue (v : Value) : Action Unit := do
  let text ← Action.settle (writtenText (Json.indented? v))
  Action.ask (.write (text ++ "\n"))

/-- The result of a job, and the session after it. -/
def inSession {α : Type} (s : Session) (job : Service.Job α) : Action (α × Session) :=
  ExceptT.mk do
    let (outcome, s) ← s.perform job
    return outcome.map (·, s)

/-- The text of a part of an answer. -/
def partText (answer : Value) (key : String) : Action String := do
  return (← Action.settle (answer.item key)).display

/-! ## Offline commands -/

/-- The facts of a source and its security report. -/
def auditSource (source : String) : Action (ContractFacts × SecurityReport) := do
  if let some notice := ContractFacts.parseNotice (some source) then
    Action.log .warning notice
  let facts := ContractFacts.parseOrFallback (some source)
  let report := SolidityAudit.audit source facts
  Action.log .debug (report.notice facts)
  return (facts, report)

/-- The legal summary of a source, by the model of the settings. -/
def summarize (c : Settings) (source : String) : Action Value := do
  let summarizer ← Summarizer.start (Session.summarizerOptions c)
  summarizer.summarize source

/-- An audit as data. -/
def auditValue (facts : ContractFacts) (report : SecurityReport) (summary : Option Value) :
    Value :=
  .object
    ([("contractName", facts.name), ("complexity", .str facts.complexity.name),
      ("securityReport", report.toValue)] ++ (summary.map fun v => ("summary", v)).toList)

/-- A contract is audited, and summarized if asked for. -/
def runAudit (c : Settings) (path : String) (asJson withSummary : Bool) : Action Nat := do
  let source ← Source.read path
  let (facts, report) ← auditSource source
  let summary ← if withSummary then some <$> summarize c source else pure none
  if asJson then
    writeValue (auditValue facts report summary)
  else do
    Action.ask (.print (reportPanel facts))
    showAll (← Action.settle report.shown)
    if let some v := summary then
      Action.ask (.print (← Action.settle (summaryPanel v)))
  return 0

/-- The gas report of a contract. -/
def runGas (path : String) (asJson : Bool) : Action Nat := do
  let report := GasReport.ofSource (← Source.read path)
  if asJson then writeValue report.toValue else showAll report.shown
  return 0

/-! ## Commands with a session -/

/-- The panel of an analysis. -/
def analysisPanel (answer : Value) : Except Fault Shown := do
  let fileId ← answer.item "fileId"
  return .panel
    ("[bold]" ++ (← answer.item "contractName").display ++ "[/bold]\nAnalysis ID: "
      ++ (← answer.item "analysisId").display ++ "\nProvenance record: "
      ++ (fileId.orElse (.str "-")).display)
    "📄 Analysis Complete"

/-- A contract is analyzed in full. -/
def runAnalyze (c : Settings) (path : String) : Action Nat := do
  let source ← Source.read path
  let session ← Session.start c
  let (answer, _) ← inSession session (session.service.analyze (.str source) (.str path))
  Action.ask (.print (← Action.settle (analysisPanel answer)))
  Action.ask (.print (← Action.settle do summaryPanel (← answer.item "summary")))
  showAll (← Action.settle do
    (← SecurityReport.ofValue (← answer.item "securityReport")).shown)
  let risk ← Action.settle do (← answer.item "gasReport").item "gasRisk"
  Action.say ("[bold]Gas risk:[/bold] " ++ risk.display)
  return 0

/-- The id of the analysis to deploy, which is made first if no id is given. -/
def analysisFor (session : Session) (path source : String) (analysisId : Option String) :
    Action (Value × Session) := do
  match analysisId with
  | some id => return (.str id, session)
  | none => do
    let (answer, session) ←
      inSession session (session.service.analyze (.str source) (.str path))
    let id ← Action.settle (answer.item "analysisId")
    Action.say
      ("[cyan]Analyzed as " ++ id.display ++ " (risk " ++ (← partText answer "riskScore")
        ++ "/100)[/cyan]")
    return (id, session)

/-- The table of a deployment. -/
def deploymentTable (answer : Value) : Except Fault Shown := do
  let row (label key : String) : Except Fault (List String) := do
    return [label, (← answer.item key).display]
  let links ← (← answer.item "hashScanLinks").fields "items"
  return .table "🚀 Deployment" ["Field", "Value"]
    ([← row "Contract ID" "contractId", ← row "Transaction ID" "transactionId",
      ← row "Gas Used" "gasUsed", ← row "Deployment Record" "deploymentFileId"]
      ++ links.map fun (name, link) => ["HashScan (" ++ name ++ ")", link.display])

/-- A contract is deployed with the given arguments. -/
def runDeploy (c : Settings) (path : String) (analysisId : Option String)
    (arguments : List String) : Action Nat := do
  let source ← Source.read path
  let session ← Session.start c
  let (id, session) ← analysisFor session path source analysisId
  let job := session.service.deploy id (.str source) (.list (arguments.map .str))
  let (answer, _) ← inSession session job
  Action.ask (.print (← Action.settle (deploymentTable answer)))
  return 0

/-- Whether a contract is on the network. -/
def runVerify (c : Settings) (contractId : String) : Action Nat := do
  let session ← Session.start c
  let (answer, _) ← inSession session (session.service.verify (.str contractId))
  if (← Action.settle (answer.item "verified")).truthy then
    Action.say ("[green]✓ Contract " ++ contractId ++ " found on the network[/green]")
    return 0
  else
    let cause ← Action.settle do (← answer.item "details").get "error"
    let shownCause := if cause.truthy then ": " ++ cause.display else ""
    Action.say
      ("[red]✗ Contract " ++ contractId ++ " could not be verified" ++ shownCause ++ "[/red]")
    return 1

/-- The table of the state of the collaborators. -/
def statusTable (services : Value) : Except Fault Shown := do
  let ledger :=
    if (← services.item "hedera").truthy then "[green]connected[/green]"
    else "[red]unavailable[/red]"
  let network ← services.item "network"
  let balance ← services.item "balance"
  let model :=
    if (← services.item "openai").truthy then "[green]configured[/green]"
    else "[yellow]not configured[/yellow]"
  return .table "🌐 LexAudit Status" ["Service", "Status"]
    [["Hedera", ledger], ["Network", network.display],
     ["Balance", (balance.orElse (.str "-")).display], ["OpenAI", model]]

/-- How the collaborators do. -/
def runStatus (c : Settings) : Action Nat := do
  let session ← Session.start c
  let (health, _) ← inSession session session.service.health
  let services ← Action.settle (health.item "services")
  Action.ask (.print (← Action.settle (statusTable services)))
  let status ← Action.settle (health.get "networkStatus")
  let cause ← Action.settle ((status.orElse (.object [])).get "error")
  if cause.truthy then Action.say ("[red]" ++ cause.display ++ "[/red]")
  return if (← Action.settle (services.item "hedera")).truthy then 0 else 1

/-! ## All commands -/

/-- The key to the model is set, or the settings are shown. -/
def runConfig (f : SettingsFile) (newKey : Option String) : Action Nat := do
  match newKey with
  | some key => let _ ← f.setModelKey Yaml.codec (.str key)
  | none => f.display
  return 0

/-- A command runs and ends with an exit code. -/
def run (f : SettingsFile) : Command → Action Nat
  | audit path asJson withSummary => runAudit f.settings path asJson withSummary
  | gas path asJson => runGas path asJson
  | analyze path => runAnalyze f.settings path
  | deploy path analysisId arguments => runDeploy f.settings path analysisId arguments
  | verify contractId => runVerify f.settings contractId
  | status => runStatus f.settings
  | config newKey => runConfig f newKey
  | version => do
    Action.say versionText
    return 0

/-- Whether a fault is shown rather than passed on. -/
def isShownFault : Fault → Bool
  | .report _ | .noFile _ => true
  | _ => false

/-- A fault of the program's own parts is shown and ends with the exit code one. -/
def reported (x : Action Nat) : Action Nat := do
  match ← Action.attempt x with
  | .ok code => return code
  | .error f =>
    if isShownFault f then
      Action.say ("[red]Error: " ++ f.message ++ "[/red]")
      return 1
    else throw f

end Command

/-- A command line that has been understood runs with the settings of the standard file. -/
def CommandLine.Invocation.run (i : CommandLine.Invocation) : Action Nat :=
  match i.command with
  | none => do
    Action.ask (.write (CommandLine.helpText none))
    return 1
  | some command =>
    Command.reported do
      command.run (← SettingsFile.start Yaml.codec SettingsFile.standardPath true)

end SolidityAudit
