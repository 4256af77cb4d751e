import SolidityAudit.Audit.Gas
import SolidityAudit.Audit.Report
import SolidityAudit.Outside.Request

/-!
# Reports on the console

Reports and summaries as they are shown on the console, with markup for colours.
-/

namespace SolidityAudit

open Outside

/-- The style in which a severity is shown. -/
def Severity.style : Severity → String
  | .critical => "bold red"
  | .high => "red"
  | .medium => "yellow"
  | .low => "cyan"

/-- The style in which a gas risk is shown. -/
def GasRisk.style : GasRisk → String
  | .high => "red"
  | .medium => "yellow"
  | .low => "green"

/-- The style in which a risk score is shown. -/
def scoreStyle (score : Value) : Except Fault String := do
  if ← score.exceeds 50 then return "bold red"
  if ← score.exceeds 20 then return "yellow"
  return "green"

/-! ## Security reports -/

/-- The row of a finding. -/
def Issue.row (i : Issue) : List String :=
  ["[" ++ i.severity.style ++ "]" ++ i.severity.name ++ "[/]", i.type.display,
   i.description.display, i.recommendation.display]

/-- The table of the findings. -/
def Issue.table (issues : List Issue) : Shown :=
  .table "Issues" ["Severity", "Type", "Description", "Recommendation"] (issues.map Issue.row)

/-- A security report as it is shown. -/
def SecurityReport.shown (r : SecurityReport) : Except Fault (List Shown) := do
  let score := r.riskScore.display
  let head := "[bold]Risk score:[/bold] [" ++ (← scoreStyle r.riskScore) ++ "]" ++ score
    ++ "/100[/]"
  let findings := if r.issues.isEmpty then [] else [Issue.table r.issues]
  let checks := r.passedChecks.map fun c => Shown.text ("  [green]✓[/green] " ++ c.display)
  return .text head :: (findings ++ checks ++ [.text ("\n" ++ r.summary.display)])

/-- The panel above a security report. -/
def reportPanel (facts : ContractFacts) : Shown :=
  .panel
    ("[bold]" ++ facts.name.display ++ "[/bold]  ·  complexity " ++ facts.complexity.name)
    "🛡️ LexAudit Security Report"

/-! ## Gas reports -/

/-- A gas report as it is shown. -/
def GasReport.shown (r : GasReport) : List Shown :=
  [.table "⛽ Gas Usage" ["Pattern", "Count"]
     [["Loops", toString r.counts.loops],
      ["External calls", toString r.counts.externalCalls],
      ["Storage operations", toString r.counts.storageOperations]],
   .text ("[bold]Gas risk:[/bold] [" ++ r.risk.style ++ "]" ++ r.risk.name ++ "[/]")]
    ++ r.recommendations.map fun s => .text ("  • " ++ s)

/-! ## Legal summaries -/

/-- The lines of a part of a summary, if it is there and not empty. -/
def partLines (summary : Value) (key : String) (lines : Value → Except Fault (List String)) :
    Except Fault (List String) := do
  let part ← summary.get key
  if part.truthy then lines part else return []

/-- The lines of a legal summary. -/
def summaryLines (summary : Value) : Except Fault (List String) := do
  let text ← summary.getD "summary" (.str "")
  let functions ← partLines summary "keyFunctions" fun v => do
    let names := (← v.iterate).map Value.display
    return ["\n[bold]Key functions:[/bold] " ++ ", ".intercalate names]
  let controls ← partLines summary "accessControls" fun v =>
    return ["[bold]Access controls:[/bold] " ++ v.display]
  let implications ← partLines summary "legalImplications" fun v => do
    return (← v.iterate).map fun i => "  • " ++ i.display
  let risk ← partLines summary "legalRiskLevel" fun v =>
    return ["[bold]Legal risk:[/bold] " ++ v.display]
  return text.display :: (functions ++ controls ++ implications ++ risk)

/-- The panel of a legal summary. -/
def summaryPanel (summary : Value) : Except Fault Shown := do
  return .panel ("\n".intercalate (← summaryLines summary)) "⚖️ Legal Summary"

end SolidityAudit
