import SolidityAudit.Audit.Score
import SolidityAudit.Audit.Standard
import SolidityAudit.Contract.Parse

/-!
# Security reports

An audit of a source gives one report: the findings and the passed checks of the rules, the score,
and the summary.
-/

namespace SolidityAudit

/-- The outcome of an audit. -/
structure SecurityReport where
  riskScore : Value
  issues : List Issue
  summary : Value
  passedChecks : List Value
deriving Repr, Inhabited

namespace SecurityReport

/-- A report as data. -/
def toValue (r : SecurityReport) : Value :=
  .object
    [("riskScore", r.riskScore), ("issues", .list (r.issues.map Issue.toValue)),
     ("summary", r.summary), ("passedChecks", .list r.passedChecks)]

/-- The report that data describes. What is left out is empty, the score apart. -/
def ofValue (v : Value) : Except Fault SecurityReport := do
  let riskScore ← v.item "riskScore"
  let issues ← (← (← v.getD "issues" (.list [])).iterate).mapM Issue.ofValue
  let summary ← v.getD "summary" (.str "")
  let passedChecks ← (← v.getD "passedChecks" (.list [])).iterate
  return { riskScore, issues, summary, passedChecks }

/-- The number of findings of each severity. -/
def severityCounts (r : SecurityReport) : List (String × Nat) :=
  Severity.every.map fun s => (s.name, Issue.countOf s r.issues)

end SecurityReport

/-- What is noted about an audit. -/
def SecurityReport.notice (r : SecurityReport) (facts : ContractFacts) : String :=
  "Audited " ++ facts.name.display ++ ": " ++ toString r.issues.length ++ " issue(s), "
    ++ toString r.passedChecks.length ++ " passed, score " ++ r.riskScore.display

/-- The report of a source by the rules of a table. -/
def RuleTable.audit (table : RuleTable) (source : String) (facts : ContractFacts) :
    SecurityReport :=
  let found := table.evaluate source facts
  let score := Issue.riskScore found.issues
  { riskScore := .int score
    issues := found.issues
    summary := .str (Issue.summary found.issues score)
    passedChecks := found.passed.map .str }

/-- The report of a source by the standard rules. -/
def audit (source : String) (facts : ContractFacts) : SecurityReport :=
  RuleTable.audit Rule.standard source facts

end SolidityAudit
