import SolidityAudit.Audit.Issue

/-!
# The risk score and its summary

The score adds up the weights of the findings and stops at 100. The summary counts the findings of
each severity and advises by the score.
-/

namespace SolidityAudit

namespace Issue

/-- The most that a score can be. -/
def maxScore : Nat := 100

/-- The weights of findings together. -/
def totalWeight : List Issue → Nat
  | [] => 0
  | i :: rest => i.severity.weight + totalWeight rest

/-- The risk score of a list of findings. -/
def riskScore (issues : List Issue) : Nat :=
  min maxScore (totalWeight issues)

/-- How many findings have the severity. -/
def countOf (s : Severity) (issues : List Issue) : Nat :=
  (issues.filter (·.severity = s)).length

/-- The summary of an audit without findings. -/
def noIssues : String :=
  "No security issues detected. Contract appears to follow security best practices."

/-- The number of findings of a severity with a mark after it, if there are any. -/
def clause (issues : List Issue) (s : Severity) (mark : String) : String :=
  let n := countOf s issues
  if 0 < n then toString n ++ mark else ""

/-- What a score advises. -/
def advice (score : Int) : String :=
  if 50 < score then "Immediate attention and fixes recommended before deployment."
  else if 20 < score then "Review and address issues before production deployment."
  else "Minor issues detected, review recommended."

/-- The summary of a list of findings with a score. -/
def summary (issues : List Issue) (score : Int) : String :=
  if score = 0 then noIssues
  else
    "Security audit found " ++ toString issues.length ++ " issue(s) with a risk score of "
      ++ toString score ++ "/100. "
      ++ clause issues .critical " critical, "
      ++ clause issues .high " high, "
      ++ clause issues .medium " medium, "
      ++ clause issues .low " low severity issues. "
      ++ advice score

end Issue

end SolidityAudit
