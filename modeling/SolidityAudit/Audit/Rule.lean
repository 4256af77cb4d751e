import SolidityAudit.Audit.Issue
import SolidityAudit.Contract.Facts
import SolidityAudit.Text.Pattern

/-!
# Security rules

A rule looks at the text of a source and at the facts about it. It applies when all its required
patterns occur, none of its forbidden patterns occurs, and its condition on the facts holds. A rule
that applies reports its issue, and one that does not is a passed check; both lists keep the order
of the table.
-/

namespace SolidityAudit

/-- A rule and the texts that it reports. -/
structure Rule where
  id : String
  type : String
  severity : Severity
  description : String
  recommendation : String
  passedCheck : String
  required : List Pattern
  forbidden : List Pattern
  condition : ContractFacts → Bool

namespace Rule

/-- Whether the rule applies to a source with the given facts. -/
def applies (r : Rule) (source : List Char) (facts : ContractFacts) : Bool :=
  r.required.all (·.occurs source) && !r.forbidden.any (·.occurs source) && r.condition facts

/-- The issue of a rule. -/
def issue (r : Rule) : Issue :=
  { severity := r.severity
    type := .str r.type
    description := .str r.description
    recommendation := .str r.recommendation
    location := .null }

end Rule

/-- What the rules of a table say about one source. -/
structure Outcome where
  issues : List Issue
  passed : List String
deriving Repr

/-- A table of rules. -/
abbrev RuleTable := List Rule

namespace RuleTable

/-- What the rules say about a source with the given facts. -/
def evaluate (table : RuleTable) (source : String) (facts : ContractFacts) : Outcome :=
  let cs := source.toList
  ⟨(table.filter (·.applies cs facts)).map Rule.issue,
    (table.filter (!·.applies cs facts)).map Rule.passedCheck⟩

/-- The rule with the id. -/
def find? (table : RuleTable) (id : String) : Option Rule :=
  List.find? (·.id == id) table

end RuleTable

end SolidityAudit
