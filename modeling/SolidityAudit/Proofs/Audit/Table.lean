import SolidityAudit.Audit.Report
import SolidityAudit.Proofs.Audit.Score

/-!
# Reports of rule tables

Each rule of a table gives one entry of the report, an issue or a passed check, and both lists keep
the order of the table (`RuleTable.SortsInto`). No rule looks at another one. So a table can be
taken apart: reports of two tables one after the other are put together, and the score, cut off as
it is, follows from the two scores (`RuleTable.audit_of_rules`).
-/

namespace SolidityAudit.RuleTable

/-! ## Sorting the rules -/

/-- The rules of a table one after the other: a rule that applies gives its issue, and a rule that
does not gives its passed check. -/
inductive SortsInto (source : List Char) (facts : ContractFacts) :
    RuleTable → List Issue → List Value → Prop
  | nil : SortsInto source facts [] [] []
  | found {r : Rule} {table : RuleTable} {issues : List Issue} {checks : List Value}
      (happlies : r.applies source facts = true) (h : SortsInto source facts table issues checks) :
      SortsInto source facts (r :: table) (r.issue :: issues) checks
  | passed {r : Rule} {table : RuleTable} {issues : List Issue} {checks : List Value}
      (happlies : r.applies source facts = false) (h : SortsInto source facts table issues checks) :
      SortsInto source facts (r :: table) issues (.str r.passedCheck :: checks)

variable {table larger : RuleTable} {source : String} {facts : ContractFacts}

lemma issues_audit (table : RuleTable) (source : String) (facts : ContractFacts) :
    (table.audit source facts).issues =
      (table.filter (·.applies source.toList facts)).map Rule.issue :=
  rfl

lemma passedChecks_audit (table : RuleTable) (source : String) (facts : ContractFacts) :
    (table.audit source facts).passedChecks =
      ((table.filter (!·.applies source.toList facts)).map Rule.passedCheck).map .str :=
  rfl

/-- The report of a table has its rules sorted. -/
lemma sortsInto_audit (table : RuleTable) (source : String) (facts : ContractFacts) :
    SortsInto source.toList facts table (table.audit source facts).issues
      (table.audit source facts).passedChecks := by
  rw [issues_audit, passedChecks_audit]
  induction table with
  | nil => exact .nil
  | cons r table ih =>
    rw [List.filter_cons, List.filter_cons]
    cases happlies : r.applies source.toList facts with
    | true => exact .found happlies ih
    | false => exact .passed happlies ih

/-- There is one way to sort the rules of a table. -/
lemma SortsInto.unique {cs : List Char} {issues issues' : List Issue} {checks checks' : List Value}
    (h : SortsInto cs facts table issues checks) (h' : SortsInto cs facts table issues' checks') :
    issues = issues' ∧ checks = checks' := by
  induction h generalizing issues' checks' with
  | nil =>
    cases h'
    exact ⟨rfl, rfl⟩
  | found happlies _ ih =>
    cases h' with
    | found _ hrest =>
      obtain ⟨rfl, rfl⟩ := ih hrest
      exact ⟨rfl, rfl⟩
    | passed hnot _ =>
      rw [happlies] at hnot
      cases hnot
  | passed happlies _ ih =>
    cases h' with
    | found hyes _ =>
      rw [happlies] at hyes
      cases hyes
    | passed _ hrest =>
      obtain ⟨rfl, rfl⟩ := ih hrest
      exact ⟨rfl, rfl⟩

/-- Tables one after the other are sorted one after the other. -/
lemma SortsInto.append {cs : List Char} {more : RuleTable} {issues issues' : List Issue}
    {checks checks' : List Value} (h : SortsInto cs facts table issues checks)
    (h' : SortsInto cs facts more issues' checks') :
    SortsInto cs facts (table ++ more) (issues ++ issues') (checks ++ checks') := by
  induction h with
  | nil => exact h'
  | found happlies _ ih => exact .found happlies ih
  | passed happlies _ ih => exact .passed happlies ih

/-! ## The score of a table -/

/-- The score of what the rules of a table find. -/
def score (table : RuleTable) (source : String) (facts : ContractFacts) : Nat :=
  Issue.riskScore (table.audit source facts).issues

lemma issues_perm {other : RuleTable} (h : table.Perm other) (source : String)
    (facts : ContractFacts) :
    (table.audit source facts).issues.Perm (other.audit source facts).issues :=
  (h.filter _).map _

lemma issues_sublist (h : table.Sublist larger) (source : String) (facts : ContractFacts) :
    (table.audit source facts).issues.Sublist (larger.audit source facts).issues :=
  (h.filter _).map _

/-! ## The whole report -/

/-- The report of a table sorts its rules, and in no other way can they be sorted. Reports of tables
one after the other are put together, and the score follows from theirs. The score lies between zero
and 100, the order of the rules does not change it, and rules that are added do not lower it. It is
zero when there are no issues, and just then the summary says so. -/
theorem audit_of_rules (table more : RuleTable) (source : String) (facts : ContractFacts) :
    (∀ issues checks, SortsInto source.toList facts table issues checks ↔
      issues = (table.audit source facts).issues ∧
        checks = (table.audit source facts).passedChecks) ∧
    ((table ++ more).audit source facts).issues =
      (table.audit source facts).issues ++ (more.audit source facts).issues ∧
    ((table ++ more).audit source facts).passedChecks =
      (table.audit source facts).passedChecks ++ (more.audit source facts).passedChecks ∧
    (table.audit source facts).riskScore = .int (table.score source facts) ∧
    (table ++ more).score source facts =
      min 100 (table.score source facts + more.score source facts) ∧
    table.score source facts ≤ 100 ∧
    (∀ other : RuleTable, table.Perm other →
      table.score source facts = other.score source facts) ∧
    (∀ larger : RuleTable, table.Sublist larger →
      table.score source facts ≤ larger.score source facts) ∧
    (table.score source facts = 0 ↔ (table.audit source facts).issues = []) ∧
    ((table.audit source facts).issues = [] ↔
      (table.audit source facts).summary = .str Issue.noIssues) := by
  have hsorted := sortsInto_audit table source facts
  obtain ⟨hissues, hchecks⟩ := (sortsInto_audit (table ++ more) source facts).unique
    (hsorted.append (sortsInto_audit more source facts))
  have hzero : table.score source facts = 0 ↔ (table.audit source facts).issues = [] :=
    Issue.riskScore_eq_zero_iff
  refine ⟨?_, hissues, hchecks, rfl, ?_, Issue.riskScore_le _, ?_, ?_, hzero, ?_⟩
  · intro issues checks
    constructor
    · exact fun h => h.unique hsorted
    · rintro ⟨rfl, rfl⟩
      exact hsorted
  · unfold score
    rw [hissues]
    exact Issue.riskScore_append _ _
  · exact fun other h => Issue.riskScore_perm (issues_perm h source facts)
  · exact fun larger h => Issue.riskScore_mono (issues_sublist h source facts)
  · have hsummary : (table.audit source facts).summary =
        .str (Issue.summary (table.audit source facts).issues (table.score source facts)) := rfl
    rw [hsummary, Value.str.injEq, Issue.summary_eq_noIssues_iff, Int.natCast_eq_zero, hzero]

/-- Two of the standard rules. -/
def originRules : RuleTable := [Rule.txOrigin, Rule.uncheckedCall]

/-- The same rules the other way round. -/
def swappedRules : RuleTable := [Rule.uncheckedCall, Rule.txOrigin]

/-- The first of the rules applies, in whichever order they stand. -/
theorem originRules_audit :
    originRules.Perm swappedRules ∧ originRules.Sublist Rule.standard ∧
      originRules.score "tx.origin" (.fallback none) = 8 ∧
      swappedRules.score "tx.origin" (.fallback none) = 8 ∧
      8 ≤ Rule.standard.score "tx.origin" (.fallback none) := by
  have hperm : originRules.Perm swappedRules := .swap Rule.uncheckedCall Rule.txOrigin []
  have hsublist : originRules.Sublist Rule.standard :=
    .cons Rule.reentrancy
      (.cons_cons Rule.txOrigin (.cons_cons Rule.uncheckedCall (List.nil_sublist _)))
  have hscore : originRules.score "tx.origin" (.fallback none) = 8 := by decide +kernel
  obtain ⟨-, -, -, -, -, -, hreordered, hadded, -⟩ :=
    audit_of_rules originRules [] "tx.origin" (.fallback none)
  refine ⟨hperm, hsublist, hscore, ?_, ?_⟩
  · rw [← hreordered _ hperm, hscore]
  · rw [← hscore]
    exact hadded _ hsublist

end SolidityAudit.RuleTable
