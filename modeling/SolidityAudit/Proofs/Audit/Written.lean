import SolidityAudit.Audit.Report
import SolidityAudit.Proofs.Audit.Score
import SolidityAudit.Proofs.Contract.Offence

/-!
# Audits that can be written

The only integer in the report of an audit is its score, which is small, and the name of a source is
taken from its outline or from its text. So neither has an integer that is too long to be written
(`RuleTable.hasLong_audit`, `ContractFacts.hasLong_name`).
-/

namespace SolidityAudit

/-! ## Reports -/

lemma Rule.hasLong_issue (r : Rule) : r.issue.toValue.hasLong = false := by
  simp [Rule.issue, Issue.toValue]

lemma Issue.hasLong_riskScore (issues : List Issue) :
    (Value.int (riskScore issues)).hasLong = false := by
  have hscore : riskScore issues < 10 ^ digitLimit :=
    calc riskScore issues ≤ 100 := riskScore_le issues
      _ < 10 ^ 3 := by decide
      _ ≤ 10 ^ digitLimit := Nat.pow_le_pow_right (by decide) (by decide)
  rw [← Bool.not_eq_true, Value.hasLong_int, Nat.not_le]
  exact hscore

/-- The report of an audit can be written, whatever the rules are. -/
lemma RuleTable.hasLong_audit (table : RuleTable) (source : String) (facts : ContractFacts) :
    (table.audit source facts).toValue.hasLong = false := by
  have hissues : ∀ i ∈ (table.evaluate source facts).issues, i.toValue.hasLong = false := by
    intro i hi
    obtain ⟨r, -, rfl⟩ := List.mem_map.mp hi
    exact r.hasLong_issue
  have hscore := Issue.hasLong_riskScore (table.evaluate source facts).issues
  simpa [RuleTable.audit, SecurityReport.toValue, hscore] using hissues

/-! ## Names -/

namespace ContractFacts

/-- A name that an outline gives to a file can be written if the outline can. -/
lemma hasLong_nameOfFirst {tree : Value} (h : tree.hasLong = false) :
    (Collect.nameOfFirst (Collect.ofKind "ContractDefinition" tree.objects)).hasLong = false := by
  unfold Collect.nameOfFirst
  split
  · next n hn =>
    have hmem : n ∈ tree.objects := (List.mem_filter.mp (List.mem_of_head? hn)).1
    unfold Value.orElse
    split
    · exact Collect.hasLong_get (Value.hasLong_of_mem_objects tree h hmem)
    · rfl
  · rfl

/-- The name of a source can be written. -/
lemma hasLong_name (source : String) : (parseOrFallback (some source)).name.hasLong = false := by
  unfold parseOrFallback
  split
  · next f hparse =>
    obtain ⟨tree, houtline, hfacts⟩ := bind_eq_ok_iff.mp hparse
    obtain ⟨items, -, -, rfl⟩ := outline_eq_ok.mp houtline
    obtain ⟨g, hcollected, rfl⟩ : ∃ g, Collect.facts (Solidity.outline items) = .ok g ∧ g = f := by
      unfold ofOutline at hfacts
      cases hg : Collect.facts (Solidity.outline items) with
      | error e => rw [hg] at hfacts; cases hfacts
      | ok g => rw [hg] at hfacts; exact ⟨g, rfl, Except.ok.inj hfacts⟩
    obtain ⟨s, -, hs, rfl⟩ :=
      Collect.collected_of_facts (Solidity.outline_distinctKeys items) hcollected
    show s.facts.name.hasLong = false
    rw [hs.name]
    exact hasLong_nameOfFirst (Solidity.hasLong_outline items)
  · rfl

end ContractFacts

end SolidityAudit
