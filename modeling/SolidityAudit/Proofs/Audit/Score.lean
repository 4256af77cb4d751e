import Mathlib.Algebra.Order.BigOperators.Group.List
import Mathlib.Algebra.Order.Ring.Nat
import SolidityAudit.Audit.Score

/-!
# The score of findings

The score is the sum of the weights, cut off at its maximum. The cut does no harm to sums: the score
of two lists together follows from their scores (`riskScore_append`). Every severity weighs
something, so the score is zero only if nothing has been found, and only then does the summary say
so (`summary_eq_noIssues_iff`).
-/

namespace SolidityAudit

lemma Severity.weight_pos (s : Severity) : 0 < s.weight := by
  cases s <;> decide

namespace Issue

variable {issues others : List Issue}

lemma totalWeight_eq_sum (issues : List Issue) :
    totalWeight issues = (issues.map (·.severity.weight)).sum := by
  induction issues with
  | nil => rfl
  | cons i issues ih => rw [totalWeight, List.map_cons, List.sum_cons, ih]

/-- The score is at most its maximum. -/
lemma riskScore_le (issues : List Issue) : riskScore issues ≤ maxScore :=
  min_le_left maxScore (totalWeight issues)

/-- The scores of two lists add up, as far as the maximum allows. -/
lemma riskScore_append (issues others : List Issue) :
    riskScore (issues ++ others) = min maxScore (riskScore issues + riskScore others) := by
  have hweight : totalWeight (issues ++ others) = totalWeight issues + totalWeight others := by
    simp only [totalWeight_eq_sum, List.map_append, List.sum_append]
  unfold riskScore
  rw [hweight]
  omega

/-- The order of the findings does not matter. -/
lemma riskScore_perm (h : issues.Perm others) : riskScore issues = riskScore others := by
  have hweight : totalWeight issues = totalWeight others := by
    rw [totalWeight_eq_sum, totalWeight_eq_sum]
    exact (h.map _).sum_eq
  unfold riskScore
  rw [hweight]

/-- More findings do not lower the score. -/
lemma riskScore_mono (h : issues.Sublist others) : riskScore issues ≤ riskScore others := by
  have hweight : totalWeight issues ≤ totalWeight others := by
    rw [totalWeight_eq_sum, totalWeight_eq_sum]
    exact (h.map _).sum_le_sum fun n _ => Nat.zero_le n
  exact min_le_min_left maxScore hweight

/-- The score is zero if and only if nothing has been found. -/
lemma riskScore_eq_zero_iff : riskScore issues = 0 ↔ issues = [] := by
  constructor
  · intro h
    cases issues with
    | nil => rfl
    | cons i issues =>
      have hpos := i.severity.weight_pos
      rw [riskScore, totalWeight, maxScore] at h
      omega
  · rintro rfl
    rfl

/-- The summary says that there are no issues if and only if the score is zero. -/
lemma summary_eq_noIssues_iff (issues : List Issue) (score : Int) :
    summary issues score = noIssues ↔ score = 0 := by
  unfold summary
  split
  · next h => exact ⟨fun _ => h, fun _ => rfl⟩
  · next h =>
    refine ⟨fun hsame => absurd ?_ h, fun hzero => absurd hzero h⟩
    -- the two kinds of summaries differ in their first letter
    have hfirst := congrArg (·.toList.head?) hsame
    simp only [String.toList_append, List.append_assoc] at hfirst
    have hletters : some 'S' = some 'N' := hfirst
    simp at hletters

end Issue

end SolidityAudit
