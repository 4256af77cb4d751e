import Mathlib.Data.List.Perm.Basic
import SolidityAudit.Proofs.Audit.Score
import SolidityAudit.Proofs.Text.Digit

/-!
# What a summary tells

A summary has a clause for each severity that occurs: a number and a mark. The marks begin with
different letters, so a clause that is missing is not taken for another one, and the clauses tell
the numbers (`Issue.clauses_inj`). The rest of the summary follows from the severities, whatever
their order. So two summaries are the same text if and only if each severity occurs equally often
(`Issue.summary_eq_iff`).
-/

namespace SolidityAudit

open Text (NoDigit noDigit_append toDigits_append_inj ne_toDigits_append)

/-! ## Clauses -/

namespace Severity

/-- What stands behind the number of findings of a severity. -/
def mark : Severity → String
  | critical => " critical, "
  | high => " high, "
  | medium => " medium, "
  | low => " low severity issues. "

/-- The letter that tells the mark of a severity. -/
def letter : Severity → Char
  | critical => 'c'
  | high => 'h'
  | medium => 'm'
  | low => 'l'

lemma letter_inj {s t : Severity} (h : s.letter = t.letter) : s = t := by
  cases s <;> cases t <;> first | rfl | exact absurd h (by decide)

lemma exists_mark (s : Severity) : ∃ more, s.mark.toList = ' ' :: s.letter :: more := by
  cases s <;> exact ⟨_, rfl⟩

end Severity

namespace Issue

/-- The clauses of some severities, each with its number of findings, and then the rest. -/
def clauses (count : Severity → Nat) (rest : List Char) : List Severity → List Char
  | [] => rest
  | s :: ss =>
    (if 0 < count s then Nat.toDigits 10 (count s) ++ s.mark.toList else []) ++
      clauses count rest ss

section Clauses

variable {count count' : Severity → Nat} {rest rest' : List Char} {s : Severity}
  {ss : List Severity}

lemma clauses_of_pos (h : 0 < count s) :
    clauses count rest (s :: ss) =
      Nat.toDigits 10 (count s) ++ (s.mark.toList ++ clauses count rest ss) := by
  rw [clauses, if_pos h, List.append_assoc]

lemma clauses_of_not_pos (h : ¬ 0 < count s) :
    clauses count rest (s :: ss) = clauses count rest ss := by
  rw [clauses, if_neg h, List.nil_append]

lemma noDigit_mark (s : Severity) (rest : List Char) : NoDigit (s.mark.toList ++ rest) :=
  noDigit_append (by cases s <;> decide) rest

/-- If clauses begin with a number and a mark, then the mark is that of one of the severities. -/
lemma mem_of_clauses_eq (hrest : NoDigit rest) {n : Nat} {more : List Char}
    (h : clauses count rest ss = Nat.toDigits 10 n ++ (s.mark.toList ++ more)) : s ∈ ss := by
  induction ss with
  | nil => exact absurd h (ne_toDigits_append hrest)
  | cons t ss ih =>
    by_cases hpos : 0 < count t
    · rw [clauses_of_pos hpos] at h
      obtain ⟨-, hmarks⟩ := toDigits_append_inj (noDigit_mark t _) (noDigit_mark s _) h
      obtain ⟨u, hu⟩ := t.exists_mark
      obtain ⟨v, hv⟩ := s.exists_mark
      rw [hu, hv] at hmarks
      have hletter : t.letter = s.letter := (List.cons.inj (List.cons.inj hmarks).2).1
      rw [Severity.letter_inj hletter]
      exact List.mem_cons_self
    · rw [clauses_of_not_pos hpos] at h
      exact List.mem_cons_of_mem t (ih h)

/-- Clauses tell the numbers of their severities. -/
theorem clauses_inj (hss : ss.Nodup) (hrest : NoDigit rest) (hrest' : NoDigit rest')
    (h : clauses count rest ss = clauses count' rest' ss) : ∀ s ∈ ss, count s = count' s := by
  induction ss with
  | nil => simp
  | cons s ss ih =>
    obtain ⟨hnew, hss⟩ := List.nodup_cons.mp hss
    rw [List.forall_mem_cons]
    by_cases hpos : 0 < count s
    · by_cases hpos' : 0 < count' s
      · rw [clauses_of_pos hpos, clauses_of_pos hpos'] at h
        obtain ⟨hcount, hmarks⟩ := toDigits_append_inj (noDigit_mark s _) (noDigit_mark s _) h
        exact ⟨hcount, ih hss (List.append_cancel_left hmarks)⟩
      · rw [clauses_of_pos hpos, clauses_of_not_pos hpos'] at h
        exact absurd (mem_of_clauses_eq hrest' h.symm) hnew
    · by_cases hpos' : 0 < count' s
      · rw [clauses_of_not_pos hpos, clauses_of_pos hpos'] at h
        exact absurd (mem_of_clauses_eq hrest h) hnew
      · rw [clauses_of_not_pos hpos, clauses_of_not_pos hpos'] at h
        exact ⟨by omega, ih hss h⟩

end Clauses

/-! ## Summaries -/

section Summaries

variable {issues others : List Issue}

/-- The severities in the order of the clauses. -/
def inOrder : List Severity := [.critical, .high, .medium, .low]

lemma mem_inOrder (s : Severity) : s ∈ inOrder := by
  cases s <;> decide

lemma toList_clause (issues : List Issue) (s : Severity) :
    (clause issues s s.mark).toList =
      if 0 < countOf s issues then Nat.toDigits 10 (countOf s issues) ++ s.mark.toList else [] := by
  unfold clause
  dsimp only
  split
  · rw [String.toList_append, Nat.toString_eq_repr, Nat.toList_repr]
  · rfl

/-- A summary tells the number of findings, the score, and the numbers for the severities. -/
lemma toList_summary (hsome : riskScore issues ≠ 0) :
    (summary issues (riskScore issues)).toList =
      "Security audit found ".toList ++ (Nat.toDigits 10 issues.length ++
        (" issue(s) with a risk score of ".toList ++ (Nat.toDigits 10 (riskScore issues) ++
          ("/100. ".toList ++
            clauses (countOf · issues) (advice (riskScore issues)).toList inOrder)))) := by
  have hscore : (toString (riskScore issues : Int)).toList = Nat.toDigits 10 (riskScore issues) :=
    Nat.toList_repr
  have hlength : (toString issues.length).toList = Nat.toDigits 10 issues.length :=
    Nat.toList_repr
  unfold summary
  rw [if_neg (by omega)]
  simp only [String.toList_append, List.append_assoc, hscore, hlength, clauses, inOrder,
    ← toList_clause]
  rfl

lemma noDigit_advice (score : Int) : NoDigit (advice score).toList := by
  rw [← List.append_nil (advice score).toList]
  apply noDigit_append
  unfold advice
  split_ifs <;> decide

/-- Summaries of findings tell how many there are of each severity. -/
lemma countOf_eq_of_summary_eq (hsome : riskScore issues ≠ 0) (hsome' : riskScore others ≠ 0)
    (h : summary issues (riskScore issues) = summary others (riskScore others)) (s : Severity) :
    countOf s issues = countOf s others := by
  have htext := congrArg String.toList h
  rw [toList_summary hsome, toList_summary hsome'] at htext
  have hfound := List.append_cancel_left htext
  obtain ⟨-, hissues⟩ := toDigits_append_inj (noDigit_append (by decide) _)
    (noDigit_append (by decide) _) hfound
  have hscores := List.append_cancel_left hissues
  obtain ⟨-, hclauses⟩ := toDigits_append_inj (noDigit_append (by decide) _)
    (noDigit_append (by decide) _) hscores
  exact clauses_inj (by decide) (noDigit_advice _) (noDigit_advice _)
    (List.append_cancel_left hclauses) s (mem_inOrder s)

lemma countOf_eq_count (s : Severity) (issues : List Issue) :
    countOf s issues = (issues.map (·.severity)).count s := by
  rw [List.count_eq_countP, List.countP_map, List.countP_eq_length_filter, countOf]
  rfl

/-- Nothing but the severities goes into a summary, and not their order. -/
lemma summary_congr (h : (issues.map (·.severity)).Perm (others.map (·.severity))) :
    summary issues (riskScore issues) = summary others (riskScore others) := by
  have hcount (s : Severity) : countOf s issues = countOf s others := by
    rw [countOf_eq_count, countOf_eq_count, h.count_eq]
  have hlength : issues.length = others.length := by
    simpa only [List.length_map] using h.length_eq
  have hscore : riskScore issues = riskScore others := by
    have hweights := h.map Severity.weight
    rw [List.map_map, List.map_map] at hweights
    rw [riskScore, riskScore, totalWeight_eq_sum, totalWeight_eq_sum]
    exact congrArg (min maxScore) hweights.sum_eq
  have hclause (s : Severity) (mark : String) : clause issues s mark = clause others s mark := by
    rw [clause, clause, hcount]
  unfold summary
  simp only [hlength, hscore, hclause]

/-- Two lists of findings have the same summary if and only if each severity occurs equally often
in both. -/
theorem summary_eq_iff (issues others : List Issue) :
    summary issues (riskScore issues) = summary others (riskScore others) ↔
      ∀ s, countOf s issues = countOf s others := by
  constructor
  · intro h
    by_cases hnone : riskScore issues = 0 ∨ riskScore others = 0
    · -- only the summary of no findings says that there are none
      have hzero : riskScore issues = 0 ∧ riskScore others = 0 := by
        have hnoIssues := summary_eq_noIssues_iff issues (riskScore issues)
        rw [h, summary_eq_noIssues_iff] at hnoIssues
        omega
      rw [riskScore_eq_zero_iff.mp hzero.1, riskScore_eq_zero_iff.mp hzero.2]
      exact fun _ => rfl
    · rw [not_or] at hnone
      exact countOf_eq_of_summary_eq hnone.1 hnone.2 h
  · intro h
    refine summary_congr (List.perm_iff_count.mpr fun s => ?_)
    rw [← countOf_eq_count, ← countOf_eq_count]
    exact h s

end Summaries

end Issue

end SolidityAudit
