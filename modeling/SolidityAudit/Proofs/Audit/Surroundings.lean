import SolidityAudit.Audit.Standard
import SolidityAudit.Proofs.Text.Pattern

/-!
# Sources in larger texts

A pattern that occurs in a source occurs in every text that holds the source. So text around a
source can hide a finding only through a pattern that the rule forbids, or through the facts: five
of the standard rules have no forbidden pattern, and the findings that may get lost are those of
the other three (`lost_in_larger_text`).
-/

namespace SolidityAudit

/-- The characters of a text stand in every text that holds it. -/
lemma toList_part (before source after : String) :
    source.toList <:+: (before ++ source ++ after).toList := by
  rw [String.toList_append, String.toList_append]
  exact List.infix_append before.toList source.toList after.toList

/-! ## One rule -/

namespace Rule

variable {r : Rule} {source text : List Char} {facts : ContractFacts}

lemma applies_iff :
    r.applies source facts = true ↔ (∀ p ∈ r.required, p.occurs source = true) ∧
      (∀ p ∈ r.forbidden, p.occurs source = false) ∧ r.condition facts = true := by
  rw [applies, Bool.and_eq_true, Bool.and_eq_true, List.all_eq_true, Bool.not_eq_true',
    List.any_eq_false]
  simp only [Bool.not_eq_true, and_assoc]

/-- The required patterns of a source occur in every text that holds it. -/
lemma required_of_part (h : source <:+: text) (hrequired : ∀ p ∈ r.required, p.occurs source = true)
    (p : Pattern) (hp : p ∈ r.required) : p.occurs text = true :=
  Pattern.occurs_of_part h (hrequired p hp)

/-- A rule that forbids nothing applies to every text that holds a source to which it applies. -/
lemma applies_of_part (hforbidden : r.forbidden = []) (h : source <:+: text)
    (happlies : r.applies source facts = true) : r.applies text facts = true := by
  obtain ⟨hrequired, -, hcondition⟩ := applies_iff.mp happlies
  refine applies_iff.mpr ⟨required_of_part h hrequired, ?_, hcondition⟩
  intro p hp
  rw [hforbidden] at hp
  simp at hp

/-- A rule that a source forbids applies to no text that holds it. -/
lemma not_applies_of_part {p : Pattern} (hp : p ∈ r.forbidden) (h : source <:+: text)
    (hoccurs : p.occurs source = true) : r.applies text facts = false := by
  have htext : p.occurs text = true := Pattern.occurs_of_part h hoccurs
  rw [Bool.eq_false_iff]
  intro happlies
  have hnone := (applies_iff.mp happlies).2.1 p hp
  rw [htext] at hnone
  simp at hnone

end Rule

/-! ## A table of rules -/

namespace RuleTable

variable {table : RuleTable} {source : String} {facts : ContractFacts} {i : Issue}

lemma mem_issues_evaluate :
    i ∈ (table.evaluate source facts).issues ↔
      ∃ r ∈ table, r.applies source.toList facts = true ∧ r.issue = i := by
  rw [evaluate, List.mem_map]
  simp only [List.mem_filter, and_assoc]

/-- A finding that gets lost in a larger text is one of a rule with forbidden patterns. -/
lemma forbids_of_lost (before after : String)
    (hfound : i ∈ (table.evaluate source facts).issues)
    (hlost : i ∉ (table.evaluate (before ++ source ++ after) facts).issues) :
    ∃ r ∈ table, r.forbidden ≠ [] ∧ r.issue = i := by
  obtain ⟨r, hr, happlies, hi⟩ := mem_issues_evaluate.mp hfound
  refine ⟨r, hr, ?_, hi⟩
  intro hforbidden
  have htext := Rule.applies_of_part hforbidden (toList_part before source after) happlies
  exact hlost (mem_issues_evaluate.mpr ⟨r, hr, htext, hi⟩)

end RuleTable

/-! ## The standard rules -/

namespace Rule

/-- The rules that look for patterns and forbid none. -/
def unguarded : RuleTable := [reentrancy, txOrigin, uncheckedCall, weakRandomness, timeDependence]

/-- The rules that look for some patterns and forbid others. -/
def guarded : RuleTable := [overflow, denialOfService]

/-- Whatever stands around a source, a rule that forbids nothing applies as before. A rule that
forbids patterns keeps what it requires, and stays silent if it was silenced in the source. So the
findings that text around a source may hide are those of three rules. -/
theorem lost_in_larger_text (before source after : String) (facts : ContractFacts) :
    (∀ r ∈ unguarded, r.applies source.toList facts = true →
      r.applies (before ++ source ++ after).toList facts = true) ∧
    (∀ r ∈ guarded,
      ((∀ p ∈ r.required, p.occurs source.toList = true) →
        ∀ p ∈ r.required, p.occurs (before ++ source ++ after).toList = true) ∧
      ∀ p ∈ r.forbidden, p.occurs source.toList = true →
        r.applies (before ++ source ++ after).toList facts = false) ∧
    ∀ i ∈ (standard.evaluate source facts).issues,
      i ∉ (standard.evaluate (before ++ source ++ after) facts).issues →
        i = overflow.issue ∨ i = accessControl.issue ∨ i = denialOfService.issue := by
  have hpart := toList_part before source after
  refine ⟨?_, ?_, ?_⟩
  · intro r hr happlies
    have hforbidden : r.forbidden = [] := by
      simp only [unguarded, List.mem_cons, List.not_mem_nil, or_false] at hr
      rcases hr with rfl | rfl | rfl | rfl | rfl <;> rfl
    exact applies_of_part hforbidden hpart happlies
  · intro r _
    exact ⟨required_of_part hpart, fun p hp => not_applies_of_part hp hpart⟩
  · intro i hfound hlost
    obtain ⟨r, hr, hforbidden, rfl⟩ := RuleTable.forbids_of_lost before after hfound hlost
    simp only [standard, List.mem_cons, List.not_mem_nil, or_false] at hr
    rcases hr with rfl | rfl | rfl | rfl | rfl | rfl | rfl | rfl
    -- three rules of the table forbid something
    case inr.inr.inr.inl => exact .inl rfl
    case inr.inr.inr.inr.inl => exact .inr (.inl rfl)
    case inr.inr.inr.inr.inr.inr.inl => exact .inr (.inr rfl)
    all_goals exact absurd rfl hforbidden

/-- A finding can be hidden: a word behind the source silences the rule about overflow. -/
example (facts : ContractFacts) :
    overflow.applies "a + b".toList facts = true ∧
      overflow.applies ("a + b" ++ " SafeMath").toList facts = false := by
  constructor <;> rfl

end Rule

end SolidityAudit
