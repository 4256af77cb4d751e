import SolidityAudit.Audit.Report
import SolidityAudit.Proofs.Audit.Surroundings

/-!
# Verdicts on a source

Each rule of a table gives a source one verdict, and a report says no more than the verdicts do
(`RuleTable.audit_congr`). Seven of the standard rules judge the text alone. Access control also
looks at the functions, and it is the only rule that a change of the facts can reach.
-/

namespace SolidityAudit

namespace RuleTable

variable {table : RuleTable} {source source' : String} {facts facts' : ContractFacts}

lemma mem_passed_evaluate {w : String} :
    w ∈ (table.evaluate source facts).passed ↔
      ∃ r ∈ table, r.applies source.toList facts = false ∧ r.passedCheck = w := by
  rw [evaluate, List.mem_map]
  simp only [List.mem_filter, Bool.not_eq_true', and_assoc]

/-- Sources with the same verdicts have the same report. -/
lemma audit_congr (h : ∀ r ∈ table,
      r.applies source.toList facts = r.applies source'.toList facts') :
    table.audit source facts = table.audit source' facts' := by
  have hissues : table.filter (·.applies source.toList facts) =
      table.filter (·.applies source'.toList facts') := List.filter_congr h
  have hpassed : table.filter (!·.applies source.toList facts) =
      table.filter (!·.applies source'.toList facts') :=
    List.filter_congr fun r hr => by rw [h r hr]
  have houtcome : table.evaluate source facts = table.evaluate source' facts' := by
    simp only [evaluate, hissues, hpassed]
  unfold audit
  rw [houtcome]

end RuleTable

namespace Rule

variable {r : Rule} {source : String} {facts : ContractFacts}

/-- The standard rules that judge the text alone. -/
def textual : RuleTable :=
  [reentrancy, txOrigin, uncheckedCall, overflow, weakRandomness, denialOfService, timeDependence]

lemma mem_standard : r ∈ standard ↔ r = accessControl ∨ r ∈ textual := by
  simp only [standard, textual, List.mem_cons, List.not_mem_nil, or_false]
  tauto

/-- The facts do not matter to a rule that judges the text alone. -/
lemma applies_of_textual (h : r ∈ textual) (cs : List Char) (facts facts' : ContractFacts) :
    r.applies cs facts = r.applies cs facts' := by
  simp only [textual, List.mem_cons, List.not_mem_nil, or_false] at h
  rcases h with rfl | rfl | rfl | rfl | rfl | rfl | rfl <;> rfl

/-- The texts of the access-control rule are its own. -/
lemma texts_of_textual (h : r ∈ textual) :
    r.type ≠ accessControl.type ∧ r.passedCheck ≠ accessControl.passedCheck := by
  have hall : ∀ r ∈ textual,
      r.type ≠ accessControl.type ∧ r.passedCheck ≠ accessControl.passedCheck := by
    simp only [textual, List.forall_mem_cons]
    decide
  exact hall r h

/-- A character with which no pattern of a rule begins can be put in front of a source. -/
lemma applies_cons {c : Char} (h : ∀ p ∈ r.required ++ r.forbidden, p.mayBegin c = false)
    (cs : List Char) (facts : ContractFacts) : r.applies (c :: cs) facts = r.applies cs facts := by
  have hoccurs (p : Pattern) (hp : p ∈ r.required ++ r.forbidden) :
      p.occurs (c :: cs) = p.occurs cs := Pattern.occurs_cons_of_not_mayBegin (h p hp) cs
  have hrequired : (∀ p ∈ r.required, p.occurs (c :: cs) = true) ↔
      ∀ p ∈ r.required, p.occurs cs = true :=
    forall₂_congr fun p hp => by rw [hoccurs p (List.mem_append_left _ hp)]
  have hforbidden : (∀ p ∈ r.forbidden, p.occurs (c :: cs) = false) ↔
      ∀ p ∈ r.forbidden, p.occurs cs = false :=
    forall₂_congr fun p hp => by rw [hoccurs p (List.mem_append_right _ hp)]
  rw [Bool.eq_iff_iff, applies_iff, applies_iff, hrequired, hforbidden]

/-- Without a public function there is nothing to control. -/
lemma accessControl_not_applies (h : facts.hasPublicFunction = false) (cs : List Char) :
    accessControl.applies cs facts = false := by
  show (_ && facts.hasPublicFunction) = false
  rw [h, Bool.and_false]

/-- A report has an issue about access control if that rule applies. -/
lemma accessControl_reported_iff :
    (∃ i ∈ (audit source facts).issues, i.type = .str accessControl.type) ↔
      accessControl.applies source.toList facts = true := by
  show (∃ i ∈ (standard.evaluate source facts).issues, _) ↔ _
  constructor
  · intro h
    obtain ⟨i, hi, htype⟩ := h
    obtain ⟨r, hr, happlies, rfl⟩ := RuleTable.mem_issues_evaluate.mp hi
    rcases mem_standard.mp hr with rfl | htextual
    · exact happlies
    · exact absurd (Value.str.inj htype) (texts_of_textual htextual).1
  · intro h
    have hmem : accessControl ∈ standard := mem_standard.mpr (.inl rfl)
    exact ⟨_, RuleTable.mem_issues_evaluate.mpr ⟨_, hmem, h, rfl⟩, rfl⟩

/-- A report has no such issue if that rule does not apply. -/
lemma accessControl_unreported_iff :
    (∀ i ∈ (audit source facts).issues, i.type ≠ .str accessControl.type) ↔
      accessControl.applies source.toList facts = false := by
  rw [← Bool.not_eq_true, ← accessControl_reported_iff]
  push Not
  rfl

/-- A report has the passed check of that rule if the rule does not apply. -/
lemma accessControl_passed_iff :
    .str accessControl.passedCheck ∈ (audit source facts).passedChecks ↔
      accessControl.applies source.toList facts = false := by
  show _ ∈ (standard.evaluate source facts).passed.map Value.str ↔ _
  rw [List.mem_map]
  constructor
  · intro h
    obtain ⟨w, hw, hcheck⟩ := h
    obtain rfl := Value.str.inj hcheck
    obtain ⟨r, hr, happlies, hcheck⟩ := RuleTable.mem_passed_evaluate.mp hw
    rcases mem_standard.mp hr with rfl | htextual
    · exact happlies
    · exact absurd hcheck (texts_of_textual htextual).2
  · intro h
    have hmem : accessControl ∈ standard := mem_standard.mpr (.inl rfl)
    exact ⟨_, RuleTable.mem_passed_evaluate.mpr ⟨_, hmem, h, rfl⟩, rfl⟩

end Rule

end SolidityAudit
