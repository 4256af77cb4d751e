import SolidityAudit.Audit.Report
import SolidityAudit.Proofs.Fault

/-!
# Reports as data and back

A report keeps all that it says when it becomes data: reading the data gives the report again
(`SecurityReport.ofValue_toValue`). So what is said of the findings of a report holds of those that
are read from its data, wherever the data has been kept meanwhile.

Other data may tell of a report too: it may leave things out, or hold more than a report says. What
can be read is described by the fields of its objects (`SecurityReport.ToldBy`), so a report that
has been read is written and read again without a change (`SecurityReport.read_write_read`).
-/

namespace SolidityAudit

lemma Severity.ofValue_name (s : Severity) : Severity.ofValue (.str s.name) = .ok s := by
  cases s <;> rfl

namespace Issue

/-- A finding comes back from its data, with or without a place. -/
lemma ofValue_toValue (i : Issue) : ofValue i.toValue = .ok i := by
  obtain ⟨severity, type, description, recommendation, location⟩ := i
  have hseverity := Severity.ofValue_name severity
  cases location with
  | null =>
    show (Severity.ofValue (.str severity.name) >>= fun _ => _) = _
    rw [hseverity]
    rfl
  | _ =>
    show (Severity.ofValue (.str severity.name) >>= fun _ => _) = _
    rw [hseverity]
    rfl

lemma mapM_ofValue_toValue (issues : List Issue) :
    (issues.map toValue).mapM ofValue = .ok issues := by
  induction issues with
  | nil => rfl
  | cons i issues ih =>
    rw [List.map_cons, List.mapM_cons, ofValue_toValue, ih]
    rfl

end Issue

namespace SecurityReport

/-- A report comes back from its data. -/
theorem ofValue_toValue (r : SecurityReport) : ofValue r.toValue = .ok r := by
  show ((r.issues.map Issue.toValue).mapM Issue.ofValue >>= fun _ => _) = _
  rw [Issue.mapM_ofValue_toValue]
  rfl

end SecurityReport

/-! ## Data that can be read -/

section Reading

variable {v w : Value} {key : String}

namespace Value

lemma item_eq_ok_iff :
    v.item key = .ok w ↔ ∃ fields, v = .object fields ∧ fieldOf key fields = some w := by
  cases v with
  | object fields =>
    simp only [item, object.injEq, exists_eq_left']
    cases fieldOf key fields with
    | none => exact iff_of_false nofun nofun
    | some u =>
      rw [Option.some_inj]
      exact ⟨Except.ok.inj, congrArg _⟩
  | _ => exact iff_of_false nofun nofun

lemma getD_eq_ok_iff {default : Value} :
    v.getD key default = .ok w ↔
      ∃ fields, v = .object fields ∧ (fieldOf key fields).getD default = w := by
  cases v with
  | object fields =>
    simp only [getD, object.injEq, exists_eq_left', Except.ok.injEq]
  | _ => exact iff_of_false nofun nofun

end Value

/-- Only the name of a severity names it. -/
lemma Severity.ofValue_eq_ok_iff {s : Severity} : Severity.ofValue v = .ok s ↔ v = .str s.name := by
  constructor
  · intro h
    unfold ofValue at h
    split at h
    · rename_i t ht
      obtain rfl := Except.ok.inj h
      obtain ⟨name, hname, hs⟩ := Option.bind_eq_some_iff.mp ht
      have htext : v = .str name := by cases v <;> simp_all [Value.text?]
      unfold ofName? at hs
      have hfound := List.find?_some hs
      rw [htext, beq_iff_eq.mp hfound]
    · cases h
  · rintro rfl
    exact ofValue_name s

end Reading

namespace Issue

/-- The fields tell of a finding. Its place may be missing; other fields do not count. -/
structure ToldBy (fields : List (String × Value)) (i : Issue) : Prop where
  severity : fieldOf "severity" fields = some (.str i.severity.name)
  type : fieldOf "type" fields = some i.type
  description : fieldOf "description" fields = some i.description
  recommendation : fieldOf "recommendation" fields = some i.recommendation
  location : (fieldOf "location" fields).getD .null = i.location

/-- A finding is read from an object whose fields tell of it, and from nothing else. -/
lemma ofValue_eq_ok_iff {v : Value} {i : Issue} :
    ofValue v = .ok i ↔ ∃ fields, v = .object fields ∧ ToldBy fields i := by
  unfold ofValue Value.get
  simp only [bind_eq_ok_iff, Value.item_eq_ok_iff, Value.getD_eq_ok_iff, Severity.ofValue_eq_ok_iff]
  constructor
  · rintro ⟨_, ⟨fields, rfl, hseverity⟩, s, rfl, type, ⟨_, ⟨⟩, htype⟩, description,
      ⟨_, ⟨⟩, hdescription⟩, recommendation, ⟨_, ⟨⟩, hrecommendation⟩, location,
      ⟨_, ⟨⟩, hlocation⟩, ⟨⟩⟩
    exact ⟨fields, rfl, hseverity, htype, hdescription, hrecommendation, hlocation⟩
  · rintro ⟨fields, rfl, h⟩
    exact ⟨_, ⟨fields, rfl, h.severity⟩, _, rfl, _, ⟨fields, rfl, h.type⟩, _,
      ⟨fields, rfl, h.description⟩, _, ⟨fields, rfl, h.recommendation⟩, _,
      ⟨fields, rfl, h.location⟩, rfl⟩

end Issue

namespace SecurityReport

/-- The fields tell of a report. All but the score may be missing; other fields do not count. -/
structure ToldBy (fields : List (String × Value)) (r : SecurityReport) : Prop where
  riskScore : fieldOf "riskScore" fields = some r.riskScore
  issues : ∃ items, ((fieldOf "issues" fields).getD (.list [])).iterate = .ok items ∧
    List.Forall₂ (fun v i => ∃ told, v = .object told ∧ Issue.ToldBy told i) items r.issues
  summary : (fieldOf "summary" fields).getD (.str "") = r.summary
  passedChecks : ((fieldOf "passedChecks" fields).getD (.list [])).iterate = .ok r.passedChecks

/-- A report is read from an object whose fields tell of it, and from nothing else. -/
lemma ofValue_eq_ok_iff {v : Value} {r : SecurityReport} :
    ofValue v = .ok r ↔ ∃ fields, v = .object fields ∧ ToldBy fields r := by
  unfold ofValue
  simp only [bind_eq_ok_iff, Value.item_eq_ok_iff, Value.getD_eq_ok_iff, mapM_eq_ok_iff,
    Issue.ofValue_eq_ok_iff]
  constructor
  · rintro ⟨_, ⟨fields, rfl, hscore⟩, _, ⟨_, ⟨⟩, rfl⟩, items, hitems, issues, hissues, summary,
      ⟨_, ⟨⟩, hsummary⟩, _, ⟨_, ⟨⟩, rfl⟩, passed, hpassed, ⟨⟩⟩
    exact ⟨fields, rfl, hscore, ⟨items, hitems, hissues⟩, hsummary, hpassed⟩
  · rintro ⟨fields, rfl, h⟩
    obtain ⟨items, hitems, hissues⟩ := h.issues
    exact ⟨_, ⟨fields, rfl, h.riskScore⟩, _, ⟨fields, rfl, rfl⟩, items, hitems, _, hissues, _,
      ⟨fields, rfl, h.summary⟩, _, ⟨fields, rfl, rfl⟩, _, h.passedChecks, rfl⟩

/-- Every report is read from its own data. Reports are read from the objects whose fields tell of
them, and writing such a report and reading it again changes nothing. -/
theorem read_write_read :
    (∀ r : SecurityReport, ofValue r.toValue = .ok r) ∧
    (∀ fields r, ofValue (.object fields) = .ok r ↔ ToldBy fields r) ∧
    ∀ v : Value, (ofValue v >>= fun r => ofValue r.toValue) = ofValue v := by
  refine ⟨ofValue_toValue, ?_, ?_⟩
  · intro fields r
    simp only [ofValue_eq_ok_iff, Value.object.injEq, exists_eq_left']
  · intro v
    simp only [ofValue_toValue]
    exact bind_pure (ofValue v)

end SecurityReport

end SolidityAudit
