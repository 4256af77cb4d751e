import SolidityAudit.Proofs.Analysis.Move

/-!
# Calls that go on alone

When no other call goes on meanwhile, the turns of a call follow one another until it has ended
(`Ends`). So a call from its beginning to its end has one outcome and one effect on the store, and
for each operation there is a lemma that says which: an analysis is stored under a free id or
nothing happens (`ends_analyze`), a deployment marks the record under its id if there is one
(`ends_deploy`), and a verification marks the first record with its contract (`ends_verify`).
-/

namespace SolidityAudit.Service

/-- A call goes on alone until it ends with an outcome. -/
inductive Ends : Store → Rest → Except Fault Value → Store → Prop
  | ended (st : Store) (x : Except Fault Value) : Ends st (.done x) x st
  | turn {st st' st'' : Store} {job r r' : Rest} {e : Event} {x : Except Fault Value}
    (hr : Resumes job e r) (ht : Turn st r st' r') (h : Ends st' r' x st'') : Ends st job x st''

section Endings

variable {s : Service} {st st' : Store} {x : Except Fault Value}

lemma ends_done {y : Except Fault Value} : Ends st (.done y) x st' ↔ x = y ∧ st' = st := by
  constructor
  · intro h
    cases h with
    | ended => exact ⟨rfl, rfl⟩
    | turn hr => exact absurd hr not_resumes_done
  · rintro ⟨rfl, rfl⟩
    exact .ended st' x

/-- What looks at the store and waits for nothing ends in one turn. -/
lemma ends_load {k : Store → Job Value} {y : Except Fault Value}
    (hturn : ∀ {st₁ r}, Turn st (k st).run st₁ r ↔ st₁ = st ∧ r = .done y) :
    Ends st (ask .load >>= k).run x st' ↔ x = y ∧ st' = st := by
  constructor
  · intro h
    cases h with
    | turn hr ht h =>
      obtain ⟨-, rfl⟩ := (resumes_at_once rfl).mp hr
      obtain ⟨rfl, rfl⟩ := hturn.mp (turn_bind_load.mp ht)
      exact ends_done.mp h
  · rintro ⟨rfl, rfl⟩
    exact .turn ((resumes_at_once rfl).mpr ⟨rfl, rfl⟩) (turn_bind_load.mpr (hturn.mpr ⟨rfl, rfl⟩))
      (.ended ..)

/-- A call at a station has ended there, or makes a move and goes on from the next station. -/
lemma ends_rest {σ : Station} (h : Ends st (σ.rest s) x st') :
    σ.rest s = .done x ∧ st' = st ∨
      ∃ e st₁ σ₁, Move s st σ e st₁ σ₁ ∧ Ends st₁ (σ₁.rest s) x st' := by
  generalize hjob : σ.rest s = job at h
  cases h with
  | ended => exact .inl ⟨rfl, rfl⟩
  | turn hr ht h =>
    subst hjob
    obtain ⟨σ₁, hmove, rfl⟩ := move_of_turn hr ht
    exact .inr ⟨_, _, σ₁, hmove, h⟩

/-- A call that waits at a station makes a move. -/
lemma ends_waiting {σ : Station} {q : Request} {next : Answer q → Rest}
    (hσ : σ.rest s = .ask q next) (h : Ends st (σ.rest s) x st') :
    ∃ e st₁ σ₁, Move s st σ e st₁ σ₁ ∧ Ends st₁ (σ₁.rest s) x st' := by
  obtain ⟨hdone, -⟩ | hmoves := ends_rest h
  · rw [hσ] at hdone
    cases hdone
  · exact hmoves

/-- A call at a station that makes a move ends as it does from the next station on. -/
lemma Ends.move {σ σ₁ : Station} {st₁ : Store} {e : Event} (hmove : Move s st σ e st₁ σ₁)
    (h : Ends st₁ (σ₁.rest s) x st') : Ends st (σ.rest s) x st' := by
  obtain ⟨r, hr, ht⟩ := turn_of_move hmove
  exact .turn hr ht h

/-- A call that has ended before its first turn has been refused. -/
lemma refused {c : Call} (h : c.job s = .done x) : ∃ f, x = .error f := by
  cases c with
  | analyze source filename =>
    rw [Call.job, analyze] at h
    cases hsource : sourceOf source with
    | error f =>
      rw [hsource] at h
      exact ⟨f, (Script.done.inj h).symm⟩
    | ok text =>
      rw [hsource] at h
      cases h
  | deploy id source arguments =>
    rw [Call.job, deploy] at h
    cases hid : id.truthy with
    | false =>
      rw [hid] at h
      exact ⟨_, (Script.done.inj h).symm⟩
    | true =>
      cases hsource : source.truthy with
      | false =>
        rw [hid, hsource] at h
        exact ⟨_, (Script.done.inj h).symm⟩
      | true =>
        cases hledger : s.requireLedger with
        | error f =>
          rw [hid, hsource, hledger] at h
          exact ⟨f, (Script.done.inj h).symm⟩
        | ok url =>
          rw [hid, hsource, hledger] at h
          cases h
  | verify contractId =>
    rw [Call.job, verify] at h
    cases hid : contractId.truthy with
    | false =>
      rw [hid] at h
      exact ⟨_, (Script.done.inj h).symm⟩
    | true =>
      cases hledger : s.requireLedger with
      | error f =>
        rw [hid, hledger] at h
        exact ⟨f, (Script.done.inj h).symm⟩
      | ok url =>
        rw [hid, hledger] at h
        cases h

/-- A call has failed, and the store is as it was before. -/
def FailsOn (st : Store) (x : Except Fault Value) (st' : Store) : Prop :=
  (∃ f, x = .error f) ∧ st' = st

lemma ends_failed {f : Fault} (h : Ends st ((Station.failed f).rest s) x st') :
    FailsOn st x st' := by
  obtain ⟨rfl, rfl⟩ := ends_done.mp h
  exact ⟨⟨f, rfl⟩, rfl⟩

/-- A call is refused, or it makes its first move. -/
lemma ends_job {c : Call} (h : Ends st (c.job s) x st') :
    FailsOn st x st' ∨
      ∃ e st₁ σ₁, Move s st (.fresh c) e st₁ σ₁ ∧ Ends st₁ (σ₁.rest s) x st' := by
  obtain ⟨hdone, rfl⟩ | hmoves := ends_rest (σ := .fresh c) h
  · exact .inl ⟨refused hdone, rfl⟩
  · exact .inr hmoves

/-! ## Analyzing -/

/-- An analysis of a text is kept: it has a free id, and the answer tells of it. -/
def KeepsOn (st : Store) (filename : Value) (text : String) (x : Except Fault Value)
    (st' : Store) : Prop :=
  ∃ now time summary fileId, ∃ a : StoredAnalysis,
    a = { assessed st now time filename text summary with fileId } ∧
      x = .ok (analysisAnswer a (GasReport.ofSource text)) ∧ st' = st.insert a

lemma ends_anchoring {text : String} {a : StoredAnalysis}
    (h : Ends st ((Station.anchoring text a).rest s) x st') :
    FailsOn st x st' ∨
      ∃ fileId, x = .ok (analysisAnswer { a with fileId } (GasReport.ofSource text)) ∧
        st' = st.insert { a with fileId } := by
  obtain ⟨e, st₁, σ₁, hmove, hends⟩ := ends_waiting rfl h
  cases hmove with
  | notAnchored f => exact .inl (ends_failed hends)
  | anchored fileId =>
    obtain ⟨rfl, rfl⟩ := ends_done.mp hends
    exact .inr ⟨_, rfl, rfl⟩

lemma ends_summarizing {filename : Value} {text : String}
    (h : Ends st ((Station.summarizing filename text).rest s) x st') :
    FailsOn st x st' ∨ KeepsOn st filename text x st' := by
  obtain ⟨e, st₁, σ₁, hmove, hends⟩ := ends_waiting rfl h
  cases hmove with
  | noSummary f => exact .inl (ends_failed hends)
  | anchor summary now time =>
    rcases ends_anchoring hends with hfails | ⟨fileId, hx, hst⟩
    · exact .inl hfails
    · exact .inr ⟨now, time, summary, fileId, _, rfl, hx, hst⟩
  | keep summary now time =>
    obtain ⟨rfl, rfl⟩ := ends_done.mp hends
    exact .inr ⟨now, time, summary, .null, _, rfl, rfl, rfl⟩

/-- An analysis that goes on alone fails and leaves the store as it was, or it is kept. -/
lemma ends_analyze {source filename : Value}
    (h : Ends st (Call.job s (.analyze source filename)) x st') :
    FailsOn st x st' ∨
      ∃ text, sourceOf source = .ok text ∧ KeepsOn st filename text x st' := by
  obtain hfails | ⟨e, st₁, σ₁, hmove, hends⟩ := ends_job h
  · exact .inl hfails
  · cases hmove with
    | analyze htext =>
      rcases ends_summarizing hends with hfails | hkeeps
      · exact .inl hfails
      · exact .inr ⟨_, htext, hkeeps⟩

/-! ## Deploying -/

/-- A deployment has returned, and the record under its id is marked, if there is one. -/
def MarksOn (st : Store) (id : Value) (x : Except Fault Value) (st' : Store) : Prop :=
  (∃ v, x = .ok v) ∧ (st.lookUp id = .ok none ∧ st' = st ∨
    ∃ key a d, id = .str key ∧ st.find? key = some a ∧ st' = st.put key (asDeployed a d))

lemma ends_recording {url : String} {id : Value} {d : Deployment} {time : Instant}
    (h : Ends st ((Station.recording url id d time).rest s) x st') :
    FailsOn st x st' ∨ MarksOn st id x st' := by
  obtain ⟨e, st₁, σ₁, hmove, hends⟩ := ends_waiting rfl h
  cases hmove with
  | notRecorded f => exact .inl (ends_failed hends)
  | noPlace fileId hplace => exact .inl (ends_failed hends)
  | unknown fileId hnone =>
    obtain ⟨rfl, rfl⟩ := ends_done.mp hends
    exact .inr ⟨⟨_, rfl⟩, .inl ⟨hnone, rfl⟩⟩
  | markDeployed fileId hfind =>
    obtain ⟨rfl, rfl⟩ := ends_done.mp hends
    exact .inr ⟨⟨_, rfl⟩, .inr ⟨_, _, d, rfl, hfind, rfl⟩⟩

lemma ends_deploying {url : String} {id source : Value} {arguments : List Value}
    (h : Ends st ((Station.deploying url id source arguments).rest s) x st') :
    FailsOn st x st' ∨ MarksOn st id x st' := by
  obtain ⟨e, st₁, σ₁, hmove, hends⟩ := ends_waiting rfl h
  cases hmove with
  | notDeployed f => exact .inl (ends_failed hends)
  | record d time => exact ends_recording hends

/-- A deployment that goes on alone fails and leaves the store as it was, or it marks a record. -/
lemma ends_deploy {id source arguments : Value}
    (h : Ends st (Call.job s (.deploy id source arguments)) x st') :
    FailsOn st x st' ∨ MarksOn st id x st' := by
  obtain hfails | ⟨e, st₁, σ₁, hmove, hends⟩ := ends_job h
  · exact .inl hfails
  · cases hmove with
    | deploy => exact ends_deploying hends
    | badArguments => exact .inl (ends_failed hends)

/-! ## Verifying -/

/-- A record of a contract that goes by an id is marked as verified. -/
def VerifiesOn (st : Store) (contractId : Value) (st' : Store) : Prop :=
  contractId.truthy = true ∧ ∃ a b, st.findByContract contractId = some a ∧
    st.find? a.id = some b ∧ st' = st.put a.id { b with status := .verified }

lemma ends_verifying {contractId : Value} (hid : contractId.truthy = true)
    (h : Ends st ((Station.verifying contractId).rest s) x st') :
    st' = st ∨ VerifiesOn st contractId st' := by
  obtain ⟨e, st₁, σ₁, hmove, hends⟩ := ends_waiting rfl h
  cases hmove with
  | notAnswered | unreadable | lost => exact .inl (ends_failed hends).2
  | notVerified | noAnalysis => exact .inl (ends_done.mp hends).2
  | markVerified _ _ hsome hfind =>
    obtain ⟨-, rfl⟩ := ends_done.mp hends
    exact .inr ⟨hid, _, _, hsome, hfind, rfl⟩

/-- A verification that goes on alone leaves the store as it was, or it marks a record. -/
lemma ends_verify {contractId : Value} (h : Ends st (Call.job s (.verify contractId)) x st') :
    st' = st ∨ VerifiesOn st contractId st' := by
  obtain ⟨-, hst⟩ | ⟨e, st₁, σ₁, hmove, hends⟩ := ends_job h
  · exact .inl hst
  · cases hmove with
    | verify hid => exact ends_verifying hid hends

end Endings

end SolidityAudit.Service
