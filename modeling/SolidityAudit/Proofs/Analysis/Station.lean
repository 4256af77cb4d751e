import SolidityAudit.Proofs.Analysis.Pool

/-!
# Where a call stands

Between two of its turns a call stands at one of a few stations: it waits for the summary, for the
ledger, or it has ended. For each piece of a job there is a lemma about its turns: what they do to
the store, and at which station they leave the call.
-/

namespace SolidityAudit.Service

/-- Where a call stands. -/
inductive Station
  | fresh (c : Call)
  | summarizing (filename : Value) (source : String)
  | anchoring (source : String) (a : StoredAnalysis)
  | analyzed (source : String) (a : StoredAnalysis)
  | deploying (explorerUrl : String) (analysisId source : Value) (arguments : List Value)
  | recording (explorerUrl : String) (analysisId : Value) (d : Deployment) (time : Instant)
  | deployed (explorerUrl : String) (analysisId : Value) (d : Deployment) (fileId : String)
  | verifying (contractId : Value)
  | verified (contractId details : Value) (found : Bool)
  | failed (f : Fault)

/-- The facts that an analysis of a source goes by. -/
abbrev factsOf (source : String) : ContractFacts := ContractFacts.parseOrFallback (some source)

/-- What is left of a call at a station. -/
def Station.rest (s : Service) : Station → Rest
  | fresh c => c.job s
  | summarizing filename source =>
    .ask (.summarize source) fun x => (s.assess filename source (factsOf source) x).run
  | anchoring source a =>
    .ask (.anchor (documentOf a source) (memoOf a)) fun x => (keepAnchored a source x).run
  | analyzed source a => .done (.ok (analysisAnswer a (GasReport.ofSource source)))
  | deploying explorerUrl analysisId source arguments =>
    .ask (.deploy source (.list arguments)) fun x =>
      (s.recordDeployment explorerUrl analysisId x).run
  | recording explorerUrl analysisId d time =>
    .ask (.anchor (s.deploymentDocument analysisId d time (linksOf explorerUrl d))
      (deploymentMemo analysisId)) fun x =>
        (finishDeployment analysisId d (linksOf explorerUrl d) x).run
  | deployed explorerUrl _ d fileId =>
    .done (.ok (deploymentAnswer d fileId (linksOf explorerUrl d)))
  | verifying contractId => .ask (.verify contractId) fun x => (finishVerification contractId x).run
  | verified contractId details found => .done (.ok (verificationAnswer contractId found details))
  | failed f => .done (.error f)

/-- The analysis of a source that gets its id from a store at an instant. -/
def assessed (st : Store) (now time : Instant) (filename : Value) (source : String)
    (summary : Value) : StoredAnalysis :=
  newAnalysis (newId st (numberOf now)) time filename (factsOf source)
    (audit source (factsOf source)) summary

/-- A record after its contract has been deployed. -/
def asDeployed (a : StoredAnalysis) (d : Deployment) : StoredAnalysis :=
  { a with
    status := .deployed
    contractId := d.contractId
    transactionId := .str d.transactionId }

/-! ## The turns of each piece -/

section Turns

variable {s : Service} {st st' : Store} {r : Rest}

/-- An analysis that is kept is stored under its id. -/
lemma turn_keep {a : StoredAnalysis} {source : String} :
    Turn st (keep a source).run st' r ↔
      st' = st.insert a ∧ r = (Station.analyzed source a).rest s := by
  rw [keep, turn_bind_load, turn_bind_save, turn_bind_note, turn_bind_note]
  exact turn_done

lemma turn_keepAnchored {a : StoredAnalysis} {source : String} {x : Except Fault String} :
    Turn st (keepAnchored a source x).run st' r ↔
      match x with
      | .ok fileId => Turn st (keep { a with fileId := .str fileId } source).run st' r
      | .error f => st' = st ∧ r = (Station.failed f).rest s := by
  rw [keepAnchored, turn_bind_settle]
  cases x with
  | ok | error => rfl

lemma turn_anchorAndKeep {a : StoredAnalysis} {source : String} :
    Turn st (s.anchorAndKeep a source).run st' r ↔
      match s.explorerUrl with
      | some _ => st' = st ∧ r = (Station.anchoring source a).rest s
      | none => Turn st (keep a source).run st' r := by
  rw [anchorAndKeep]
  cases s.explorerUrl with
  | some url => exact turn_bind_waiting rfl
  | none => rfl

/-- The id of an analysis is a free one of the store as it is when the summary comes. -/
lemma turn_assess {filename : Value} {source : String} {x : Except Fault Value} :
    Turn st (s.assess filename source (factsOf source) x).run st' r ↔
      match x with
      | .ok summary => ∃ now time, Turn st
          (s.anchorAndKeep (assessed st now time filename source summary) source).run st' r
      | .error f => st' = st ∧ r = (Station.failed f).rest s := by
  rw [assess, turn_bind_note, turn_bind_settle]
  cases x with
  | error => rfl
  | ok =>
    dsimp only
    rw [turn_bind_load, turn_bind_now]
    exact exists_congr fun now => turn_bind_now

/-- Reading a source may leave a note, and gives its facts. -/
lemma turn_bind_read {source : String} {k : ContractFacts → Job Value} :
    Turn st (read source >>= k).run st' r ↔ Turn st (k (factsOf source)).run st' r := by
  rw [read]
  cases ContractFacts.parseNotice (some source) with
  | some notice => exact turn_log
  | none => rfl

/-- A source that is not blank can be analyzed. -/
lemma sourceOf_str {text : String} (h : Text.trim text ≠ "") :
    sourceOf (.str text) = .ok text := by
  rw [sourceOf, if_neg h]

lemma turn_analyze {source filename : Value} {text : String} (h : sourceOf source = .ok text) :
    Turn st (s.analyze source filename).run st' r ↔
      st' = st ∧ r = (Station.summarizing filename text).rest s := by
  rw [analyze, turn_bind_settle, h]
  dsimp only
  rw [turn_bind_note, turn_bind_read]
  exact turn_bind_waiting rfl

/-- A record that is found has been looked for under a text. -/
lemma lookUp_eq_some {id : Value} {a : StoredAnalysis} (h : st.lookUp id = .ok (some a)) :
    ∃ key, id = .str key ∧ st.find? key = some a := by
  cases id with
  | str key => exact ⟨key, rfl, by simpa [Store.lookUp, Value.text?] using h⟩
  | _ => simp [Store.lookUp, Value.text?] at h

lemma updateStatus_deployed {id : String} {a : StoredAnalysis} {d : Deployment}
    (h : st.find? id = some a) :
    st.updateStatus (.str id) .deployed
        [("contract_id", d.contractId), ("transaction_id", .str d.transactionId)] =
      (st.put id (asDeployed a d), .ok (asDeployed a d)) := by
  simp only [Store.updateStatus, Store.get, Store.lookUp, Value.text?, Option.bind_some, h]
  rfl

/-- The record under the id is marked as deployed, if there is one. -/
lemma turn_bind_markDeployed {id : Value} {d : Deployment} {k : Unit → Job Value} :
    Turn st (markDeployed id d >>= k).run st' r ↔
      match st.lookUp id with
      | .ok (some a) => Turn (st.put (id.text?.getD "") (asDeployed a d)) (k ()).run st' r
      | .ok none => Turn st (k ()).run st' r
      | .error f => st' = st ∧ r = (Station.failed f).rest s := by
  rw [markDeployed, bind_assoc, turn_bind_load, bind_assoc, turn_bind_settle]
  cases h : st.lookUp id with
  | error => rfl
  | ok found =>
    cases found with
    | none => exact turn_bind_note
    | some a =>
      -- a record is only ever found under a text, so the id is one
      obtain ⟨key, rfl, hkey⟩ := lookUp_eq_some h
      dsimp only
      rw [updateStatus_deployed hkey, bind_assoc, turn_bind_save]
      rfl

lemma turn_finishDeployment {explorerUrl : String} {id : Value} {d : Deployment}
    {x : Except Fault String} :
    Turn st (finishDeployment id d (linksOf explorerUrl d) x).run st' r ↔
      match x with
      | .error f => st' = st ∧ r = (Station.failed f).rest s
      | .ok fileId =>
        match st.lookUp id with
        | .ok (some a) => st' = st.put (id.text?.getD "") (asDeployed a d) ∧
            r = (Station.deployed explorerUrl id d fileId).rest s
        | .ok none => st' = st ∧ r = (Station.deployed explorerUrl id d fileId).rest s
        | .error f => st' = st ∧ r = (Station.failed f).rest s := by
  rw [finishDeployment, turn_bind_settle]
  cases x with
  | error => rfl
  | ok fileId =>
    refine (turn_bind_markDeployed (s := s)).trans ?_
    dsimp only
    cases st.lookUp id with
    | error => rfl
    | ok found =>
      cases found with
      | none => exact turn_done
      | some => exact turn_done

lemma turn_recordDeployment {explorerUrl : String} {id : Value} {x : Except Fault Deployment} :
    Turn st (s.recordDeployment explorerUrl id x).run st' r ↔
      match x with
      | .error f => st' = st ∧ r = (Station.failed f).rest s
      | .ok d => ∃ time, st' = st ∧ r = (Station.recording explorerUrl id d time).rest s := by
  rw [recordDeployment, turn_bind_settle]
  cases x with
  | error => rfl
  | ok d =>
    dsimp only
    rw [turn_bind_now]
    exact exists_congr fun time => turn_bind_waiting rfl

lemma turn_deploy {id source arguments : Value} {explorerUrl : String} (hid : id.truthy = true)
    (hsource : source.truthy = true) (hledger : s.explorerUrl = some explorerUrl) :
    Turn st (s.deploy id source arguments).run st' r ↔
      match (arguments.orElse (.list [])).iterate with
      | .error f => st' = st ∧ r = (Station.failed f).rest s
      | .ok items =>
        st' = st ∧ r = (Station.deploying explorerUrl id source items).rest s := by
  simp only [deploy, hid, hsource, requireLedger, hledger, Bool.not_true, Bool.false_eq_true,
    if_false]
  -- the ledger is settled first, the arguments after the entry in the log
  rw [turn_bind_settle]
  dsimp only
  rw [turn_bind_note, turn_bind_settle]
  cases (arguments.orElse (.list [])).iterate with
  | error => rfl
  | ok items => exact turn_bind_waiting rfl

/-- The first record with the contract id is marked as verified, if there is one. -/
lemma turn_bind_markVerified {contractId : Value} {k : Unit → Job Value} :
    Turn st (markVerified contractId >>= k).run st' r ↔
      match st.findByContract contractId with
      | none => Turn st (k ()).run st' r
      | some a =>
        match st.find? a.id with
        | none => st' = st ∧ r = (Station.failed (.report (.notFound (.str a.id)))).rest s
        | some b => Turn (st.put a.id { b with status := .verified }) (k ()).run st' r := by
  rw [markVerified, bind_assoc, turn_bind_load]
  cases st.findByContract contractId with
  | none => rfl
  | some a =>
    dsimp only
    rw [bind_assoc, turn_bind_save]
    cases h : st.find? a.id with
    | none =>
      simp only [Store.updateStatus, Store.get, Store.lookUp, Value.text?, Option.bind_some, h]
      exact turn_done
    | some b =>
      simp only [Store.updateStatus, Store.get, Store.lookUp, Value.text?, Option.bind_some, h]
      rfl

lemma turn_finishVerification {contractId : Value} {x : Except Fault Value} :
    Turn st (finishVerification contractId x).run st' r ↔
      match x with
      | .error f => st' = st ∧ r = (Station.failed f).rest s
      | .ok details =>
        match details.get "verified" with
        | .error f => st' = st ∧ r = (Station.failed f).rest s
        | .ok v =>
          if v.truthy then
            match st.findByContract contractId with
            | none => st' = st ∧ r = (Station.verified contractId details true).rest s
            | some a =>
              match st.find? a.id with
              | none => st' = st ∧ r = (Station.failed (.report (.notFound (.str a.id)))).rest s
              | some b => st' = st.put a.id { b with status := .verified } ∧
                  r = (Station.verified contractId details true).rest s
          else st' = st ∧ r = (Station.verified contractId details false).rest s := by
  rw [finishVerification, turn_bind_settle]
  cases x with
  | error => rfl
  | ok details =>
    dsimp only
    rw [turn_bind_settle]
    cases details.get "verified" with
    | error => rfl
    | ok v =>
      cases hv : v.truthy with
      | false =>
        simp only [hv, Bool.false_eq_true, if_false]
        exact turn_done
      | true =>
        simp only [hv, if_true]
        rw [turn_bind_markVerified (s := s)]
        cases st.findByContract contractId with
        | none => exact turn_done
        | some a =>
          dsimp only
          cases st.find? a.id with
          | none => rfl
          | some b => exact turn_done

lemma turn_verify {contractId : Value} (hid : contractId.truthy = true)
    (hledger : s.explorerUrl.isSome = true) :
    Turn st (s.verify contractId).run st' r ↔
      st' = st ∧ r = (Station.verifying contractId).rest s := by
  obtain ⟨url, hurl⟩ := Option.isSome_iff_exists.mp hledger
  simp only [verify, hid, requireLedger, hurl, Bool.not_true, Bool.false_eq_true, if_false]
  rw [turn_bind_settle]
  dsimp only
  rw [turn_bind_note]
  exact turn_bind_waiting rfl

end Turns

/-! ## How a call begins -/

section Beginnings

variable {s : Service} {r : Rest} {e : Event}

/-- A job that starts with an entry in the log may begin. -/
lemma resumes_note {job : Job Value} {level : Outside.Level} {text : String}
    {k : Unit → Job Value} (hjob : job = note level text >>= k) :
    Resumes job.run e r ↔ e = .begins ∧ r = job.run := by
  subst hjob
  exact resumes_at_once rfl

lemma resumes_analyze {source filename : Value} :
    Resumes (s.analyze source filename).run e r ↔
      (∃ text, sourceOf source = .ok text) ∧ e = .begins ∧ r = (s.analyze source filename).run := by
  cases h : sourceOf source with
  | error f =>
    have hjob : (s.analyze source filename).run = .done (.error f) := by rw [analyze, h]; rfl
    simp [hjob, not_resumes_done]
  | ok text =>
    have hjob : ∃ k, s.analyze source filename =
        note .info ("Analyzing contract: " ++ filename.display) >>= k := by
      rw [analyze, h]
      exact ⟨_, rfl⟩
    obtain ⟨k, hk⟩ := hjob
    simp [resumes_note hk]

lemma resumes_deploy {id source arguments : Value} :
    Resumes (s.deploy id source arguments).run e r ↔
      (id.truthy = true ∧ source.truthy = true ∧ s.explorerUrl.isSome = true) ∧
        e = .begins ∧ r = (s.deploy id source arguments).run := by
  -- a call that is refused has ended before its first turn
  have hended {f : Fault} (h : (s.deploy id source arguments).run = .done (.error f)) :
      ¬ Resumes (s.deploy id source arguments).run e r := by
    rw [h]
    exact not_resumes_done
  cases hid : id.truthy with
  | false => simpa [hid] using hended (by rw [deploy, hid]; rfl)
  | true =>
    cases hsource : source.truthy with
    | false => simpa [hsource] using hended (by rw [deploy, hid, hsource]; rfl)
    | true =>
      cases hledger : s.explorerUrl with
      | none =>
        simpa [hledger] using
          hended (by rw [deploy, hid, hsource, requireLedger, hledger]; rfl)
      | some url =>
        have hjob : ∃ k, s.deploy id source arguments =
            note .info ("Deploying contract for analysis: " ++ id.display) >>= k := by
          rw [deploy, hid, hsource, requireLedger, hledger]
          exact ⟨_, rfl⟩
        obtain ⟨k, hk⟩ := hjob
        simp [resumes_note hk]

lemma resumes_verify {contractId : Value} :
    Resumes (s.verify contractId).run e r ↔
      (contractId.truthy = true ∧ s.explorerUrl.isSome = true) ∧
        e = .begins ∧ r = (s.verify contractId).run := by
  have hended {f : Fault} (h : (s.verify contractId).run = .done (.error f)) :
      ¬ Resumes (s.verify contractId).run e r := by
    rw [h]
    exact not_resumes_done
  cases hid : contractId.truthy with
  | false => simpa [hid] using hended (by rw [verify, hid]; rfl)
  | true =>
    cases hledger : s.explorerUrl with
    | none => simpa [hledger] using hended (by rw [verify, hid, requireLedger, hledger]; rfl)
    | some url =>
      have hjob : ∃ k, s.verify contractId =
          note .info ("Verifying contract: " ++ contractId.display) >>= k := by
        rw [verify, hid, requireLedger, hledger]
        exact ⟨_, rfl⟩
      obtain ⟨k, hk⟩ := hjob
      simp [resumes_note hk]

end Beginnings

end SolidityAudit.Service
