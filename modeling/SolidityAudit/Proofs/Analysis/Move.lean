import SolidityAudit.Proofs.Analysis.Station

/-!
# Moves

`Move` lists what a turn can do at each station, to the store and to the call. The turns of the jobs
themselves are exactly these moves (`move_of_turn`, `turn_of_move`), so that nothing later has to
look into a job: what every move preserves holds in every run (`run_induction`).
-/

namespace SolidityAudit.Service

/-- What a turn does to the store and to the call. -/
inductive Move (s : Service) : Store → Station → Event → Store → Station → Prop
  | analyze {st : Store} {source filename : Value} {text : String}
    (h : sourceOf source = .ok text) :
    Move s st (.fresh (.analyze source filename)) .begins st (.summarizing filename text)
  | noSummary {st : Store} {filename : Value} {source : String} (f : Fault) :
    Move s st (.summarizing filename source) (.answered (.summarize source) (.error f))
      st (.failed f)
  | anchor {st : Store} {filename : Value} {source : String} (summary : Value)
    (now time : Instant) (hledger : s.explorerUrl.isSome = true) :
    Move s st (.summarizing filename source) (.answered (.summarize source) (.ok summary))
      st (.anchoring source (assessed st now time filename source summary))
  | keep {st : Store} {filename : Value} {source : String} (summary : Value)
    (now time : Instant) (hledger : s.explorerUrl = none) :
    Move s st (.summarizing filename source) (.answered (.summarize source) (.ok summary))
      (st.insert (assessed st now time filename source summary))
      (.analyzed source (assessed st now time filename source summary))
  | notAnchored {st : Store} {source : String} {a : StoredAnalysis} (f : Fault) :
    Move s st (.anchoring source a)
      (.answered (.anchor (documentOf a source) (memoOf a)) (.error f)) st (.failed f)
  | anchored {st : Store} {source : String} {a : StoredAnalysis} (fileId : String) :
    Move s st (.anchoring source a)
      (.answered (.anchor (documentOf a source) (memoOf a)) (.ok fileId))
      (st.insert { a with fileId := .str fileId })
      (.analyzed source { a with fileId := .str fileId })
  | deploy {st : Store} {analysisId source arguments : Value} {items : List Value}
    {explorerUrl : String} (hid : analysisId.truthy = true) (hsource : source.truthy = true)
    (hledger : s.explorerUrl = some explorerUrl)
    (hitems : (arguments.orElse (.list [])).iterate = .ok items) :
    Move s st (.fresh (.deploy analysisId source arguments)) .begins
      st (.deploying explorerUrl analysisId source items)
  | badArguments {st : Store} {analysisId source arguments : Value} {f : Fault}
    (hid : analysisId.truthy = true) (hsource : source.truthy = true)
    (hledger : s.explorerUrl.isSome = true)
    (hitems : (arguments.orElse (.list [])).iterate = .error f) :
    Move s st (.fresh (.deploy analysisId source arguments)) .begins st (.failed f)
  | notDeployed {st : Store} {explorerUrl : String} {analysisId source : Value}
    {items : List Value} (f : Fault) :
    Move s st (.deploying explorerUrl analysisId source items)
      (.answered (.deploy source (.list items)) (.error f)) st (.failed f)
  | record {st : Store} {explorerUrl : String} {analysisId source : Value} {items : List Value}
    (d : Deployment) (time : Instant) :
    Move s st (.deploying explorerUrl analysisId source items)
      (.answered (.deploy source (.list items)) (.ok d)) st
      (.recording explorerUrl analysisId d time)
  | notRecorded {st : Store} {explorerUrl : String} {analysisId : Value} {d : Deployment}
    {time : Instant} (f : Fault) :
    Move s st (.recording explorerUrl analysisId d time)
      (.answered (.anchor (s.deploymentDocument analysisId d time (linksOf explorerUrl d))
        (deploymentMemo analysisId)) (.error f)) st (.failed f)
  | noPlace {st : Store} {explorerUrl : String} {analysisId : Value} {d : Deployment}
    {time : Instant} {f : Fault} (fileId : String) (h : st.lookUp analysisId = .error f) :
    Move s st (.recording explorerUrl analysisId d time)
      (.answered (.anchor (s.deploymentDocument analysisId d time (linksOf explorerUrl d))
        (deploymentMemo analysisId)) (.ok fileId)) st (.failed f)
  | unknown {st : Store} {explorerUrl : String} {analysisId : Value} {d : Deployment}
    {time : Instant} (fileId : String) (h : st.lookUp analysisId = .ok none) :
    Move s st (.recording explorerUrl analysisId d time)
      (.answered (.anchor (s.deploymentDocument analysisId d time (linksOf explorerUrl d))
        (deploymentMemo analysisId)) (.ok fileId)) st (.deployed explorerUrl analysisId d fileId)
  | markDeployed {st : Store} {explorerUrl id : String} {d : Deployment} {time : Instant}
    {a : StoredAnalysis} (fileId : String) (h : st.find? id = some a) :
    Move s st (.recording explorerUrl (.str id) d time)
      (.answered (.anchor (s.deploymentDocument (.str id) d time (linksOf explorerUrl d))
        (deploymentMemo (.str id))) (.ok fileId))
      (st.put id (asDeployed a d)) (.deployed explorerUrl (.str id) d fileId)
  | verify {st : Store} {contractId : Value} (hid : contractId.truthy = true)
    (hledger : s.explorerUrl.isSome = true) :
    Move s st (.fresh (.verify contractId)) .begins st (.verifying contractId)
  | notAnswered {st : Store} {contractId : Value} (f : Fault) :
    Move s st (.verifying contractId) (.answered (.verify contractId) (.error f)) st (.failed f)
  | unreadable {st : Store} {contractId details : Value} {f : Fault}
    (h : details.get "verified" = .error f) :
    Move s st (.verifying contractId) (.answered (.verify contractId) (.ok details)) st (.failed f)
  | notVerified {st : Store} {contractId details v : Value} (h : details.get "verified" = .ok v)
    (hv : v.truthy = false) :
    Move s st (.verifying contractId) (.answered (.verify contractId) (.ok details))
      st (.verified contractId details false)
  | noAnalysis {st : Store} {contractId details v : Value} (h : details.get "verified" = .ok v)
    (hv : v.truthy = true) (hnone : st.findByContract contractId = none) :
    Move s st (.verifying contractId) (.answered (.verify contractId) (.ok details))
      st (.verified contractId details true)
  | lost {st : Store} {contractId details v : Value} {a : StoredAnalysis}
    (h : details.get "verified" = .ok v) (hv : v.truthy = true)
    (hsome : st.findByContract contractId = some a) (hlost : st.find? a.id = none) :
    Move s st (.verifying contractId) (.answered (.verify contractId) (.ok details))
      st (.failed (.report (.notFound (.str a.id))))
  | markVerified {st : Store} {contractId details v : Value} {a b : StoredAnalysis}
    (h : details.get "verified" = .ok v) (hv : v.truthy = true)
    (hsome : st.findByContract contractId = some a) (hfind : st.find? a.id = some b) :
    Move s st (.verifying contractId) (.answered (.verify contractId) (.ok details))
      (st.put a.id { b with status := .verified }) (.verified contractId details true)

/-! ## Turns are moves -/

section Turns

variable {s : Service} {st st' : Store} {r r' : Rest} {e : Event}

/-- What a turn does is one of the moves. -/
theorem move_of_turn {σ : Station} (hr : Resumes (σ.rest s) e r) (ht : Turn st r st' r') :
    ∃ σ', Move s st σ e st' σ' ∧ r' = σ'.rest s := by
  -- the station tells which piece of the job comes next, and the piece has a lemma about its turns
  cases σ with
  | fresh c =>
    cases c with
    | analyze source filename =>
      obtain ⟨⟨text, htext⟩, rfl, rfl⟩ := resumes_analyze.mp hr
      obtain ⟨rfl, rfl⟩ := (turn_analyze htext).mp ht
      exact ⟨_, .analyze htext, rfl⟩
    | deploy id source arguments =>
      obtain ⟨⟨hid, hsource, hledger⟩, rfl, rfl⟩ := resumes_deploy.mp hr
      obtain ⟨url, hurl⟩ := Option.isSome_iff_exists.mp hledger
      have hturn := (turn_deploy hid hsource hurl).mp ht
      split at hturn
      · obtain ⟨rfl, rfl⟩ := hturn
        exact ⟨_, .badArguments hid hsource hledger ‹_›, rfl⟩
      · obtain ⟨rfl, rfl⟩ := hturn
        exact ⟨_, .deploy hid hsource hurl ‹_›, rfl⟩
    | verify contractId =>
      obtain ⟨⟨hid, hledger⟩, rfl, rfl⟩ := resumes_verify.mp hr
      obtain ⟨rfl, rfl⟩ := (turn_verify hid hledger).mp ht
      exact ⟨_, .verify hid hledger, rfl⟩
  | summarizing filename source =>
    obtain ⟨x, rfl, rfl⟩ := (resumes_waiting rfl).mp hr
    have hturn := turn_assess.mp ht
    cases x with
    | error f =>
      obtain ⟨rfl, rfl⟩ := hturn
      exact ⟨_, .noSummary f, rfl⟩
    | ok summary =>
      obtain ⟨now, time, hkeep⟩ := hturn
      rw [turn_anchorAndKeep] at hkeep
      cases hledger : s.explorerUrl with
      | none =>
        rw [hledger] at hkeep
        obtain ⟨rfl, rfl⟩ := (turn_keep (s := s)).mp hkeep
        exact ⟨_, .keep summary now time hledger, rfl⟩
      | some url =>
        rw [hledger] at hkeep
        obtain ⟨rfl, rfl⟩ := hkeep
        exact ⟨_, .anchor summary now time (by simp [hledger]), rfl⟩
  | anchoring source a =>
    obtain ⟨x, rfl, rfl⟩ := (resumes_waiting rfl).mp hr
    have hturn := (turn_keepAnchored (s := s)).mp ht
    cases x with
    | error f =>
      obtain ⟨rfl, rfl⟩ := hturn
      exact ⟨_, .notAnchored f, rfl⟩
    | ok fileId =>
      obtain ⟨rfl, rfl⟩ := (turn_keep (s := s)).mp hturn
      exact ⟨_, .anchored fileId, rfl⟩
  | deploying url id source items =>
    obtain ⟨x, rfl, rfl⟩ := (resumes_waiting rfl).mp hr
    have hturn := turn_recordDeployment.mp ht
    cases x with
    | error f =>
      obtain ⟨rfl, rfl⟩ := hturn
      exact ⟨_, .notDeployed f, rfl⟩
    | ok d =>
      obtain ⟨time, rfl, rfl⟩ := hturn
      exact ⟨_, .record d time, rfl⟩
  | recording url id d time =>
    obtain ⟨x, rfl, rfl⟩ := (resumes_waiting rfl).mp hr
    have hturn := (turn_finishDeployment (s := s)).mp ht
    cases x with
    | error f =>
      obtain ⟨rfl, rfl⟩ := hturn
      exact ⟨_, .notRecorded f, rfl⟩
    | ok fileId =>
      cases hfound : st.lookUp id with
      | error f =>
        rw [hfound] at hturn
        obtain ⟨rfl, rfl⟩ := hturn
        exact ⟨_, .noPlace fileId hfound, rfl⟩
      | ok found =>
        rw [hfound] at hturn
        cases found with
        | none =>
          obtain ⟨rfl, rfl⟩ := hturn
          exact ⟨_, .unknown fileId hfound, rfl⟩
        | some a =>
          -- the one case in which the store changes
          obtain ⟨key, rfl, hkey⟩ := lookUp_eq_some hfound
          obtain ⟨rfl, rfl⟩ := hturn
          exact ⟨_, .markDeployed fileId hkey, rfl⟩
  | verifying contractId =>
    obtain ⟨x, rfl, rfl⟩ := (resumes_waiting rfl).mp hr
    have hturn := (turn_finishVerification (s := s)).mp ht
    cases x with
    | error f =>
      obtain ⟨rfl, rfl⟩ := hturn
      exact ⟨_, .notAnswered f, rfl⟩
    | ok details =>
      dsimp only at hturn
      split at hturn
      · obtain ⟨rfl, rfl⟩ := hturn
        exact ⟨_, .unreadable ‹_›, rfl⟩
      · split_ifs at hturn with hv
        · split at hturn
          · obtain ⟨rfl, rfl⟩ := hturn
            exact ⟨_, .noAnalysis ‹_› hv ‹_›, rfl⟩
          · split at hturn
            · obtain ⟨rfl, rfl⟩ := hturn
              exact ⟨_, .lost ‹_› hv ‹_› ‹_›, rfl⟩
            · obtain ⟨rfl, rfl⟩ := hturn
              exact ⟨_, .markVerified ‹_› hv ‹_› ‹_›, rfl⟩
        · obtain ⟨rfl, rfl⟩ := hturn
          exact ⟨_, .notVerified ‹_› (by simpa using hv), rfl⟩
  | analyzed | deployed | verified | failed => exact absurd hr not_resumes_done

/-- Every move is what a turn can do. -/
theorem turn_of_move {σ σ' : Station} (h : Move s st σ e st' σ') :
    ∃ r, Resumes (σ.rest s) e r ∧ Turn st r st' (σ'.rest s) := by
  cases h with
  | analyze h => exact ⟨_, resumes_analyze.mpr ⟨⟨_, h⟩, rfl, rfl⟩, (turn_analyze h).mpr ⟨rfl, rfl⟩⟩
  | noSummary f => exact ⟨_, .answered rfl _, turn_assess.mpr ⟨rfl, rfl⟩⟩
  | anchor summary now time hledger =>
    obtain ⟨url, hurl⟩ := Option.isSome_iff_exists.mp hledger
    refine ⟨_, .answered rfl _, turn_assess.mpr ⟨now, time, turn_anchorAndKeep.mpr ?_⟩⟩
    rw [hurl]
    exact ⟨rfl, rfl⟩
  | keep summary now time hledger =>
    refine ⟨_, .answered rfl _, turn_assess.mpr ⟨now, time, turn_anchorAndKeep.mpr ?_⟩⟩
    rw [hledger]
    exact (turn_keep (s := s)).mpr ⟨rfl, rfl⟩
  | notAnchored f => exact ⟨_, .answered rfl _, (turn_keepAnchored (s := s)).mpr ⟨rfl, rfl⟩⟩
  | anchored fileId =>
    exact ⟨_, .answered rfl _,
      (turn_keepAnchored (s := s)).mpr ((turn_keep (s := s)).mpr ⟨rfl, rfl⟩)⟩
  | deploy hid hsource hledger hitems =>
    refine ⟨_, resumes_deploy.mpr ⟨⟨hid, hsource, by simp [hledger]⟩, rfl, rfl⟩, ?_⟩
    refine (turn_deploy hid hsource hledger).mpr ?_
    rw [hitems]
    exact ⟨rfl, rfl⟩
  | badArguments hid hsource hledger hitems =>
    obtain ⟨url, hurl⟩ := Option.isSome_iff_exists.mp hledger
    refine ⟨_, resumes_deploy.mpr ⟨⟨hid, hsource, hledger⟩, rfl, rfl⟩, ?_⟩
    refine (turn_deploy hid hsource hurl).mpr ?_
    rw [hitems]
    exact ⟨rfl, rfl⟩
  | notDeployed f => exact ⟨_, .answered rfl _, turn_recordDeployment.mpr ⟨rfl, rfl⟩⟩
  | record d time => exact ⟨_, .answered rfl _, turn_recordDeployment.mpr ⟨time, rfl, rfl⟩⟩
  | notRecorded f =>
    exact ⟨_, .answered rfl _, (turn_finishDeployment (s := s)).mpr ⟨rfl, rfl⟩⟩
  | noPlace fileId h =>
    refine ⟨_, .answered rfl _, (turn_finishDeployment (s := s)).mpr ?_⟩
    rw [h]
    exact ⟨rfl, rfl⟩
  | unknown fileId h =>
    refine ⟨_, .answered rfl _, (turn_finishDeployment (s := s)).mpr ?_⟩
    rw [h]
    exact ⟨rfl, rfl⟩
  | @markDeployed _ id _ _ a fileId h =>
    have hfound : st.lookUp (.str id) = .ok (some a) := by
      simp [Store.lookUp, Value.text?, h]
    refine ⟨_, .answered rfl _, (turn_finishDeployment (s := s)).mpr ?_⟩
    rw [hfound]
    exact ⟨rfl, rfl⟩
  | verify hid hledger =>
    exact ⟨_, resumes_verify.mpr ⟨⟨hid, hledger⟩, rfl, rfl⟩,
      (turn_verify hid hledger).mpr ⟨rfl, rfl⟩⟩
  | notAnswered f =>
    exact ⟨_, .answered rfl _, (turn_finishVerification (s := s)).mpr ⟨rfl, rfl⟩⟩
  | unreadable h | notVerified h hv | noAnalysis h hv hnone | lost h hv hsome hlost
  | markVerified h hv hsome hfind =>
    refine ⟨_, .answered rfl _, (turn_finishVerification (s := s)).mpr ?_⟩
    -- the conditions of each move choose its branch
    simp_all

end Turns

/-! ## Runs of pools -/

/-- The pool whose calls stand at the stations. -/
def standing (s : Service) (st : Store) (stations : List Station) : Pool :=
  ⟨st, stations.map (Station.rest s)⟩

section Runs

variable {s : Service} {st : Store} {stations : List Station} {i : Nat} {e : Event}

lemma opening_eq_standing (calls : List Call) :
    opening s st calls = s.standing st (calls.map .fresh) := by
  rw [opening, standing, List.map_map]
  rfl

lemma getElem?_standing :
    (s.standing st stations).jobs[i]? = stations[i]?.map (Station.rest s) :=
  List.getElem?_map

lemma move_of_step {q : Pool} (h : Step (s.standing st stations) i e q) :
    ∃ st' σ σ', stations[i]? = some σ ∧ Move s st σ e st' σ' ∧
      q = s.standing st' (stations.set i σ') := by
  obtain ⟨hjob, hr, ht⟩ := h
  rw [getElem?_standing, Option.map_eq_some_iff] at hjob
  obtain ⟨σ, hσ, rfl⟩ := hjob
  obtain ⟨σ', hmove, rfl⟩ := move_of_turn hr ht
  refine ⟨_, σ, σ', hσ, hmove, ?_⟩
  rw [standing, standing, List.map_set]

lemma step_of_move {st' : Store} {σ σ' : Station} (hσ : stations[i]? = some σ)
    (h : Move s st σ e st' σ') :
    Step (s.standing st stations) i e (s.standing st' (stations.set i σ')) := by
  obtain ⟨r, hr, ht⟩ := turn_of_move h
  have hjob : (s.standing st stations).jobs[i]? = some (σ.rest s) := by
    rw [getElem?_standing, hσ, Option.map_some]
  have hstep := Step.turn hjob hr ht
  rwa [standing, ← List.map_set] at hstep

/-- What holds at the opening and is kept by every move holds in every run. -/
theorem run_induction {calls : List Call} {I : List Moment → Store → List Station → Prop}
    (hopen : I [] st (calls.map .fresh))
    (hmove : ∀ {past st stations i e st' σ σ'}, I past st stations → stations[i]? = some σ →
      Move s st σ e st' σ' →
        I (past ++ [⟨s.standing st stations, i, e⟩]) st' (stations.set i σ'))
    {past : List Moment} {p : Pool} (h : Run (opening s st calls) past p) :
    ∃ st' stations, p = s.standing st' stations ∧ I past st' stations := by
  induction h with
  | start => exact ⟨st, calls.map .fresh, opening_eq_standing calls, hopen⟩
  | step _ hstep ih =>
    obtain ⟨st', stations, rfl, hI⟩ := ih
    -- the calls of the pool stand at stations, so the step is a move of one of them
    obtain ⟨st'', σ, σ', hσ, hm, rfl⟩ := move_of_step hstep
    exact ⟨st'', stations.set _ σ', rfl, hmove hI hσ hm⟩

end Runs

end SolidityAudit.Service
