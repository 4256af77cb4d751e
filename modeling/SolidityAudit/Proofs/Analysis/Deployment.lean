import SolidityAudit.Proofs.Analysis.Move

/-!
# Deployments and their records

When a contract has been deployed, the deployment is anchored, and only then is the analysis marked
as deployed. So the call has one more turn, and it ends in one of two ways (`deployment_ends`): the
document is anchored and the record carries the deployment, or the fault of the ledger comes back
and the store stays as it was.
-/

namespace SolidityAudit.Service

namespace Station

/-- The id of the analysis whose contract a call deploys. -/
def analysisId? : Station → Option Value
  | fresh (.deploy id ..) | deploying _ id .. | recording _ id .. | deployed _ id .. => some id
  | _ => none

/-- The contract that a call has deployed. -/
def deployment? : Station → Option Deployment
  | recording _ _ d _ | deployed _ _ d _ => some d
  | _ => none

/-- Whether a call has failed. -/
def isFailed : Station → Bool
  | failed _ => true
  | _ => false

end Station

/-! ## What a move keeps -/

namespace Move

variable {s : Service} {st st' : Store} {σ σ' : Station} {e : Event}

lemma not_isFailed (h : Move s st σ e st' σ') : σ.isFailed = false := by
  cases h <;> rfl

lemma analysisId_kept (h : Move s st σ e st' σ') {id : Value} (hid : σ.analysisId? = some id) :
    σ'.analysisId? = some id ∨ σ'.isFailed = true := by
  cases h <;> simp_all [Station.analysisId?, Station.isFailed]

lemma deployment_kept (h : Move s st σ e st' σ') {d : Deployment} (hd : σ.deployment? = some d) :
    σ'.deployment? = some d ∨ σ'.isFailed = true := by
  cases h <;> simp_all [Station.deployment?, Station.isFailed]

lemma deployment_of_answer (h : Move s st σ e st' σ') {source arguments : Value} {d : Deployment}
    (he : e = .answered (.deploy source arguments) (.ok d)) : σ'.deployment? = some d := by
  cases h <;> simp_all [Station.deployment?]

/-- No analysis is ever lost from a store. -/
lemma contains_kept (h : Move s st σ e st' σ') {id : String} (hid : st.contains id = true) :
    st'.contains id = true := by
  cases h <;> simp [Store.insert, Store.contains_put, hid]

end Move

/-! ## Where the calls stand in a run -/

/-- What holds of the calls, the steps so far, the store, and the stations of the calls. -/
structure Followed (calls : List Call) (past : List Moment) (st : Store)
    (stations : List Station) : Prop where
  /-- a call that deploys keeps the id that it was given -/
  about : ∀ {i : Nat} {id source arguments}, calls[i]? = some (.deploy id source arguments) →
    ∃ σ, stations[i]? = some σ ∧ (σ.analysisId? = some id ∨ σ.isFailed = true)
  /-- a call that has deployed a contract keeps it -/
  deployed : ∀ {m source arguments d}, m ∈ past →
    m.event = .answered (.deploy source arguments) (.ok d) →
      ∃ σ, stations[m.place]? = some σ ∧ (σ.deployment? = some d ∨ σ.isFailed = true)
  present : ∀ {m id}, m ∈ past → m.pool.store.contains id = true → st.contains id = true

section Runs

variable {s : Service} {calls : List Call} {past : List Moment} {st st' : Store}
  {stations : List Station} {σ σ' : Station} {k : Nat} {e : Event}

lemma followed_opening : Followed calls [] st (calls.map .fresh) where
  about {i id source arguments} hcall := by
    refine ⟨.fresh (.deploy id source arguments), ?_, .inl rfl⟩
    rw [List.getElem?_map, hcall, Option.map_some]
  deployed hm := by simp at hm
  present hm := by simp at hm

/-- What a call does not lose in a move, it does not lose in a step of the pool. -/
lemma kept_set {P : Station → Prop} (hσ : stations[k]? = some σ) (hm : Move s st σ e st' σ')
    (hkept : P σ → P σ' ∨ σ'.isFailed = true) {i : Nat}
    (h : ∃ τ, stations[i]? = some τ ∧ (P τ ∨ τ.isFailed = true)) :
    ∃ τ, (stations.set k σ')[i]? = some τ ∧ (P τ ∨ τ.isFailed = true) := by
  obtain ⟨τ, hτ, hP⟩ := h
  obtain ⟨hk, -⟩ := List.getElem?_eq_some_iff.mp hσ
  by_cases hik : k = i
  · subst hik
    obtain rfl := Option.some.inj (hσ.symm.trans hτ)
    refine ⟨σ', List.getElem?_set_self hk, ?_⟩
    -- a call that moves has not failed before
    rcases hP with hP | hfailed
    · exact hkept hP
    · simp [hm.not_isFailed] at hfailed
  · exact ⟨τ, by rw [List.getElem?_set_ne hik, hτ], hP⟩

lemma Followed.move (h : Followed calls past st stations) (hσ : stations[k]? = some σ)
    (hm : Move s st σ e st' σ') :
    Followed calls (past ++ [⟨s.standing st stations, k, e⟩]) st' (stations.set k σ') where
  about hcall := kept_set hσ hm hm.analysisId_kept (h.about hcall)
  deployed {m source arguments d} hmem he := by
    rcases List.mem_append.mp hmem with hpast | hnow
    · exact kept_set hσ hm hm.deployment_kept (h.deployed hpast he)
    · obtain rfl := List.mem_singleton.mp hnow
      obtain ⟨hk, -⟩ := List.getElem?_eq_some_iff.mp hσ
      exact ⟨σ', List.getElem?_set_self hk, .inl (hm.deployment_of_answer he)⟩
  present {m id} hmem hid := by
    rcases List.mem_append.mp hmem with hpast | hnow
    · exact hm.contains_kept (h.present hpast hid)
    · obtain rfl := List.mem_singleton.mp hnow
      exact hm.contains_kept hid

end Runs

/-! ## How a deployment ends -/

/-- The record of an analysis carries a deployment. -/
def Carries (a : StoredAnalysis) (d : Deployment) : Prop :=
  a.status = .deployed ∧ a.contractId = d.contractId ∧ a.transactionId = .str d.transactionId

/-- The last turn of a call that has deployed a contract. -/
lemma move_of_recording {s : Service} {st st' : Store} {σ σ' : Station} {e : Event} {id : String}
    {d : Deployment} (hm : Move s st σ e st' σ') (hid : σ.analysisId? = some (.str id))
    (hd : σ.deployment? = some d) (hstore : st.contains id = true) :
    ∃ document memo, (∃ fileId url b, e = .answered (.anchor document memo) (.ok fileId) ∧
        σ'.rest s = .done (.ok (deploymentAnswer d fileId (linksOf url d))) ∧
          st' = st.put id b ∧ Carries b d) ∨
      ∃ f, e = .answered (.anchor document memo) (.error f) ∧ σ'.rest s = .done (.error f) ∧
        st' = st := by
  cases hm with
  | notRecorded f => exact ⟨_, _, .inr ⟨f, rfl, rfl, rfl⟩⟩
  | noPlace fileId h =>
    -- a text can be looked up
    obtain rfl := Option.some.inj hid
    simp [Store.lookUp] at h
  | unknown fileId h =>
    -- the analysis is in the store
    obtain rfl := Option.some.inj hid
    simp_all [Store.lookUp, Store.contains, Value.text?]
  | markDeployed fileId h =>
    obtain ⟨rfl⟩ := Value.str.inj (Option.some.inj hid)
    obtain rfl := Option.some.inj hd
    exact ⟨_, _, .inl ⟨fileId, _, _, rfl, rfl, rfl, rfl, rfl, rfl⟩⟩
  | _ => simp [Station.deployment?] at hd

/-- In any run of any calls, a call that has deployed a contract for an analysis that is in the
store has one more turn, with the answer about the deployment document. If the document is anchored,
the call returns, and the record carries the deployment; if not, the call fails, and the store stays
as it was. -/
theorem deployment_ends {s : Service} {start : Store} {calls : List Call} {past : List Moment}
    {p q : Pool} {m : Moment} {e : Event} {id : String}
    {source arguments source' arguments' : Value} {d : Deployment}
    (hrun : Run (opening s start calls) past p) (hm : m ∈ past)
    (hcall : calls[m.place]? = some (.deploy (.str id) source arguments))
    (hdeployed : m.event = .answered (.deploy source' arguments') (.ok d))
    (hid : m.pool.store.contains id = true) (hstep : Step p m.place e q) :
    ∃ document memo,
      (∃ fileId url b, e = .answered (.anchor document memo) (.ok fileId) ∧
        q.jobs[m.place]? = some (.done (.ok (deploymentAnswer d fileId (linksOf url d)))) ∧
          q.store = p.store.put id b ∧ q.store.find? id = some b ∧ Carries b d) ∨
      ∃ f, e = .answered (.anchor document memo) (.error f) ∧
        q.jobs[m.place]? = some (.done (.error f)) ∧ q.store = p.store := by
  obtain ⟨st, stations, rfl, h⟩ := run_induction followed_opening (fun h hσ hm => h.move hσ hm) hrun
  obtain ⟨st', σ, σ', hσ, hmove, rfl⟩ := move_of_step hstep
  have hjob : (s.standing st' (stations.set m.place σ')).jobs[m.place]? = some (σ'.rest s) := by
    obtain ⟨hk, -⟩ := List.getElem?_eq_some_iff.mp hσ
    rw [getElem?_standing, List.getElem?_set_self hk, Option.map_some]
  -- the call takes a turn, so it has not failed
  have hat {P : Station → Prop}
      (hP : ∃ τ, stations[m.place]? = some τ ∧ (P τ ∨ τ.isFailed = true)) : P σ := by
    obtain ⟨τ, hτ, hP⟩ := hP
    obtain rfl := Option.some.inj (hσ.symm.trans hτ)
    rcases hP with hP | hfailed
    · exact hP
    · simp [hmove.not_isFailed] at hfailed
  obtain ⟨document, memo, hend⟩ := move_of_recording hmove (hat (h.about hcall))
    (hat (h.deployed hm hdeployed)) (h.present hm hid)
  refine ⟨document, memo, ?_⟩
  rcases hend with ⟨fileId, url, b, he, hrest, rfl, hb⟩ | ⟨f, he, hrest, rfl⟩
  · left
    exact ⟨fileId, url, b, he, by rw [hjob, hrest], rfl, Store.find?_put_self st id b, hb⟩
  · right
    exact ⟨f, he, by rw [hjob, hrest], rfl⟩

/-! ## One analysis and its deployment -/

/-- A source is analyzed, and its contract is deployed. -/
def analyzeAndDeploy : List Call :=
  [.analyze (.str "contract A \x7b\x7d") (.str "A.sol"),
    .deploy (.str "analysis-1700000000000") (.str "contract A \x7b\x7d") .null]

/-- The deployment of the contract. -/
def deploymentOfA : Deployment := ⟨.str "0x5", "0x02", 9, "A"⟩

/-- The contract has been deployed, and the deployment is to be anchored. -/
lemma run_analyzeAndDeploy :
    ∃ past a, Run (opening ledgered .empty analyzeAndDeploy) past
        (ledgered.standing (Store.empty.insert a) [.analyzed "contract A \x7b\x7d" a,
          .recording "https://hashscan.io/testnet" (.str "analysis-1700000000000") deploymentOfA
            1700000000000]) ∧
      a.id = "analysis-1700000000000" ∧ a.status = .analyzed ∧
      ⟨ledgered.standing (Store.empty.insert a) [.analyzed "contract A \x7b\x7d" a,
        .deploying "https://hashscan.io/testnet" (.str "analysis-1700000000000")
          (.str "contract A \x7b\x7d") []], 1,
        .answered (.deploy (.str "contract A \x7b\x7d") (.list [])) (.ok deploymentOfA)⟩
        ∈ past := by
  have h0 : Run (opening ledgered .empty analyzeAndDeploy) []
      (ledgered.standing .empty (analyzeAndDeploy.map .fresh)) := .start
  have hA : sourceOf (.str "contract A \x7b\x7d") = .ok "contract A \x7b\x7d" :=
    sourceOf_str (by decide)
  have h1 := h0.step (step_of_move (i := 0) rfl (.analyze hA))
  have h2 := h1.step (step_of_move (i := 0) rfl (.anchor .null 1700000000000 1700000000000 rfl))
  have h3 := h2.step (step_of_move (i := 0) rfl (.anchored "0x01"))
  have h4 := h3.step (step_of_move (i := 1) rfl (.deploy rfl rfl rfl rfl))
  have h5 := h4.step (step_of_move (i := 1) rfl (.record deploymentOfA 1700000000000))
  exact ⟨_, _, h5, newId_empty, rfl, List.mem_append_right _ (List.mem_singleton_self _)⟩

/-- A contract may be deployed without its record being marked. -/
theorem analyzeAndDeploy_not_marked :
    ∃ past p m f, Run (opening ledgered .empty analyzeAndDeploy) past p ∧ m ∈ past ∧ m.place = 1 ∧
      m.event = .answered (.deploy (.str "contract A \x7b\x7d") (.list [])) (.ok deploymentOfA) ∧
      p.jobs[1]? = some (.done (.error f)) ∧
      ∃ a, p.store.find? "analysis-1700000000000" = some a ∧ a.status = .analyzed := by
  obtain ⟨past, a, hrun, hid, hstatus, hm⟩ := run_analyzeAndDeploy
  have hlast := hrun.step (step_of_move (i := 1) rfl
    (.notRecorded (LedgerClient.failure "Provenance transaction reverted" [])))
  refine ⟨_, _, _, _, hlast, List.mem_append_left _ hm, rfl, rfl, rfl, a, ?_, hstatus⟩
  rw [← hid]
  exact Store.find?_put_self ..

/-- When the deployment is anchored, the record carries it. -/
theorem analyzeAndDeploy_marked :
    ∃ past p a, Run (opening ledgered .empty analyzeAndDeploy) past p ∧
      p.store.find? "analysis-1700000000000" = some a ∧ Carries a deploymentOfA := by
  obtain ⟨past, a, hrun, hid, -, hm⟩ := run_analyzeAndDeploy
  have hfind : (Store.empty.insert a).find? "analysis-1700000000000" = some a := by
    rw [← hid]
    exact Store.find?_put_self ..
  have hrecording : [Station.analyzed "contract A \x7b\x7d" a,
      .recording "https://hashscan.io/testnet" (.str "analysis-1700000000000") deploymentOfA
        1700000000000][1]? = some (.recording "https://hashscan.io/testnet"
          (.str "analysis-1700000000000") deploymentOfA 1700000000000) := rfl
  have hstep := step_of_move hrecording (.markDeployed (s := ledgered) "0x03" hfind)
  have hpresent : (Store.empty.insert a).contains "analysis-1700000000000" = true := by
    rw [Store.contains, hfind]
    rfl
  obtain ⟨_, _, ⟨_, _, b, -, -, -, hb, hcarries⟩ | ⟨f, hf, -⟩⟩ :=
    deployment_ends hrun hm rfl rfl hpresent hstep
  · exact ⟨_, _, b, hrun.step hstep, hb, hcarries⟩
  · simp at hf

end SolidityAudit.Service
