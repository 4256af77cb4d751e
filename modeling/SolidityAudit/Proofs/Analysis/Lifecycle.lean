import SolidityAudit.Proofs.Analysis.Deployment

/-!
# The life of a record

A record is analyzed, then deployed, then verified, and it may be deployed again at any time. Calls
that go on together may change it between any two turns of each other, yet in every state of every
run its status agrees with the ids that it carries and with what the ledger has said
(`lifecycle_of_run`). What carries the proof besides the store are the calls that wait with a
record or with a deployment in hand (`Station.InOrder`).
-/

namespace SolidityAudit

namespace Service

/-! ## Records and what the ledger has said -/

/-- The ledger has answered that a contract is on the network. -/
def Confirmed (past : List Moment) (contractId : Value) : Prop :=
  ∃ m ∈ past, ∃ details v, m.event = .answered (.verify contractId) (.ok details) ∧
    details.get "verified" = .ok v ∧ v.truthy = true

/-- The ledger has named every contract that it has deployed. -/
def Named (past : List Moment) : Prop :=
  ∀ m ∈ past, ∀ source arguments d, m.event = .answered (.deploy source arguments) (.ok d) →
    d.contractId ≠ .null

/-- The status of a record agrees with its ids and with the past. -/
structure InStep (past : List Moment) (a : StoredAnalysis) : Prop where
  contract : a.status = .analyzed ↔ a.contractId = .null
  transaction : a.status = .analyzed ↔ a.transactionId = .null
  /-- equality of ids leaves no choice for texts -/
  verified : a.status = .verified → ∃ contractId, Confirmed past contractId ∧
    a.contractId.same contractId = true ∧ ∀ id, a.contractId = .str id → contractId = .str id

section Records

variable {past later : List Moment} {a : StoredAnalysis}

lemma Confirmed.append {contractId : Value} (h : Confirmed past contractId) :
    Confirmed (past ++ later) contractId := by
  obtain ⟨m, hm, hanswer⟩ := h
  exact ⟨m, List.mem_append_left later hm, hanswer⟩

lemma InStep.append (h : InStep past a) : InStep (past ++ later) a where
  contract := h.contract
  transaction := h.transaction
  verified hstatus := by
    obtain ⟨contractId, hconfirmed, hsame⟩ := h.verified hstatus
    exact ⟨contractId, hconfirmed.append, hsame⟩

lemma inStep_of_analyzed (hstatus : a.status = .analyzed) (hcontract : a.contractId = .null)
    (htransaction : a.transactionId = .null) : InStep past a where
  contract := iff_of_true hstatus hcontract
  transaction := iff_of_true hstatus htransaction
  verified hverified := by simp [hstatus] at hverified

lemma inStep_asDeployed {d : Deployment} (hd : d.contractId ≠ .null) :
    InStep past (asDeployed a d) where
  contract := iff_of_false (by simp [asDeployed]) hd
  transaction := iff_of_false (by simp [asDeployed]) (by simp [asDeployed])
  verified hverified := by simp [asDeployed] at hverified

/-- A record of a contract that the ledger has confirmed may be marked as verified. -/
lemma InStep.verify (h : InStep past a) {contractId : Value} (hid : contractId.truthy = true)
    (hsame : a.contractId.same contractId = true) (hconfirmed : Confirmed later contractId) :
    InStep later { a with status := .verified } := by
  -- a contract is verified under an id, so the record carries one as well
  have hcontract : a.contractId ≠ .null := by
    intro hnull
    rw [hnull] at hsame
    rw [Value.eq_null_of_same hsame] at hid
    simp [Value.truthy] at hid
  have htransaction : a.transactionId ≠ .null :=
    fun hnull => hcontract (h.contract.mp (h.transaction.mpr hnull))
  refine ⟨iff_of_false (by simp) hcontract, iff_of_false (by simp) htransaction, fun _ => ?_⟩
  refine ⟨contractId, hconfirmed, hsame, ?_⟩
  intro id hstr
  rw [show a.contractId = .str id from hstr] at hsame
  exact Value.eq_of_str_same hsame

end Records

/-! ## Calls that wait -/

/-- What a call brings along: a new record is analyzed and carries no ids, a deployment has named
its contract, and a contract is verified under an id. -/
def Station.InOrder : Station → Prop
  | anchoring _ a => a.status = .analyzed ∧ a.contractId = .null ∧ a.transactionId = .null
  | recording _ _ d _ => d.contractId ≠ .null
  | verifying contractId => contractId.truthy = true
  | _ => True

/-- What holds of a store and of the stations of the calls after a run. -/
structure Orderly (past : List Moment) (st : Store) (stations : List Station) : Prop where
  nodup : st.ids.Nodup
  own : ∀ e ∈ st.entries, e.2.id = e.1
  inStep : ∀ e ∈ st.entries, InStep past e.2
  inOrder : ∀ σ ∈ stations, σ.InOrder

section Moves

variable {s : Service} {past : List Moment} {st st' : Store} {stations : List Station}
  {σ σ' : Station} {e : Event}

lemma orderly_opening (calls : List Call) : Orderly [] .empty (calls.map .fresh) where
  nodup := List.nodup_nil
  own e he := by simp [Store.empty] at he
  inStep e he := by simp [Store.empty] at he
  inOrder σ hσ := by
    obtain ⟨c, -, rfl⟩ := List.mem_map.mp hσ
    trivial

/-- The record that is found for a contract stands under its own id. -/
lemma Orderly.find?_of_findByContract (h : Orderly past st stations) {contractId : Value}
    {a : StoredAnalysis} (ha : st.findByContract contractId = some a) :
    st.find? a.id = some a ∧ InStep past a ∧ a.contractId.same contractId = true := by
  obtain ⟨e, he, rfl⟩ := List.mem_map.mp (List.mem_of_find?_eq_some ha)
  refine ⟨?_, h.inStep e he, by simpa using List.find?_some ha⟩
  rw [h.own e he]
  exact Store.find?_of_mem_entries h.nodup he

/-- A record may be put under its id when it is in step. -/
lemma Orderly.put (h : Orderly past st stations) {id : String} {a : StoredAnalysis}
    (hid : a.id = id) (ha : InStep past a) : Orderly past (st.put id a) stations where
  nodup := Store.nodup_ids_put h.nodup id a
  own e he := by
    rcases Store.mem_entries_put he with rfl | hold
    · exact hid
    · exact h.own e hold
  inStep e he := by
    rcases Store.mem_entries_put he with rfl | hold
    · exact ha
    · exact h.inStep e hold
  inOrder := h.inOrder

lemma Orderly.append (h : Orderly past st stations) (later : List Moment) :
    Orderly (past ++ later) st stations :=
  ⟨h.nodup, h.own, fun e he => (h.inStep e he).append, h.inOrder⟩

lemma Orderly.set (h : Orderly past st stations) (hσ' : σ'.InOrder) (k : Nat) :
    Orderly past st (stations.set k σ') where
  nodup := h.nodup
  own := h.own
  inStep := h.inStep
  inOrder τ hτ := by
    rcases List.mem_or_eq_of_mem_set hτ with hold | rfl
    · exact h.inOrder τ hold
    · exact hσ'

/-- What a call brings along stays in order as long as the ledger names its contracts. -/
lemma Move.inOrder (hm : Move s st σ e st' σ')
    (hnamed : ∀ source arguments d, e = .answered (.deploy source arguments) (.ok d) →
      d.contractId ≠ .null) : σ'.InOrder := by
  cases hm with
  | anchor => exact ⟨rfl, rfl, rfl⟩
  | record d time => exact hnamed _ _ d rfl
  | verify hid => exact hid
  | _ => trivial

/-- A move leaves the store orderly: a new record is analyzed, a deployed one carries the ids of its
deployment, and a verified one has been confirmed just now. -/
lemma Orderly.store (h : Orderly past st stations) (hσ : σ.InOrder) (hm : Move s st σ e st' σ')
    (p : Pool) (k : Nat) : Orderly (past ++ [⟨p, k, e⟩]) st' stations := by
  have hpast := h.append [⟨p, k, e⟩]
  cases hm with
  | keep => exact hpast.put rfl (inStep_of_analyzed rfl rfl rfl)
  | anchored =>
    obtain ⟨hstatus, hcontract, htransaction⟩ := hσ
    exact hpast.put rfl (inStep_of_analyzed hstatus hcontract htransaction)
  | markDeployed _ hfind =>
    exact hpast.put (h.own _ (Store.mem_entries_of_find? hfind)) (inStep_asDeployed hσ)
  | markVerified hget hv hsome hfind =>
    obtain ⟨ha, hstep, hsame⟩ := h.find?_of_findByContract hsome
    obtain rfl := Option.some.inj (ha.symm.trans hfind)
    refine hpast.put rfl (hstep.verify hσ hsame ?_)
    exact ⟨_, List.mem_append_right past (List.mem_singleton_self _), _, _, rfl, hget, hv⟩
  | _ => exact hpast

lemma Orderly.move (h : Orderly past st stations) {k : Nat} (hσ : stations[k]? = some σ)
    (hm : Move s st σ e st' σ') (hnamed : Named (past ++ [⟨s.standing st stations, k, e⟩])) :
    Orderly (past ++ [⟨s.standing st stations, k, e⟩]) st' (stations.set k σ') := by
  have hlast := hnamed _ (List.mem_append_right past (List.mem_singleton_self _))
  have hstore := h.store (h.inOrder σ (List.mem_of_getElem? hσ)) hm (s.standing st stations) k
  exact hstore.set (hm.inOrder hlast) k

end Moves

/-- In every state of a run the store and the calls are in order, as long as the ledger names its
contracts. -/
lemma orderly_of_run {s : Service} {calls : List Call} {past : List Moment} {p : Pool}
    (hrun : Run (opening s .empty calls) past p) (hnamed : Named past) :
    ∃ st stations, p = s.standing st stations ∧ Orderly past st stations := by
  obtain ⟨st, stations, hp, h⟩ := run_induction
    (I := fun past st stations => Named past → Orderly past st stations)
    (fun _ => orderly_opening calls)
    (fun ih hσ hmove hnamed =>
      (ih fun m hm => hnamed m (List.mem_append_left _ hm)).move hσ hmove hnamed) hrun
  exact ⟨st, stations, hp, h hnamed⟩

/-! ## Every state of every run -/

/-- The last turn of a verification that the ledger confirms: it returns. -/
lemma Orderly.returns {s : Service} {past : List Moment} {st st' : Store} {stations : List Station}
    {σ σ' : Station} {contractId details v : Value} (h : Orderly past st stations)
    (hm : Move s st σ (.answered (.verify contractId) (.ok details)) st' σ')
    (hget : details.get "verified" = .ok v) (hv : v.truthy = true) :
    σ' = .verified contractId details true := by
  cases hm with
  | unreadable hbad => simp [hget] at hbad
  | notVerified hget' hv' =>
    obtain rfl := Except.ok.inj (hget.symm.trans hget')
    simp [hv] at hv'
  | noAnalysis | markVerified => rfl
  | lost _ _ hsome hlost =>
    -- a record that is found for a contract is found under its id as well
    have hfind := (h.find?_of_findByContract hsome).1
    simp [hlost] at hfind

/-- In every state of a run of any calls, every record stands under its own id, its status agrees
with its ids and with what the ledger has said, and a contract for which there is a record can be
marked as verified; so a verification that the ledger confirms returns. -/
theorem lifecycle_of_run {s : Service} {calls : List Call} {past : List Moment} {p : Pool}
    (hrun : Run (opening s .empty calls) past p) (hnamed : Named past) :
    (∀ e ∈ p.store.entries, e.2.id = e.1 ∧ InStep past e.2) ∧
    (∀ contractId a, p.store.findByContract contractId = some a →
      ∃ b, (p.store.updateStatus (.str a.id) .verified []).2 = .ok b) ∧
    ∀ i contractId details v q,
      Step p i (.answered (.verify contractId) (.ok details)) q →
        details.get "verified" = .ok v → v.truthy = true →
          q.jobs[i]? = some (.done (.ok (verificationAnswer contractId true details))) := by
  obtain ⟨st, stations, rfl, h⟩ := orderly_of_run hrun hnamed
  refine ⟨fun e he => ⟨h.own e he, h.inStep e he⟩, ?_, ?_⟩
  · intro contractId a ha
    have hfind : st.find? a.id = some a := (h.find?_of_findByContract ha).1
    refine ⟨{ a with status := .verified }, ?_⟩
    show (st.updateStatus (.str a.id) .verified []).2 = _
    simp only [Store.updateStatus, Store.get, Store.lookUp, Value.text?, Option.bind_some, hfind]
    rfl
  · intro i contractId details v q hstep hget hv
    obtain ⟨st', σ, σ', hσ, hmove, rfl⟩ := move_of_step hstep
    obtain ⟨hi, -⟩ := List.getElem?_eq_some_iff.mp hσ
    rw [getElem?_standing, List.getElem?_set_self hi, Option.map_some, h.returns hmove hget hv]
    rfl

/-! ## One record from the first status to the last -/

/-- A run goes on with an answer that names its contract, if it is about a deployment. -/
lemma exists_run_step {start p q : Pool} {i : Nat} {e : Event}
    (h : ∃ past, Run start past p ∧ Named past) (hstep : Step p i e q)
    (he : ∀ source arguments d, e = .answered (.deploy source arguments) (.ok d) →
      d.contractId ≠ .null) : ∃ past, Run start past q ∧ Named past := by
  obtain ⟨past, hrun, hnamed⟩ := h
  refine ⟨past ++ [⟨p, i, e⟩], hrun.step hstep, ?_⟩
  intro m hm
  rcases List.mem_append.mp hm with hpast | hlast
  · exact hnamed m hpast
  · obtain rfl := List.mem_singleton.mp hlast
    exact he

/-- A source is analyzed, its contract is deployed and verified. -/
def lifeOfA : List Call :=
  [.analyze (.str "contract A \x7b\x7d") (.str "A.sol"),
    .deploy (.str "analysis-1700000000000") (.str "contract A \x7b\x7d") .null,
    .verify (.str "0x5")]

lemma run_lifeOfA :
    ∃ past p a, Run (opening ledgered .empty lifeOfA) past p ∧ Named past ∧
      ("analysis-1700000000000", a) ∈ p.store.entries ∧ a.status = .verified := by
  have h0 : ∃ past, Run (opening ledgered .empty lifeOfA) past
      (ledgered.standing .empty (lifeOfA.map .fresh)) ∧ Named past :=
    ⟨[], .start, fun m hm => absurd hm List.not_mem_nil⟩
  have hsource : sourceOf (.str "contract A \x7b\x7d") = .ok "contract A \x7b\x7d" :=
    sourceOf_str (by decide)
  have h1 := exists_run_step h0 (step_of_move (i := 0) rfl (.analyze hsource)) (by simp)
  have h2 := exists_run_step h1 (step_of_move (i := 0) rfl
    (.anchor .null 1700000000000 1700000000000 rfl)) (by simp)
  have h3 := exists_run_step h2 (step_of_move (i := 0) rfl (.anchored "0x01")) (by simp)
  have hid : (assessed .empty 1700000000000 1700000000000 (.str "A.sol") "contract A \x7b\x7d"
      .null).id = "analysis-1700000000000" := newId_empty
  -- nothing but its id matters of the record from here on
  generalize assessed .empty 1700000000000 1700000000000 _ _ _ = a at h3 hid
  have hfind : (Store.empty.insert { a with fileId := .str "0x01" }).find?
      "analysis-1700000000000" = some { a with fileId := .str "0x01" } := by
    rw [← hid]
    exact Store.find?_put_self ..
  have h4 := exists_run_step h3 (step_of_move (i := 1) rfl (.deploy rfl rfl rfl rfl)) (by simp)
  have h5 := exists_run_step h4 (step_of_move (i := 1) rfl (.record deploymentOfA 1700000000000))
    (by simp [deploymentOfA])
  have h6 := exists_run_step h5 (step_of_move (i := 1) rfl (.markDeployed "0x03" hfind)) (by simp)
  have h7 := exists_run_step h6 (step_of_move (i := 2) rfl (.verify rfl rfl)) (by simp)
  generalize hb : asDeployed { a with fileId := .str "0x01" } deploymentOfA = b at h7
  have hput : (Store.empty.insert { a with fileId := .str "0x01" }).put
      "analysis-1700000000000" b = ⟨[(b.id, b)]⟩ := by
    have hbid : b.id = "analysis-1700000000000" := by rw [← hb, ← hid]; rfl
    simp [Store.insert, Store.put, Store.putIn, Store.empty, hid, hbid]
  rw [hput] at h7
  have hfound : Store.findByContract ⟨[(b.id, b)]⟩ (.str "0x5") = some b := by
    rw [← hb]
    rfl
  have hown : Store.find? ⟨[(b.id, b)]⟩ b.id = some b := by simp [Store.find?]
  have hconfirmed : (Value.object [("verified", .bool true)]).get "verified" = .ok (.bool true) :=
    rfl
  obtain ⟨past, hrun, hnamed⟩ := exists_run_step h7 (step_of_move (i := 2) rfl
    (.markVerified hconfirmed rfl hfound hown)) (by simp)
  refine ⟨past, _, { b with status := .verified }, hrun, hnamed, ?_, rfl⟩
  rw [show "analysis-1700000000000" = b.id by rw [← hb, ← hid]; rfl]
  exact Store.mem_entries_of_find? (Store.find?_put_self ..)

/-- The record is verified, and the ledger has confirmed the contract that it names. -/
theorem lifeOfA_confirmed :
    ∃ past p a, Run (opening ledgered .empty lifeOfA) past p ∧ Named past ∧
      ("analysis-1700000000000", a) ∈ p.store.entries ∧ a.status = .verified ∧
      ∃ contractId, Confirmed past contractId ∧ a.contractId.same contractId = true := by
  obtain ⟨past, p, a, hrun, hnamed, ha, hstatus⟩ := run_lifeOfA
  obtain ⟨hrecords, -, -⟩ := lifecycle_of_run hrun hnamed
  obtain ⟨contractId, hconfirmed, hsame, -⟩ := (hrecords _ ha).2.verified hstatus
  exact ⟨past, p, a, hrun, hnamed, ha, hstatus, contractId, hconfirmed, hsame⟩

end Service

end SolidityAudit
