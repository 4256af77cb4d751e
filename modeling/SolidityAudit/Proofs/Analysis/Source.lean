import Mathlib.Data.List.Induction
import SolidityAudit.Proofs.Analysis.Lifecycle

/-!
# The sources behind a record

A record holds no source. What it tells is about the source that was analyzed under its id, and what
the ledger is asked to deploy is the source that the deploying call was given. In every state of
every run the two can be traced back for a record that is marked as deployed or verified
(`sources_of_record`), and they are the same only if the callers have seen to it: nothing compares
them (`otherSource_deployed`).
-/

namespace SolidityAudit.Service

/-! ## What the ledger is asked to deploy -/

/-- In this step a call for an analysis asks the ledger to deploy a source. -/
def Passes (calls : List Call) (m : Moment) (id : String) (source : Value) : Prop :=
  (∃ given arguments, calls[m.place]? = some (.deploy (.str id) given arguments)) ∧
    ∃ q items next, Step m.pool m.place m.event q ∧
      q.jobs[m.place]? = some (.ask (.deploy source items) next)

/-- This step is the last one in which the ledger is asked to deploy a source for the analysis. -/
def PassesLast (calls : List Call) (past : List Moment) (m : Moment) (id : String)
    (source : Value) : Prop :=
  ∃ earlier later, past = earlier ++ m :: later ∧ Passes calls m id source ∧
    ∀ n ∈ later, ∀ other, ¬ Passes calls n id other

/-- The ledger has been asked to deploy a source for the analysis. -/
def Passed (calls : List Call) (past : List Moment) (id : String) : Prop :=
  ∃ m ∈ past, ∃ source, Passes calls m id source

section Passing

variable {calls : List Call} {past later : List Moment} {id : String}

lemma Passed.append (h : Passed calls past id) : Passed calls (past ++ later) id := by
  obtain ⟨m, hm, hpasses⟩ := h
  exact ⟨m, List.mem_append_left later hm, hpasses⟩

/-- If the ledger has been asked, there is a last time that it has. -/
lemma Passed.last (h : Passed calls past id) : ∃ m source, PassesLast calls past m id source := by
  obtain ⟨m, hm, source, hpasses⟩ := h
  induction past using List.reverseRecOn with
  | nil => cases hm
  | append_singleton past last ih =>
    by_cases hlast : ∃ source, Passes calls last id source
    · obtain ⟨source, hpasses⟩ := hlast
      exact ⟨last, source, past, [], rfl, hpasses, by simp⟩
    · have hpast : m ∈ past := by
        rcases List.mem_append.mp hm with hpast | hnow
        · exact hpast
        · obtain rfl := List.mem_singleton.mp hnow
          exact absurd ⟨source, hpasses⟩ hlast
      obtain ⟨n, source, earlier, later, rfl, hn, hnone⟩ := ih hpast
      refine ⟨n, source, earlier, later ++ [last], by simp, hn, ?_⟩
      intro k hk other hother
      rcases List.mem_append.mp hk with hk | hk
      · exact hnone k hk other hother
      · obtain rfl := List.mem_singleton.mp hk
        exact hlast ⟨other, hother⟩

end Passing

/-! ## What a call brings along -/

/-- The score and the report of a record are those of a text. -/
def Describes (a : StoredAnalysis) (text : String) : Prop :=
  a.riskScore = (audit text (factsOf text)).riskScore ∧
    a.securityReport = (audit text (factsOf text)).toValue

/-- The record of a call for a text: it has the file name that the call was given, the time of an
instant, and what the text tells. -/
def RecordOf (call : Call) (text : String) (a : StoredAnalysis) : Prop :=
  call = .analyze (.str text) a.filename ∧ (∃ time : Instant, a.timestamp = .str time.text) ∧
    Describes a text

/-- In this step a call stores a record under its id. -/
def Stores (m : Moment) (a : StoredAnalysis) : Prop :=
  ∃ q, Step m.pool m.place m.event q ∧ q.store = m.pool.store.insert a

namespace Station

/-- What a station tells of the call that stands there. -/
def Of : Station → Call → Prop
  | fresh c, call => call = c
  | summarizing filename text, call => call = .analyze (.str text) filename
  | anchoring text a, call => RecordOf call text a ∧ a.status = .analyzed ∧ a.contractId = .null
  | analyzed text a, call => RecordOf call text a
  | deploying _ id source _, call => ∃ arguments, call = .deploy id source arguments
  | recording _ id _ _, call | deployed _ id _ _, call =>
    ∃ source arguments, call = .deploy id source arguments
  | verifying contractId, _ => contractId.truthy = true
  | verified .., _ | failed _, _ => True

/-- The id of the analysis for which a call has asked the ledger to deploy a source. -/
def asked? : Station → Option Value
  | deploying _ id .. | recording _ id .. | deployed _ id .. => some id
  | _ => none

end Station

lemma eq_str_of_sourceOf {source : Value} {text : String} (h : sourceOf source = .ok text) :
    source = .str text := by
  unfold sourceOf at h
  split at h
  · split_ifs at h
    rw [Except.ok.inj h]
  · split_ifs at h

namespace Move

variable {s : Service} {st st' : Store} {σ σ' : Station} {e : Event} {c : Call}

lemma of (h : Move s st σ e st' σ') (hc : σ.Of c) : σ'.Of c := by
  cases h with
  | analyze hsource =>
    rw [eq_str_of_sourceOf hsource] at hc
    exact hc
  | anchor summary now time => exact ⟨⟨hc, ⟨time, rfl⟩, rfl, rfl⟩, rfl, rfl⟩
  | keep summary now time => exact ⟨hc, ⟨time, rfl⟩, rfl, rfl⟩
  | anchored => exact hc.1
  | deploy => exact ⟨_, hc⟩
  | record =>
    obtain ⟨arguments, hc⟩ := hc
    exact ⟨_, arguments, hc⟩
  | unknown | markDeployed => exact hc
  | verify hid => exact hid
  | _ => trivial

/-- A call that has asked the ledger has done so before, or asks in this step for what it was
given. -/
lemma asked (h : Move s st σ e st' σ') {id : Value} (hid : σ'.asked? = some id) :
    σ.asked? = some id ∨ ∃ source arguments url items,
      σ = .fresh (.deploy id source arguments) ∧ σ' = .deploying url id source items := by
  cases h with
  | deploy =>
    obtain rfl := Option.some.inj hid
    exact .inr ⟨_, _, _, _, rfl, rfl⟩
  | record | unknown | markDeployed => exact .inl hid
  | _ => cases hid

/-- Only a call that begins comes to ask the ledger, for what it was given. -/
lemma fresh_of_deploying {source items : Value} {next : Answer (.deploy source items) → Rest}
    (h : Move s st σ e st' σ') (hrest : σ'.rest s = .ask (.deploy source items) next) :
    ∃ id arguments, σ = .fresh (.deploy id source arguments) := by
  cases h with
  | deploy =>
    obtain ⟨hq, -⟩ := Script.ask.inj hrest
    obtain ⟨rfl, -⟩ := Request.deploy.inj hq
    exact ⟨_, _, rfl⟩
  | _ => cases hrest

end Move

/-! ## What a record brings along -/

/-- A record as it was at first, with the status and the ids that another one has. -/
def asMarked (b a : StoredAnalysis) : StoredAnalysis :=
  { b with status := a.status, contractId := a.contractId, transactionId := a.transactionId }

/-- A record and what it goes back to: the call that has stored it as it was at first and returned
it, and, once its contract has been deployed, a request to the ledger. -/
structure Traced (calls : List Call) (past : List Moment) (stations : List Station) (id : String)
    (a : StoredAnalysis) : Prop where
  own : a.id = id
  analysis : ∃ (i : Nat) (text : String) (b : StoredAnalysis),
    stations[i]? = some (.analyzed text b) ∧ a = asMarked b a ∧ ∃ m ∈ past, m.place = i ∧ Stores m b
  passed : a.status ≠ .analyzed ∨ a.contractId ≠ .null → Passed calls past id

/-- What holds of the calls, the steps so far, the store, and the stations of the calls. -/
structure Sourced (calls : List Call) (past : List Moment) (st : Store)
    (stations : List Station) : Prop where
  nodup : st.ids.Nodup
  of : ∀ {i : Nat} {σ}, stations[i]? = some σ → ∃ c, calls[i]? = some c ∧ σ.Of c
  asked : ∀ {σ id}, σ ∈ stations → σ.asked? = some (.str id) → Passed calls past id
  given : ∀ {m id source}, m ∈ past → Passes calls m id source →
    ∃ arguments, calls[m.place]? = some (.deploy (.str id) source arguments)
  traced : ∀ e ∈ st.entries, Traced calls past stations e.1 e.2

section Records

variable {s : Service} {calls : List Call} {past later : List Moment} {st st' : Store}
  {stations : List Station} {σ σ' : Station} {k : Nat} {e : Event} {id : String}
  {a : StoredAnalysis}

/-- A call that has returned does not move any more. -/
lemma analyzed_set (hσ : stations[k]? = some σ) (hm : Move s st σ e st' σ') {i : Nat}
    {text : String} {b : StoredAnalysis} (h : stations[i]? = some (.analyzed text b)) :
    (stations.set k σ')[i]? = some (.analyzed text b) := by
  by_cases hik : k = i
  · subst hik
    obtain rfl := Option.some.inj (hσ.symm.trans h)
    cases hm
  · rw [List.getElem?_set_ne hik, h]

lemma Traced.move (h : Traced calls past stations id a) (hσ : stations[k]? = some σ)
    (hm : Move s st σ e st' σ') : Traced calls (past ++ later) (stations.set k σ') id a where
  own := h.own
  analysis := by
    obtain ⟨i, text, b, hi, hb, m, hmem, hstores⟩ := h.analysis
    exact ⟨i, text, b, analyzed_set hσ hm hi, hb, m, List.mem_append_left later hmem, hstores⟩
  passed hdeployed := (h.passed hdeployed).append

lemma sourced_opening (calls : List Call) : Sourced calls [] .empty (calls.map .fresh) where
  nodup := List.nodup_nil
  of {i σ} hσ := by
    rw [List.getElem?_map, Option.map_eq_some_iff] at hσ
    obtain ⟨c, hc, rfl⟩ := hσ
    exact ⟨c, hc, rfl⟩
  asked {σ id} hσ hid := by
    obtain ⟨c, -, rfl⟩ := List.mem_map.mp hσ
    cases hid
  given hm := by simp at hm
  traced e he := by simp [Store.empty] at he

/-- A call that asks the ledger in a step asks for the source that it was given. -/
lemma Sourced.given_now (h : Sourced calls past st stations) {source : Value}
    (hpasses : Passes calls ⟨s.standing st stations, k, e⟩ id source) :
    ∃ arguments, calls[k]? = some (.deploy (.str id) source arguments) := by
  obtain ⟨⟨given, arguments, hcall⟩, q, items, next, hstep, hjob⟩ := hpasses
  obtain ⟨st', σ, σ', hσ, hm, rfl⟩ := move_of_step hstep
  obtain ⟨hk, -⟩ := List.getElem?_eq_some_iff.mp hσ
  dsimp only at hcall hjob hk
  rw [getElem?_standing, List.getElem?_set_self hk, Option.map_some, Option.some_inj] at hjob
  obtain ⟨id', arguments', rfl⟩ := hm.fresh_of_deploying hjob
  obtain ⟨c, hc, rfl⟩ := h.of hσ
  rw [hc] at hcall
  obtain ⟨rfl, rfl, -⟩ := Call.deploy.inj (Option.some.inj hcall)
  exact ⟨_, hc⟩

/-- A call that comes to ask the ledger passes what it was given in that step. -/
lemma Sourced.passed_now (h : Sourced calls past st stations) (hσ : stations[k]? = some σ)
    (hm : Move s st σ e st' σ') (hid : σ'.asked? = some (.str id)) :
    Passed calls (past ++ [⟨s.standing st stations, k, e⟩]) id := by
  rcases hm.asked hid with hbefore | ⟨source, arguments, url, items, rfl, rfl⟩
  · exact (h.asked (List.mem_of_getElem? hσ) hbefore).append
  · obtain ⟨c, hc, rfl⟩ := h.of hσ
    obtain ⟨hk, -⟩ := List.getElem?_eq_some_iff.mp hσ
    have hjob : (s.standing st' (stations.set k (.deploying url (.str id) source items))).jobs[k]? =
        some ((Station.deploying url (.str id) source items).rest s) := by
      rw [getElem?_standing, List.getElem?_set_self hk, Option.map_some]
    exact ⟨_, List.mem_append_right past (List.mem_singleton_self _), source, ⟨_, _, hc⟩, _, _, _,
      step_of_move hσ hm, hjob⟩

/-- A move leaves the records traced. -/
lemma Sourced.traced_move (h : Sourced calls past st stations) (hσ : stations[k]? = some σ)
    (hm : Move s st σ e st' σ') :
    ∀ f ∈ st'.entries, Traced calls (past ++ [⟨s.standing st stations, k, e⟩])
      (stations.set k σ') f.1 f.2 := by
  have hold : ∀ f ∈ st.entries, Traced calls (past ++ [⟨s.standing st stations, k, e⟩])
      (stations.set k σ') f.1 f.2 := fun f hf => (h.traced f hf).move hσ hm
  have hput {id : String} {a : StoredAnalysis}
      (ha : Traced calls (past ++ [⟨s.standing st stations, k, e⟩]) (stations.set k σ') id a) :
      ∀ f ∈ (st.put id a).entries, Traced calls (past ++ [⟨s.standing st stations, k, e⟩])
        (stations.set k σ') f.1 f.2 := by
    intro f hf
    rcases Store.mem_entries_put hf with rfl | hf
    · exact ha
    · exact hold f hf
  obtain ⟨hk, -⟩ := List.getElem?_eq_some_iff.mp hσ
  obtain ⟨c, -, hof⟩ := h.of hσ
  -- a record that is new has been stored in this step
  have hstored {b : StoredAnalysis} (hb : st' = st.insert b) :
      ∃ m ∈ past ++ [⟨s.standing st stations, k, e⟩], m.place = k ∧ Stores m b :=
    ⟨_, List.mem_append_right past (List.mem_singleton_self _), rfl, _, step_of_move hσ hm, hb⟩
  cases hm with
  | keep summary now time =>
    refine hput ⟨rfl, ⟨k, _, _, List.getElem?_set_self hk, rfl, hstored rfl⟩, ?_⟩
    rintro (hstatus | hcontract)
    · exact absurd rfl hstatus
    · exact absurd rfl hcontract
  | anchored fileId =>
    obtain ⟨-, hanalyzed, hnull⟩ := hof
    refine hput ⟨rfl, ⟨k, _, _, List.getElem?_set_self hk, rfl, hstored rfl⟩, ?_⟩
    rintro (hstatus | hcontract)
    · exact absurd hanalyzed hstatus
    · exact absurd hnull hcontract
  | markDeployed fileId hfind =>
    have hpassed := h.asked (List.mem_of_getElem? hσ) rfl
    have ha := hold _ (Store.mem_entries_of_find? hfind)
    obtain ⟨i, text, b, hi, hb, hkept⟩ := ha.analysis
    refine hput ⟨ha.own, ⟨i, text, b, hi, ?_, hkept⟩, fun _ => hpassed.append⟩
    dsimp only at hb
    rw [hb]
    rfl
  | @markVerified contractId _ _ _ _ _ _ hsome hfind =>
    -- the record that is found for the contract stands under its own id
    obtain ⟨f, hf, rfl⟩ := List.mem_map.mp (List.mem_of_find?_eq_some hsome)
    have hsame : f.2.contractId.same contractId = true := by simpa using List.find?_some hsome
    have hf' := hold f hf
    rw [hf'.own] at hfind ⊢
    obtain rfl := Option.some.inj ((Store.find?_of_mem_entries h.nodup hf).symm.trans hfind)
    obtain ⟨i, text, b, hi, hb, hkept⟩ := hf'.analysis
    have hcontract : f.2.contractId ≠ .null := by
      intro hnull
      rw [hnull] at hsame
      rw [Value.eq_null_of_same hsame] at hof
      cases hof
    refine hput ⟨hf'.own, ⟨i, text, b, hi, ?_, hkept⟩, fun _ => hf'.passed (.inr hcontract)⟩
    rw [hb]
    rfl
  | _ => exact hold

lemma Sourced.move (h : Sourced calls past st stations) (hσ : stations[k]? = some σ)
    (hm : Move s st σ e st' σ') :
    Sourced calls (past ++ [⟨s.standing st stations, k, e⟩]) st' (stations.set k σ') where
  nodup := by
    have hnodup := h.nodup
    cases hm with
    | keep | anchored | markDeployed | markVerified => exact Store.nodup_ids_put hnodup _ _
    | _ => exact hnodup
  of {i τ} hτ := by
    by_cases hik : k = i
    · subst hik
      obtain ⟨hk, -⟩ := List.getElem?_eq_some_iff.mp hσ
      rw [List.getElem?_set_self hk, Option.some_inj] at hτ
      subst hτ
      obtain ⟨c, hc, hof⟩ := h.of hσ
      exact ⟨c, hc, hm.of hof⟩
    · rw [List.getElem?_set_ne hik] at hτ
      exact h.of hτ
  asked {τ id} hτ hid := by
    rcases List.mem_or_eq_of_mem_set hτ with hold | rfl
    · exact (h.asked hold hid).append
    · exact h.passed_now hσ hm hid
  given {m id source} hmem hpasses := by
    rcases List.mem_append.mp hmem with hpast | hnow
    · exact h.given hpast hpasses
    · obtain rfl := List.mem_singleton.mp hnow
      exact h.given_now hpasses
  traced := h.traced_move hσ hm

/-- The last source that the ledger has been asked to deploy is what its call was given. -/
lemma Sourced.last_given (h : Sourced calls past st stations) (hpassed : Passed calls past id) :
    ∃ m source arguments, PassesLast calls past m id source ∧
      calls[m.place]? = some (.deploy (.str id) source arguments) := by
  obtain ⟨m, source, hlast⟩ := hpassed.last
  have hlast' := hlast
  obtain ⟨earlier, later, hpast, hpasses, -⟩ := hlast'
  have hm : m ∈ past := by
    rw [hpast]
    exact List.mem_append_right earlier List.mem_cons_self
  obtain ⟨arguments, hcall⟩ := h.given hm hpasses
  exact ⟨m, source, arguments, hlast, hcall⟩

/-- A record goes back to the call that has analyzed its source. -/
lemma Sourced.analysis (h : Sourced calls past st stations)
    (htraced : Traced calls past stations id a) :
    ∃ (i : Nat) (text : String) (filename : Value) (b : StoredAnalysis),
      calls[i]? = some (.analyze (.str text) filename) ∧ stations[i]? = some (.analyzed text b) ∧
        b.id = id ∧ a = asMarked b a ∧ Describes a text ∧ b.filename = filename ∧
        (∃ time : Instant, b.timestamp = .str time.text) ∧
        ∃ m ∈ past, m.place = i ∧ Stores m b := by
  obtain ⟨i, text, b, hi, hb, hstored⟩ := htraced.analysis
  obtain ⟨c, hc, rfl, htime, hdescribes⟩ := h.of hi
  have hid : b.id = id := by
    rw [← htraced.own, hb]
    rfl
  have ha : Describes a text := by
    rw [hb]
    exact hdescribes
  exact ⟨i, text, b.filename, b, hc, hi, hid, hb, ha, rfl, htime, hstored⟩

end Records

lemma sourced_of_run {s : Service} {calls : List Call} {past : List Moment} {p : Pool}
    (hrun : Run (opening s .empty calls) past p) :
    ∃ st stations, p = s.standing st stations ∧ Sourced calls past st stations :=
  run_induction (sourced_opening calls) (fun h hσ hm => h.move hσ hm) hrun

/-- In every state of a run, a record that is marked as deployed or verified has its score and its
report from a source that a call has analyzed under its id, and its file name and its time are those
that this call has stored. The last source that the ledger has been asked to deploy for it is the
one that the deploying call was given. -/
theorem sources_of_record {s : Service} {calls : List Call} {past : List Moment} {p : Pool}
    {id : String} {a : StoredAnalysis} (hrun : Run (opening s .empty calls) past p)
    (ha : p.store.find? id = some a) (hstatus : a.status ≠ .analyzed) :
    (∃ (i : Nat) (text : String) (filename : Value) (b : StoredAnalysis),
      calls[i]? = some (.analyze (.str text) filename) ∧
        p.jobs[i]? = some (.done (.ok (analysisAnswer b (GasReport.ofSource text)))) ∧ b.id = id ∧
        a = asMarked b a ∧ Describes a text ∧ b.filename = filename ∧
        (∃ time : Instant, b.timestamp = .str time.text) ∧
        ∃ m ∈ past, m.place = i ∧ Stores m b) ∧
    ∃ m source arguments, PassesLast calls past m id source ∧
      calls[m.place]? = some (.deploy (.str id) source arguments) := by
  obtain ⟨st, stations, rfl, h⟩ := sourced_of_run hrun
  have htraced : Traced calls past stations id a := h.traced _ (Store.mem_entries_of_find? ha)
  constructor
  · obtain ⟨i, text, filename, b, hc, hi, hb⟩ := h.analysis htraced
    refine ⟨i, text, filename, b, hc, ?_, hb⟩
    rw [getElem?_standing, hi]
    rfl
  · exact h.last_given (htraced.passed (.inl hstatus))

/-- One source is analyzed, and another one is deployed under its id. -/
def otherSource : List Call :=
  [.analyze (.str "contract A \x7b\x7d") (.str "A.sol"),
    .deploy (.str "analysis-1700000000000") (.str "contract B \x7b\x7d") .null]

lemma run_otherSource :
    ∃ past p a, Run (opening ledgered .empty otherSource) past p ∧
      p.store.find? "analysis-1700000000000" = some a ∧ a.status = .deployed := by
  have h0 : Run (opening ledgered .empty otherSource) []
      (ledgered.standing .empty (otherSource.map .fresh)) := .start
  have hA : sourceOf (.str "contract A \x7b\x7d") = .ok "contract A \x7b\x7d" :=
    sourceOf_str (by decide)
  have h1 := h0.step (step_of_move (i := 0) rfl (.analyze hA))
  have h2 := h1.step (step_of_move (i := 0) rfl (.anchor .null 1700000000000 1700000000000 rfl))
  have h3 := h2.step (step_of_move (i := 0) rfl (.anchored "0x01"))
  have h4 := h3.step (step_of_move (i := 1) rfl (.deploy rfl rfl rfl rfl))
  have h5 := h4.step (step_of_move (i := 1) rfl (.record deploymentOfA 1700000000000))
  have hfind : (Store.empty.insert { assessed .empty 1700000000000 1700000000000 (.str "A.sol")
      "contract A \x7b\x7d" .null with fileId := .str "0x01" }).find? "analysis-1700000000000" =
      some { assessed .empty 1700000000000 1700000000000 (.str "A.sol") "contract A \x7b\x7d" .null
        with fileId := .str "0x01" } := by
    rw [← newId_empty]
    exact Store.find?_put_self ..
  have h6 := h5.step (step_of_move (i := 1) rfl (.markDeployed "0x03" hfind))
  exact ⟨_, _, _, h6, Store.find?_put_self .., rfl⟩

/-- The record goes back to an analysis and to a request to the ledger. -/
theorem otherSource_traced :
    ∃ past p a, Run (opening ledgered .empty otherSource) past p ∧
      p.store.find? "analysis-1700000000000" = some a ∧ a.status ≠ .analyzed ∧
      ∃ m source arguments, PassesLast otherSource past m "analysis-1700000000000" source ∧
        otherSource[m.place]? =
          some (.deploy (.str "analysis-1700000000000") source arguments) := by
  obtain ⟨past, p, a, hrun, ha, hstatus⟩ := run_otherSource
  have hdeployed : a.status ≠ .analyzed := by
    rw [hstatus]
    decide
  exact ⟨past, p, a, hrun, ha, hdeployed, (sources_of_record hrun ha hdeployed).2⟩

/-- The record of one source may be marked as deployed when another source has been. -/
theorem otherSource_deployed :
    ∃ past p a b m, Run (opening ledgered .empty otherSource) past p ∧
      p.jobs[0]? =
        some (.done (.ok (analysisAnswer b (GasReport.ofSource "contract A \x7b\x7d")))) ∧
      b.id = "analysis-1700000000000" ∧ p.store.find? "analysis-1700000000000" = some a ∧
      a.status = .deployed ∧ Describes a "contract A \x7b\x7d" ∧
      PassesLast otherSource past m "analysis-1700000000000" (.str "contract B \x7b\x7d") := by
  obtain ⟨past, p, a, hrun, ha, hstatus⟩ := run_otherSource
  obtain ⟨st, stations, rfl, h⟩ := sourced_of_run hrun
  have htraced : Traced otherSource past stations "analysis-1700000000000" a :=
    h.traced _ (Store.mem_entries_of_find? ha)
  have hdeployed : a.status ≠ .analyzed := by
    rw [hstatus]
    decide
  obtain ⟨i, text, filename, b, hc, hi, hid, -, hdescribes, -⟩ := h.analysis htraced
  obtain ⟨m, source, arguments, hlast, hcall⟩ := h.last_given (htraced.passed (.inl hdeployed))
  -- the first call is the only one that analyzes, and the second the only one that deploys
  have hsource : source = .str "contract B \x7b\x7d" := by
    rcases hplace : m.place with _ | _ | place
    · simp [otherSource, hplace] at hcall
    · simp [otherSource, hplace] at hcall
      exact hcall.1.symm
    · simp [otherSource, hplace] at hcall
  have htext : i = 0 ∧ text = "contract A \x7b\x7d" := by
    rcases i with _ | _ | i
    · simp [otherSource] at hc
      exact ⟨rfl, hc.1.symm⟩
    · simp [otherSource] at hc
    · simp [otherSource] at hc
  obtain ⟨rfl, rfl⟩ := htext
  have hjob : (ledgered.standing st stations).jobs[0]? =
      some ((Station.analyzed "contract A \x7b\x7d" b).rest ledgered) := by
    rw [getElem?_standing, hi, Option.map_some]
  exact ⟨past, _, a, b, m, hrun, hjob, hid, ha, hstatus, hdescribes, hsource ▸ hlast⟩

end SolidityAudit.Service
