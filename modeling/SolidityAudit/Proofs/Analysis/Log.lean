import Mathlib.Data.List.Forall2
import Mathlib.Data.Set.Card
import SolidityAudit.Proofs.Analysis.Alone
import SolidityAudit.Proofs.Analysis.Deployment
import SolidityAudit.Proofs.Analysis.Session
import SolidityAudit.Proofs.Analysis.Statistics

/-!
# The store as the log tells it

Calls that are made one after the other leave a log: which calls were made, and with what outcome.
The log tells all that the store shows of itself (`store_of_logged`): the analyses are those of the
calls that returned, in their order and each with an id of its own, the last ones are found from
the end, and the statistics count what has returned. What carries the proof is that a record has
come beyond the first status when a deployment under its id returned after it had been stored
(`Mirrors`).
-/

namespace SolidityAudit

/-! ## Records that are added and replaced -/

namespace Store

lemma all_insert {s : Store} {a : StoredAnalysis} (h : s.contains a.id = false) :
    (s.insert a).all = s.all ++ [a] := by
  rw [all, entries_insert h, List.map_append]
  rfl

/-- A record that is put in the place of another is related to whatever the other is related to. -/
lemma forall₂_all_put {α : Type} {R : α → StoredAnalysis → Prop} {s : Store} {id : String}
    {a b : StoredAnalysis} {l : List α} (h : List.Forall₂ R l s.all) (ha : s.find? id = some a)
    (hab : ∀ x, R x a → R x b) : List.Forall₂ R l (s.put id b).all := by
  obtain ⟨before, after, hentries, hput⟩ := put_of_find? ha b
  rw [all, hentries, List.map_append] at h
  have hbefore := List.forall₂_take_append l _ _ h
  obtain ⟨x, l', hx, hl', hdrop⟩ :=
    List.forall₂_cons_right_iff.mp (List.forall₂_drop_append l _ _ h)
  rw [all, hput, List.map_append, List.map_cons, ← List.take_append_drop _ l, hdrop]
  exact List.rel_append hbefore (.cons (hab x hx) hl')

lemma mem_all_of_find? {s : Store} {id : String} {a : StoredAnalysis} (h : s.find? id = some a) :
    a ∈ s.all :=
  List.mem_map.mpr ⟨(id, a), mem_entries_of_find? h, rfl⟩

end Store

namespace Service

/-! ## The log -/

/-- A call that has been made, and its outcome. -/
structure Entry where
  call : Call
  outcome : Except Fault Value

namespace Entry

/-- Whether the entry is about an analysis that has returned. -/
def isAnalysis (e : Entry) : Bool :=
  match e.call, e.outcome with
  | .analyze .., .ok _ => true
  | _, _ => false

/-- What the answer of a call that has returned says under a key. -/
def Answers (e : Entry) (key : String) (v : Value) : Prop :=
  ∃ answer, e.outcome = .ok answer ∧ answer.get key = .ok v

/-- An analysis has returned with an id. -/
def Stores (e : Entry) (id : String) : Prop :=
  e.isAnalysis = true ∧ e.Answers "analysisId" (.str id)

/-- A deployment under an id has returned. -/
def Deploys (e : Entry) (id : String) : Prop :=
  ∃ source arguments answer, e.call = .deploy (.str id) source arguments ∧ e.outcome = .ok answer

/-- Whether the answer of a call that has returned tells of a risk score of at least 70. -/
def isHigh (e : Entry) : Bool :=
  match e.outcome.toOption.bind fun answer => (answer.get "riskScore").toOption with
  | some (.int n) => 70 ≤ n
  | _ => false

/-- An analysis has returned, and what it was asked and has answered is what a record says. -/
def TellsOf (e : Entry) (a : StoredAnalysis) : Prop :=
  ∃ source text, e.call = .analyze source a.filename ∧ sourceOf source = .ok text ∧
    e.outcome = .ok (analysisAnswer a (GasReport.ofSource text))

section Kinds

variable {x : Except Fault Value} {id : String}

lemma not_deploys_error {c : Call} {f : Fault} : ¬ Deploys ⟨c, .error f⟩ id := by
  intro h
  obtain ⟨source, arguments, answer, -, hanswer⟩ := h
  cases hanswer

lemma not_deploys_analyze {source filename : Value} :
    ¬ Deploys ⟨.analyze source filename, x⟩ id := by
  intro h
  obtain ⟨source', arguments, answer, hcall, -⟩ := h
  cases hcall

lemma not_deploys_verify {contractId : Value} : ¬ Deploys ⟨.verify contractId, x⟩ id := by
  intro h
  obtain ⟨source, arguments, answer, hcall, -⟩ := h
  cases hcall

lemma deploys_deploy {idValue source arguments answer : Value} :
    Deploys ⟨.deploy idValue source arguments, .ok answer⟩ id ↔ idValue = .str id := by
  constructor
  · intro h
    obtain ⟨source', arguments', answer', hcall, -⟩ := h
    exact (Call.deploy.inj hcall).1
  · rintro rfl
    exact ⟨source, arguments, answer, rfl, rfl⟩

lemma isAnalysis_error {c : Call} {f : Fault} : isAnalysis ⟨c, .error f⟩ = false := by
  cases c <;> rfl

lemma isAnalysis_verify {contractId : Value} : isAnalysis ⟨.verify contractId, x⟩ = false := by
  cases x <;> rfl

end Kinds

section Telling

variable {e : Entry} {a : StoredAnalysis}

lemma TellsOf.isAnalysis (h : e.TellsOf a) : e.isAnalysis = true := by
  obtain ⟨source, text, hcall, -, houtcome⟩ := h
  rw [Entry.isAnalysis, hcall, houtcome]

lemma TellsOf.stores_iff (h : e.TellsOf a) {id : String} : e.Stores id ↔ a.id = id := by
  have hanalysis := h.isAnalysis
  obtain ⟨source, text, hcall, -, houtcome⟩ := h
  constructor
  · intro h
    obtain ⟨-, answer, hanswer, hid⟩ := h
    obtain rfl := Except.ok.inj (houtcome.symm.trans hanswer)
    exact Value.str.inj (Except.ok.inj hid)
  · rintro rfl
    exact ⟨hanalysis, _, houtcome, rfl⟩

lemma Stores.unique {id id' : String} (h : e.Stores id) (h' : e.Stores id') : id = id' := by
  obtain ⟨-, answer, hanswer, hid⟩ := h
  obtain ⟨-, answer', hanswer', hid'⟩ := h'
  obtain rfl := Except.ok.inj (hanswer.symm.trans hanswer')
  exact Value.str.inj (Except.ok.inj (hid.symm.trans hid'))

lemma TellsOf.isHigh_eq (h : e.TellsOf a) : e.isHigh = Store.isHigh a := by
  obtain ⟨source, text, hcall, -, houtcome⟩ := h
  rw [isHigh, houtcome, Store.isHigh]
  show (match some a.riskScore with
    | some (.int n) => decide (70 ≤ n)
    | _ => false) = _
  cases a.riskScore <;> rfl

end Telling

end Entry

/-- The calls that have been made one after the other from an empty store on, each with any answers
of the clock and of the collaborators. -/
inductive Logged (s : Service) : List Entry → Store → Prop
  | empty : Logged s [] .empty
  | call {log : List Entry} {st st' : Store} {c : Call} {x : Except Fault Value}
    (h : Logged s log st) (hends : Ends st (c.job s) x st') : Logged s (log ++ [⟨c, x⟩]) st'

/-- What a session performs next comes next in the log. -/
theorem logged_perform {s s' : Session} {log : List Entry} {c : Call} {x : Except Fault Value}
    (h : Logged s.service log s.store)
    (hperform : (s.perform (ExceptT.mk (c.job s.service))).MayEnd (x, s')) :
    Logged s'.service (log ++ [⟨c, x⟩]) s'.store := by
  obtain ⟨hends, hs'⟩ := Session.ends_of_perform hperform
  rw [hs']
  exact .call h hends

/-- The analyses that have returned. -/
def analyses (log : List Entry) : List Entry := log.filter Entry.isAnalysis

/-- A deployment under an id has returned after an analysis with this id had been stored. -/
def Deployed (log : List Entry) (id : String) : Prop :=
  ∃ earlier later, log = earlier ++ later ∧ (∃ e ∈ earlier, e.Stores id) ∧
    ∃ e ∈ later, e.Deploys id

section Logs

variable {log : List Entry} {e : Entry} {id : String}

lemma analyses_append_of_analysis (h : e.isAnalysis = true) :
    analyses (log ++ [e]) = analyses log ++ [e] := by
  rw [analyses, List.filter_append, List.filter_singleton, h]
  rfl

lemma analyses_append_of_other (h : e.isAnalysis = false) :
    analyses (log ++ [e]) = analyses log := by
  rw [analyses, List.filter_append, List.filter_singleton, h]
  exact List.append_nil _

lemma Deployed.stored (h : Deployed log id) : ∃ e ∈ log, e.Stores id := by
  obtain ⟨earlier, later, rfl, ⟨e, he, hstores⟩, -⟩ := h
  exact ⟨e, List.mem_append_left later he, hstores⟩

/-- A further call deploys under an id what had been stored before. -/
lemma deployed_append :
    Deployed (log ++ [e]) id ↔ Deployed log id ∨ (∃ f ∈ log, f.Stores id) ∧ e.Deploys id := by
  constructor
  · intro h
    obtain ⟨earlier, later, hlog, ⟨f, hf, hstores⟩, g, hg, hdeploys⟩ := h
    rcases List.eq_nil_or_concat later with rfl | ⟨rest, last, rfl⟩
    · exact absurd hg List.not_mem_nil
    · rw [List.concat_eq_append, ← List.append_assoc] at hlog
      obtain ⟨rfl, hlast⟩ := List.append_inj' hlog rfl
      obtain rfl := List.singleton_inj.mp hlast
      rw [List.concat_eq_append, List.mem_append, List.mem_singleton] at hg
      rcases hg with hrest | rfl
      · exact .inl ⟨earlier, rest, rfl, ⟨f, hf, hstores⟩, g, hrest, hdeploys⟩
      · exact .inr ⟨⟨f, List.mem_append_left _ hf, hstores⟩, hdeploys⟩
  · intro h
    rcases h with ⟨earlier, later, rfl, hstores, f, hf, hdeploys⟩ | ⟨hstores, hdeploys⟩
    · exact ⟨earlier, later ++ [e], List.append_assoc .., hstores, f, List.mem_append_left _ hf,
        hdeploys⟩
    · exact ⟨log, [e], rfl, hstores, e, List.mem_singleton_self e, hdeploys⟩

lemma deployed_append_of_other (h : ¬ e.Deploys id) :
    Deployed (log ++ [e]) id ↔ Deployed log id := by
  rw [deployed_append, or_iff_left (fun hlast => h hlast.2)]

end Logs

/-! ## What every call keeps -/

/-- The record under an id agrees with the log. -/
structure Agrees (log : List Entry) (id : String) (a : StoredAnalysis) : Prop where
  own : a.id = id
  deployed : a.status ≠ .analyzed ↔ Deployed log id
  /-- only what has been deployed goes by the id of a contract -/
  contract : a.status = .analyzed → a.contractId = .null
  score : ∃ n : Nat, a.riskScore = .int n ∧ n ≤ 100

/-- The store agrees with the log. -/
structure Mirrors (log : List Entry) (st : Store) : Prop where
  tells : List.Forall₂ Entry.TellsOf (analyses log) st.all
  nodup : st.ids.Nodup
  agrees : ∀ id a, st.find? id = some a → Agrees log id a

section Steps

variable {log : List Entry} {st : Store} {e : Entry} {id : String} {a : StoredAnalysis}

lemma Agrees.append (h : Agrees log id a) (he : ¬ e.Deploys id) : Agrees (log ++ [e]) id a where
  own := h.own
  deployed := by rw [deployed_append_of_other he]; exact h.deployed
  contract := h.contract
  score := h.score

lemma mirrors_empty : Mirrors [] .empty where
  tells := .nil
  nodup := List.nodup_nil
  agrees id a ha := by simp at ha

/-- The ids in the store are those with which analyses have returned. -/
lemma Mirrors.stored_iff (h : Mirrors log st) :
    (∃ f ∈ log, f.Stores id) ↔ ∃ a, st.find? id = some a := by
  have hlength := h.tells.length_eq
  constructor
  · intro hstored
    obtain ⟨f, hf, hstores⟩ := hstored
    obtain ⟨i, hi, rfl⟩ := List.getElem_of_mem (List.mem_filter.mpr ⟨hf, hstores.1⟩)
    have hi' : i < st.all.length := hlength ▸ hi
    have htells := h.tells.get hi hi'
    have hid := htells.stores_iff.mp hstores
    obtain ⟨⟨k, a⟩, hmem, ha⟩ := List.mem_map.mp (List.getElem_mem hi')
    have hfind := Store.find?_of_mem_entries h.nodup hmem
    have hk := (h.agrees k a hfind).own
    refine ⟨a, ?_⟩
    rw [← hid, List.get_eq_getElem, ← ha, hk]
    exact hfind
  · intro hfound
    obtain ⟨a, hfind⟩ := hfound
    obtain ⟨i, hi, ha⟩ := List.getElem_of_mem (Store.mem_all_of_find? hfind)
    have hi' : i < (analyses log).length := hlength ▸ hi
    have htells := h.tells.get hi' hi
    refine ⟨(analyses log)[i], (List.mem_filter.mp (List.getElem_mem hi')).1, ?_⟩
    rw [List.get_eq_getElem, List.get_eq_getElem, ha] at htells
    exact htells.stores_iff.mpr (h.agrees id a hfind).own

/-- A call that is no analysis, and no deployment of what is in the store, leaves the store as it
was. -/
lemma Mirrors.unchanged (h : Mirrors log st) (hanalysis : e.isAnalysis = false)
    (hdeploys : ∀ id a, st.find? id = some a → ¬ e.Deploys id) : Mirrors (log ++ [e]) st where
  tells := by rw [analyses_append_of_other hanalysis]; exact h.tells
  nodup := h.nodup
  agrees id a ha := (h.agrees id a ha).append (hdeploys id a ha)

/-- A call that fails leaves the store as it was. -/
lemma Mirrors.failed (h : Mirrors log st) {c : Call} {f : Fault} :
    Mirrors (log ++ [⟨c, .error f⟩]) st :=
  h.unchanged Entry.isAnalysis_error fun _ _ _ => Entry.not_deploys_error

/-- A record may be replaced by one with the same answers, if it agrees with the log. -/
lemma Mirrors.replace (h : Mirrors log st) {b : StoredAnalysis} (ha : st.find? id = some a)
    (hanalysis : e.isAnalysis = false) (hdeploys : ∀ k, e.Deploys k → k = id)
    (htells : ∀ f : Entry, f.TellsOf a → f.TellsOf b) (hb : Agrees (log ++ [e]) id b) :
    Mirrors (log ++ [e]) (st.put id b) where
  tells := by
    rw [analyses_append_of_other hanalysis]
    exact Store.forall₂_all_put h.tells ha htells
  nodup := Store.nodup_ids_put h.nodup id b
  agrees k c hc := by
    rw [Store.find?_put] at hc
    by_cases hk : k = id
    · rw [if_pos hk, Option.some_inj] at hc
      rw [hk, ← hc]
      exact hb
    · rw [if_neg hk] at hc
      exact (h.agrees k c hc).append fun hd => hk (hdeploys k hd)

/-- An analysis that returns is stored under a new id. -/
lemma Mirrors.stored (h : Mirrors log st) {source filename : Value} {text : String}
    {x : Except Fault Value} {st' : Store} (htext : sourceOf source = .ok text)
    (hkeeps : KeepsOn st filename text x st') :
    Mirrors (log ++ [⟨.analyze source filename, x⟩]) st' := by
  obtain ⟨now, time, summary, fileId, a, ha, rfl, rfl⟩ := hkeeps
  have htells : Entry.TellsOf ⟨.analyze source filename,
      .ok (analysisAnswer a (GasReport.ofSource text))⟩ a :=
    ⟨source, text, by rw [ha]; rfl, htext, rfl⟩
  have hfree : st.contains a.id = false := by
    rw [ha]
    exact contains_newId st (numberOf now)
  refine ⟨?_, Store.nodup_ids_put h.nodup a.id a, ?_⟩
  · rw [analyses_append_of_analysis htells.isAnalysis, Store.all_insert hfree]
    exact List.rel_append h.tells (.cons htells .nil)
  · intro k c hc
    rw [Store.insert, Store.find?_put] at hc
    by_cases hk : k = a.id
    · rw [if_pos hk, Option.some_inj] at hc
      subst hc hk
      have hstatus : a.status = .analyzed := by rw [ha]; rfl
      -- nothing has been deployed under an id that was free
      have hnever : ¬ Deployed log a.id := by
        intro hdeployed
        obtain ⟨b, hb⟩ := h.stored_iff.mp hdeployed.stored
        simp [Store.contains, hb] at hfree
      refine ⟨rfl, ?_, fun _ => by rw [ha]; rfl, ?_⟩
      · rw [deployed_append_of_other Entry.not_deploys_analyze]
        exact iff_of_false (not_not.mpr hstatus) hnever
      · rw [ha]
        exact ⟨_, rfl, Nat.min_le_left ..⟩
    · rw [if_neg hk] at hc
      exact (h.agrees k c hc).append Entry.not_deploys_analyze

/-- A deployment that returns marks the record under its id. -/
lemma Mirrors.marked (h : Mirrors log st) {idValue source arguments : Value}
    {x : Except Fault Value} {st' : Store} (hmarks : MarksOn st idValue x st') :
    Mirrors (log ++ [⟨.deploy idValue source arguments, x⟩]) st' := by
  obtain ⟨⟨answer, rfl⟩, ⟨hnone, rfl⟩ | ⟨key, a, d, rfl, ha, rfl⟩⟩ := hmarks
  · apply h.unchanged rfl
    intro id a ha hdeploys
    -- the deployment is under an id that the store does not know
    rw [Entry.deploys_deploy] at hdeploys
    simp [hdeploys, Store.lookUp, Value.text?, ha] at hnone
  · have hagrees := h.agrees key a ha
    refine h.replace ha rfl ?_ (fun f hf => hf) ⟨hagrees.own, ?_, ?_, hagrees.score⟩
    · intro k hdeploys
      exact (Value.str.inj (Entry.deploys_deploy.mp hdeploys)).symm
    · refine iff_of_true (by simp [asDeployed]) ?_
      exact deployed_append.mpr (.inr ⟨h.stored_iff.mpr ⟨a, ha⟩, Entry.deploys_deploy.mpr rfl⟩)
    · intro hstatus
      simp [asDeployed] at hstatus

/-- A verification marks no record but one of a contract that has been deployed. -/
lemma Mirrors.verified (h : Mirrors log st) {contractId : Value} {x : Except Fault Value}
    {st' : Store} (hmarks : VerifiesOn st contractId st') :
    Mirrors (log ++ [⟨.verify contractId, x⟩]) st' := by
  obtain ⟨htruthy, a, b, ha, hb, rfl⟩ := hmarks
  -- the record that is found for the contract is the one under its id
  obtain ⟨⟨k, a'⟩, hmem, rfl⟩ := List.mem_map.mp (List.mem_of_find?_eq_some ha)
  have hfind := Store.find?_of_mem_entries h.nodup hmem
  have hk : a'.id = k := (h.agrees k a' hfind).own
  dsimp only at ha hb ⊢
  rw [hk] at hb ⊢
  obtain rfl : a' = b := Option.some_inj.mp (hfind.symm.trans hb)
  have hagrees := h.agrees k a' hfind
  have hstatus : a'.status ≠ .analyzed := by
    intro hanalyzed
    have hsame : a'.contractId.same contractId = true := by simpa using List.find?_some ha
    rw [hagrees.contract hanalyzed] at hsame
    rw [Value.eq_null_of_same hsame] at htruthy
    simp [Value.truthy] at htruthy
  refine h.replace hfind Entry.isAnalysis_verify
    (fun j hj => absurd hj Entry.not_deploys_verify) (fun f hf => hf)
    ⟨hagrees.own, ?_, ?_, hagrees.score⟩
  · rw [deployed_append_of_other Entry.not_deploys_verify, ← hagrees.deployed]
    exact iff_of_true (by simp) hstatus
  · intro hanalyzed
    cases hanalyzed

end Steps

/-- The store agrees with the log of the calls that have been made. -/
lemma mirrors_of_logged {s : Service} {log : List Entry} {st : Store} (h : Logged s log st) :
    Mirrors log st := by
  induction h with
  | empty => exact mirrors_empty
  | @call log st st' c x _ hends ih =>
    cases c with
    | analyze source filename =>
      rcases ends_analyze hends with ⟨⟨f, rfl⟩, rfl⟩ | ⟨text, htext, hkeeps⟩
      · exact ih.failed
      · exact ih.stored htext hkeeps
    | deploy id source arguments =>
      rcases ends_deploy hends with ⟨⟨f, rfl⟩, rfl⟩ | hmarks
      · exact ih.failed
      · exact ih.marked hmarks
    | verify contractId =>
      rcases ends_verify hends with rfl | hmarks
      · exact ih.unchanged Entry.isAnalysis_verify fun _ _ _ => Entry.not_deploys_verify
      · exact ih.verified hmarks

/-! ## What the store shows -/

lemma Mirrors.nodup_all {log : List Entry} {st : Store} (h : Mirrors log st) :
    (st.all.map (·.id)).Nodup := by
  have hids : st.all.map (·.id) = st.ids := by
    rw [Store.all, Store.ids, List.map_map]
    apply List.map_congr_left
    intro e he
    exact (h.agrees e.1 e.2 (Store.find?_of_mem_entries h.nodup he)).own
  rw [hids]
  exact h.nodup

lemma Mirrors.agrees_of_mem {log : List Entry} {st : Store} (h : Mirrors log st)
    {a : StoredAnalysis} (ha : a ∈ st.all) : Agrees log a.id a := by
  obtain ⟨⟨k, a⟩, hmem, rfl⟩ := List.mem_map.mp ha
  have hagrees := h.agrees k a (Store.find?_of_mem_entries h.nodup hmem)
  rw [← hagrees.own] at hagrees
  exact hagrees

/-- The ids of the deployed analyses are those of the records beyond the first status. -/
lemma Mirrors.ncard_deployed {log : List Entry} {st : Store} (h : Mirrors log st) :
    {id | Deployed log id}.ncard = st.deployedCount := by
  have hset : {id | Deployed log id} =
      (((st.all.filter (·.status ≠ .analyzed)).map (·.id)).toFinset : Set String) := by
    ext id
    rw [Set.mem_ofPred_eq, List.coe_toFinset, Set.mem_ofPred_eq, List.mem_map]
    constructor
    · intro hdeployed
      obtain ⟨a, ha⟩ := h.stored_iff.mp hdeployed.stored
      have hagrees := h.agrees id a ha
      refine ⟨a, List.mem_filter.mpr ⟨Store.mem_all_of_find? ha, ?_⟩, hagrees.own⟩
      exact decide_eq_true (hagrees.deployed.mpr hdeployed)
    · intro hrecord
      obtain ⟨a, ha, rfl⟩ := hrecord
      obtain ⟨hall, hstatus⟩ := List.mem_filter.mp ha
      exact (h.agrees_of_mem hall).deployed.mp (of_decide_eq_true hstatus)
  have hnodup : ((st.all.filter (·.status ≠ .analyzed)).map (·.id)).Nodup :=
    h.nodup_all.sublist (List.filter_sublist.map _)
  rw [hset, Set.ncard_coe_finset, List.toFinset_card_of_nodup hnodup, List.length_map,
    Store.deployedCount]

lemma Mirrors.countP_isHigh {log : List Entry} {st : Store} (h : Mirrors log st) :
    (analyses log).countP Entry.isHigh = st.all.countP Store.isHigh := by
  rw [List.countP_eq_length_filter, List.countP_eq_length_filter]
  refine (List.rel_filter ?_ h.tells).length_eq
  intro e a htells
  show e.isHigh = true ↔ Store.isHigh a = true
  rw [htells.isHigh_eq]

lemma Mirrors.rated {log : List Entry} {st : Store} (h : Mirrors log st) :
    ∃ scores, st.Rated scores ∧ ∀ n ∈ scores, n ≤ 100 := by
  have hscores : ∀ a ∈ st.all, ∃ n : Nat, a.riskScore = .int n ∧ n ≤ 100 :=
    fun a ha => (h.agrees_of_mem ha).score
  unfold Store.Rated
  generalize st.all = all at hscores
  induction all with
  | nil => exact ⟨[], rfl, by simp⟩
  | cons a all ih =>
    obtain ⟨n, hn, hle⟩ := hscores a List.mem_cons_self
    obtain ⟨scores, hrest, hles⟩ := ih fun b hb => hscores b (List.mem_cons_of_mem a hb)
    refine ⟨n :: scores, ?_, List.forall_mem_cons.mpr ⟨hle, hles⟩⟩
    rw [List.map_cons, List.map_cons, hn, hrest]

/-- The statistics are told at once, and change nothing. -/
lemma ends_stats {st st' : Store} {x : Except Fault Value} {average : Int} {high : Nat}
    (haverage : st.averageRiskScore = .ok average) (hhigh : st.highRiskCount = .ok high) :
    Ends st stats.run x st' ↔
      x = .ok (.object
        [("totalAnalyses", .int st.count), ("contractsDeployed", .int st.deployedCount),
          ("averageRiskScore", .int average), ("highRiskDetected", .int high)]) ∧ st' = st := by
  refine ends_load ?_
  intro st₁ r
  rw [turn_bind_settle, haverage]
  dsimp only
  rw [turn_bind_settle, hhigh]
  exact turn_done

/-- However calls have been made one after the other, the records of the store are those of the
analyses that have returned, in their order and with ids of their own; the last ones are found from
the end; and the statistics can be told and count the analyses that have returned, the ids that
were deployed after they had been stored, and the high scores. -/
theorem store_of_logged {s : Service} {log : List Entry} {st : Store} (h : Logged s log st) :
    List.Forall₂ Entry.TellsOf (analyses log) st.all ∧
    (st.all.map (·.id)).Nodup ∧
    (∀ k : Nat, st.recent k = (st.all.drop (st.count - k)).reverse ∧
      (st.recent k).length = min k st.count) ∧
    ∃ average : Int, ∀ x st', Ends st stats.run x st' ↔
      x = .ok (.object
        [("totalAnalyses", .int (analyses log).length),
          ("contractsDeployed", .int {id | Deployed log id}.ncard),
          ("averageRiskScore", .int average),
          ("highRiskDetected", .int ((analyses log).countP Entry.isHigh))]) ∧ st' = st := by
  have hmirrors := mirrors_of_logged h
  have hcount := st.count_eq_length_all
  refine ⟨hmirrors.tells, hmirrors.nodup_all, ?_, ?_⟩
  · intro k
    constructor
    · rw [Store.recent, Int.toNat_natCast, List.take_reverse, hcount]
    · rw [Store.recent, Int.toNat_natCast, List.length_take, List.length_reverse, hcount]
  · obtain ⟨scores, hrated, hscores⟩ := hmirrors.rated
    obtain ⟨average, haverage⟩ := Store.averageRiskScore_of_rated hrated hscores
    refine ⟨average, fun x st' => ?_⟩
    rw [ends_stats haverage (Store.highRiskCount_of_rated hrated), hmirrors.ncard_deployed,
      hmirrors.countP_isHigh, hmirrors.tells.length_eq, hcount]

/-! ## One analysis and its deployment -/

/-- A source is analyzed, and its contract is deployed. -/
lemma logged_analyzedAndDeployed : ∃ e f st, Logged ledgered [e, f] st ∧
    e.Stores "analysis-1700000000000" ∧ f.Deploys "analysis-1700000000000" ∧
    f.isAnalysis = false := by
  have hsource : sourceOf (.str "contract A \x7b\x7d") = .ok "contract A \x7b\x7d" :=
    sourceOf_str (by decide)
  have hid : (assessed .empty 1700000000000 1700000000000 (.str "A.sol") "contract A \x7b\x7d"
      .null).id = "analysis-1700000000000" := newId_empty
  have hanchoring : Move ledgered .empty (.summarizing (.str "A.sol") "contract A \x7b\x7d")
      _ _ _ :=
    .anchor .null 1700000000000 1700000000000 rfl
  -- nothing but its id matters of the record from here on
  generalize assessed .empty 1700000000000 1700000000000 _ _ _ = a at hanchoring hid
  have hanalysis : Ends .empty
      (Call.job ledgered (.analyze (.str "contract A \x7b\x7d") (.str "A.sol"))) _ _ :=
    Ends.move (.analyze hsource) (.move hanchoring (.move (.anchored "0x01") (.ended _ _)))
  have hfind : (Store.empty.insert { a with fileId := .str "0x01" }).find?
      "analysis-1700000000000" = some { a with fileId := .str "0x01" } := by
    rw [← hid]
    exact Store.find?_put_self ..
  have hdeployment : Ends (Store.empty.insert { a with fileId := .str "0x01" })
      (Call.job ledgered (.deploy (.str "analysis-1700000000000")
        (.str "contract A \x7b\x7d") .null)) _ _ :=
    Ends.move (.deploy rfl rfl rfl rfl) (.move (.record deploymentOfA 1700000000000)
      (.move (.markDeployed "0x03" hfind) (.ended _ _)))
  refine ⟨_, _, _, .call (.call .empty hanalysis) hdeployment, ⟨rfl, _, rfl, ?_⟩,
    ⟨_, _, _, rfl, rfl⟩, rfl⟩
  rw [← hid]
  rfl

/-- The statistics count one analysis and one deployment. -/
theorem analyzedAndDeployed_counted : ∃ log st average high, Logged ledgered log st ∧
    Ends st stats.run (.ok (.object
      [("totalAnalyses", .int 1), ("contractsDeployed", .int 1),
        ("averageRiskScore", .int average), ("highRiskDetected", .int high)])) st := by
  obtain ⟨e, f, st, hlogged, hstores, hdeploys, hother⟩ := logged_analyzedAndDeployed
  obtain ⟨-, -, -, average, hstats⟩ := store_of_logged hlogged
  have hanalyses : analyses [e, f] = [e] := by
    rw [analyses, List.filter_cons_of_pos hstores.1, List.filter_cons_of_neg (by simp [hother]),
      List.filter_nil]
  have hdeployed : {id | Deployed [e, f] id} = {"analysis-1700000000000"} := by
    ext id
    constructor
    · intro h
      obtain ⟨g, hg, hgstores⟩ := Deployed.stored h
      rcases List.mem_pair.mp hg with rfl | rfl
      · exact hgstores.unique hstores
      · exact absurd (hother.symm.trans hgstores.1) Bool.false_ne_true
    · intro h
      obtain rfl := Set.mem_singleton_iff.mp h
      exact ⟨[e], [f], rfl, ⟨e, List.mem_singleton_self e, hstores⟩, f,
        List.mem_singleton_self f, hdeploys⟩
  refine ⟨[e, f], st, average, ((analyses [e, f]).countP Entry.isHigh : Nat), hlogged, ?_⟩
  refine (hstats _ _).mpr ⟨?_, rfl⟩
  rw [hdeployed, hanalyses, Set.ncard_singleton]
  rfl

end Service

end SolidityAudit
