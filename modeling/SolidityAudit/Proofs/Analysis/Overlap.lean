import Mathlib.Data.List.Perm.Basic
import SolidityAudit.Proofs.Analysis.Move
import SolidityAudit.Proofs.Places

/-!
# Analyses that overlap

The id of a new analysis is a free one of the store when the summary comes, but the analysis is
stored only after the ledger has answered. Until then another call may choose the same id. So the
analyses of the calls that return are all kept, each under its own id, if and only if no two of
these calls wait for the ledger under one id at the same time (`kept_iff_no_overlap`).
-/

namespace SolidityAudit.Service

/-! ## What is asked of a pool -/

/-- The answer of a job that has returned. -/
def answerOf : Rest → Option Value
  | .done (.ok v) => some v
  | _ => none

/-- The id in the document that a job waits to anchor. -/
def anchoredId : Rest → Option String
  | .ask (.anchor document _) _ =>
    match document.get "id" with
    | .ok (.str id) => some id
    | _ => none
  | _ => none

namespace Pool

/-- The answers of the calls that have returned. -/
def answers (p : Pool) : List Value := p.jobs.filterMap answerOf

/-- Whether the call at a place has returned. -/
def Returned (p : Pool) (i : Nat) : Prop := ∃ v, p.jobs[i]?.bind answerOf = some v

/-- Two calls wait for the ledger under one id. -/
def Overlap (p : Pool) (i j : Nat) : Prop :=
  i ≠ j ∧ ∃ id, p.jobs[i]?.bind anchoredId = some id ∧ p.jobs[j]?.bind anchoredId = some id

/-- The analyses of the calls that have returned are in the store, each under an id of its own, and
there are no others. -/
structure Kept (p : Pool) : Prop where
  distinct : (p.answers.map (·.get "analysisId")).Nodup
  stored : ∀ v ∈ p.answers, ∃ a gas, v = analysisAnswer a gas ∧ p.store.find? a.id = some a
  count : p.store.count = p.answers.length

end Pool

/-! ## Stations of an analysis -/

namespace Station

/-- The stations of a call that analyzes. -/
def ofAnalysis : Station → Bool
  | fresh (.analyze ..) | summarizing .. | anchoring .. | analyzed .. | failed _ => true
  | _ => false

/-- The id that a call has chosen. -/
def chosen : Station → Option String
  | anchoring _ a | analyzed _ a => some a.id
  | _ => none

/-- The id under which a call has stored its analysis. -/
def storedId : Station → Option String
  | analyzed _ a => some a.id
  | _ => none

variable {s : Service} {σ : Station}

lemma chosen_of_storedId {id : String} (h : σ.storedId = some id) : σ.chosen = some id := by
  cases σ with
  | analyzed => exact h
  | _ => simp [storedId] at h

lemma answerOf_job_analyze (source filename : Value) :
    answerOf (Call.job s (.analyze source filename)) = none ∧
      anchoredId (Call.job s (.analyze source filename)) = none := by
  rw [Call.job, analyze]
  cases sourceOf source with
  | error | ok => exact ⟨rfl, rfl⟩

/-- A call that analyzes waits under the id that it has chosen, until it has stored it. -/
lemma anchoredId_rest (hσ : σ.ofAnalysis = true) :
    anchoredId (σ.rest s) = if σ.storedId = none then σ.chosen else none := by
  cases σ with
  | fresh c =>
    cases c with
    | analyze source filename => exact (answerOf_job_analyze source filename).2
    | deploy | verify => simp [ofAnalysis] at hσ
  | summarizing | anchoring | analyzed | failed => rfl
  | _ => simp [ofAnalysis] at hσ

lemma answerOf_rest (hσ : σ.ofAnalysis = true) :
    answerOf (σ.rest s) =
      match σ with
      | analyzed source a => some (analysisAnswer a (GasReport.ofSource source))
      | _ => none := by
  cases σ with
  | fresh c =>
    cases c with
    | analyze source filename => exact (answerOf_job_analyze source filename).1
    | deploy | verify => simp [ofAnalysis] at hσ
  | summarizing | anchoring | analyzed | failed => rfl
  | _ => simp [ofAnalysis] at hσ

/-- The answer of a call tells the id under which its analysis is stored. -/
lemma get_answerOf_rest (hσ : σ.ofAnalysis = true) :
    (answerOf (σ.rest s)).map (·.get "analysisId") = σ.storedId.map fun id => .ok (.str id) := by
  rw [answerOf_rest hσ]
  cases σ <;> rfl

end Station

/-- What a move of an analysis does with a ledger. -/
inductive AnalysisMove (st : Store) : Station → Store → Station → Prop
  | idle {σ σ' : Station} (h : σ.chosen = none) (h' : σ'.chosen = none) : AnalysisMove st σ st σ'
  | choose {σ : Station} {source : String} {a : StoredAnalysis} (h : σ.chosen = none)
    (hfree : st.contains a.id = false) : AnalysisMove st σ st (.anchoring source a)
  | fail {source : String} {a : StoredAnalysis} (f : Fault) :
    AnalysisMove st (.anchoring source a) st (.failed f)
  | store {source : String} {a b : StoredAnalysis} (hid : b.id = a.id) :
    AnalysisMove st (.anchoring source a) (st.insert b) (.analyzed source b)

section Moves

variable {s : Service} {st st' : Store} {σ σ' : Station} {e : Event}

/-- With a ledger, the id of an analysis is chosen when the summary comes, and used when the ledger
has answered. -/
lemma analysisMove_of_move (hledger : s.explorerUrl.isSome = true) (hσ : σ.ofAnalysis = true)
    (h : Move s st σ e st' σ') :
    σ'.ofAnalysis = true ∧ (∀ f, σ ≠ .failed f) ∧ AnalysisMove st σ st' σ' := by
  cases h with
  | analyze h => exact ⟨rfl, nofun, .idle rfl rfl⟩
  | noSummary f => exact ⟨rfl, nofun, .idle rfl rfl⟩
  | anchor summary now time => exact ⟨rfl, nofun, .choose rfl (contains_newId st (numberOf now))⟩
  | keep _ _ _ hnone => simp [hnone] at hledger
  | notAnchored f => exact ⟨rfl, nofun, .fail f⟩
  | anchored fileId => exact ⟨rfl, nofun, .store rfl⟩
  | _ => simp [Station.ofAnalysis] at hσ

namespace AnalysisMove

/-- An id that a call holds after a move was held before, or is free. -/
lemma chosen_before (h : AnalysisMove st σ st' σ') {id : String} (hid : σ'.chosen = some id) :
    σ.chosen = some id ∨ σ'.storedId = none ∧ st.contains id = false := by
  cases h with
  | idle _ h' => simp [h'] at hid
  | choose h hfree =>
    obtain rfl := Option.some.inj hid
    exact .inr ⟨rfl, hfree⟩
  | fail => simp [Station.chosen] at hid
  | store hb =>
    obtain rfl := Option.some.inj hid
    exact .inl (congrArg some hb.symm)

/-- A call holds the id that it has chosen, or fails. -/
lemma chosen_after (h : AnalysisMove st σ st' σ') {id : String} (hid : σ.chosen = some id) :
    σ'.chosen = some id ∨ ∃ f, σ' = .failed f := by
  cases h with
  | idle h => simp [h] at hid
  | choose h => simp [h] at hid
  | fail f => exact .inr ⟨f, rfl⟩
  | store hb => exact .inl (hid ▸ congrArg some hb)

lemma storedId_before (h : AnalysisMove st σ st' σ') : σ.storedId = none := by
  cases h with
  | idle h | choose h =>
    cases hσ : σ.storedId with
    | none => rfl
    | some id => simp [Station.chosen_of_storedId hσ] at h
  | fail | store => rfl

/-- The store changes by the analysis that the call has stored. -/
lemma store_after (h : AnalysisMove st σ st' σ') :
    st' = st ∧ σ'.storedId = none ∨ ∃ source b, σ' = .analyzed source b ∧ st' = st.insert b := by
  cases h with
  | @idle _ σ' _ h' =>
    cases hσ : σ'.storedId with
    | none => exact .inl ⟨rfl, rfl⟩
    | some id => simp [Station.chosen_of_storedId hσ] at h'
  | choose | fail => exact .inl ⟨rfl, rfl⟩
  | @store source a b => exact .inr ⟨source, b, rfl, rfl⟩

end AnalysisMove

end Moves

/-! ## What holds all along -/

/-- What holds of a store and the stations of analyses after a run. -/
structure Tracked (s : Service) (past : List Moment) (st : Store) (stations : List Station) :
    Prop where
  ofAnalysis : ∀ σ ∈ stations, σ.ofAnalysis = true
  nodup : st.ids.Nodup
  /-- what is in the store has been stored by a call -/
  contains_iff : ∀ id, st.contains id = true ↔
    ∃ i : Nat, stations[i]?.bind Station.storedId = some id
  /-- an analysis is lost only to another call with its id -/
  kept : ∀ (i : Nat) source a, stations[i]? = some (.analyzed source a) →
    st.find? a.id = some a ∨ ∃ j ≠ i, stations[j]?.bind Station.storedId = some a.id
  /-- calls that have chosen one id overlap now or did so before -/
  overlap : ∀ (i j : Nat) id, i ≠ j → stations[i]?.bind Station.chosen = some id →
    stations[j]?.bind Station.chosen = some id →
      (s.standing st stations).Overlap i j ∨ ∃ m ∈ past, m.pool.Overlap i j
  /-- a call that has waited under an id still has it, if it has not failed -/
  stay : ∀ m ∈ past, ∀ (i : Nat) id, m.pool.jobs[i]?.bind anchoredId = some id →
    stations[i]?.bind Station.chosen = some id ∨ ∃ f, stations[i]? = some (.failed f)

section Tracked

variable {s : Service} {past : List Moment} {st : Store} {stations : List Station}

lemma tracked_opening (calls : List (Value × Value)) :
    Tracked s [] .empty (calls.map fun c => .fresh (.analyze c.1 c.2)) where
  ofAnalysis σ hσ := by
    obtain ⟨c, -, rfl⟩ := List.mem_map.mp hσ
    rfl
  nodup := List.nodup_nil
  contains_iff id := by
    simp [Store.contains, Station.storedId, Option.bind_eq_some_iff]
  kept i source a h := by simp at h
  overlap i j id hij hi hj := by
    simp [Option.bind_eq_some_iff, Station.chosen] at hi
  stay m hm := by simp at hm

/-- A call waits under an id if it has chosen it, and has not stored anything. -/
lemma anchoredId_standing (h : ∀ σ ∈ stations, σ.ofAnalysis = true) {i : Nat} {id : String} :
    (s.standing st stations).jobs[i]?.bind anchoredId = some id ↔
      stations[i]?.bind Station.chosen = some id ∧ stations[i]?.bind Station.storedId = none := by
  rw [getElem?_standing]
  cases hi : stations[i]? with
  | none => simp
  | some σ =>
    have hσ := h σ (List.mem_of_getElem? hi)
    simp only [Option.map_some, Option.bind_some, Station.anchoredId_rest hσ]
    by_cases hstored : σ.storedId = none <;> simp [hstored]

variable {st' : Store} {σ σ' : Station} {k : Nat} {e : Event}

/-- A call that has stored an analysis before a move has it still, since it did not move. -/
lemma storedId_set_of_storedId (hσ : stations[k]? = some σ) (hm : AnalysisMove st σ st' σ')
    {i : Nat} {id : String} (hi : stations[i]?.bind Station.storedId = some id) :
    i ≠ k ∧ (stations.set k σ')[i]?.bind Station.storedId = some id := by
  have hik : i ≠ k := by
    rintro rfl
    simp [hσ, hm.storedId_before] at hi
  exact ⟨hik, by rwa [getElem?_set_of_getElem? hσ, if_neg hik]⟩

lemma Tracked.contains_iff_move (h : Tracked s past st stations) (hσ : stations[k]? = some σ)
    (hm : AnalysisMove st σ st' σ') (id : String) :
    st'.contains id = true ↔
      ∃ i : Nat, (stations.set k σ')[i]?.bind Station.storedId = some id := by
  -- of the other calls, the same ones have stored it
  have hothers : (∃ i : Nat, (stations.set k σ')[i]?.bind Station.storedId = some id) ↔
      σ'.storedId = some id ∨ st.contains id = true := by
    rw [h.contains_iff id]
    constructor
    · rintro ⟨i, hi⟩
      rw [getElem?_set_of_getElem? hσ] at hi
      by_cases hik : i = k
      · left
        simpa [hik] using hi
      · right
        exact ⟨i, by simpa [hik] using hi⟩
    · rintro (hk | ⟨i, hi⟩)
      · exact ⟨k, by rw [getElem?_set_of_getElem? hσ, if_pos rfl]; exact hk⟩
      · exact ⟨i, (storedId_set_of_storedId hσ hm hi).2⟩
  -- and the moved one has if the store has changed
  rw [hothers]
  rcases hm.store_after with ⟨rfl, hnone⟩ | ⟨source, b, rfl, rfl⟩
  · simp [hnone]
  · rw [Store.insert, Store.contains_put]
    rw [Bool.or_eq_true, decide_eq_true_iff, Station.storedId, Option.some_inj, eq_comm]

lemma Tracked.kept_move (h : Tracked s past st stations) (hσ : stations[k]? = some σ)
    (hm : AnalysisMove st σ st' σ') (i : Nat) (source : String) (a : StoredAnalysis)
    (hi : (stations.set k σ')[i]? = some (.analyzed source a)) :
    st'.find? a.id = some a ∨
      ∃ j ≠ i, (stations.set k σ')[j]?.bind Station.storedId = some a.id := by
  rw [getElem?_set_of_getElem? hσ] at hi
  by_cases hik : i = k
  · rw [if_pos hik] at hi
    obtain rfl := Option.some.inj hi
    rcases hm.store_after with ⟨-, hnone⟩ | ⟨_, b, hb, rfl⟩
    · simp [Station.storedId] at hnone
    · -- what has just been stored is there
      obtain ⟨rfl, rfl⟩ := Station.analyzed.inj hb
      exact .inl (Store.find?_put_self ..)
  · rw [if_neg hik] at hi
    rcases h.kept i source a hi with hfind | ⟨j, hji, hj⟩
    · rcases hm.store_after with ⟨rfl, -⟩ | ⟨_, b, rfl, rfl⟩
      · exact .inl hfind
      · by_cases hid : a.id = b.id
        · refine .inr ⟨k, Ne.symm hik, ?_⟩
          rw [getElem?_set_of_getElem? hσ, if_pos rfl, hid]
          rfl
        · left
          rw [Store.insert, Store.find?_put, if_neg hid, hfind]
    · exact .inr ⟨j, hji, (storedId_set_of_storedId hσ hm hj).2⟩

/-- An id that a call holds after a move was held before, or the call waits with it, and it is
free. -/
lemma chosen_set (hσ : stations[k]? = some σ) (hm : AnalysisMove st σ st' σ') {i : Nat}
    {id : String} (hi : (stations.set k σ')[i]?.bind Station.chosen = some id) :
    stations[i]?.bind Station.chosen = some id ∨
      i = k ∧ σ'.storedId = none ∧ st.contains id = false := by
  rw [getElem?_set_of_getElem? hσ] at hi
  by_cases hik : i = k
  · subst hik
    rw [if_pos rfl, Option.bind_some] at hi
    rw [hσ, Option.bind_some]
    exact (hm.chosen_before hi).imp_right fun h => ⟨rfl, h⟩
  · rw [if_neg hik] at hi
    exact .inl hi

/-- A call that chooses an id that another call has chosen overlaps with it. -/
lemma Tracked.overlap_of_free (h : Tracked s past st stations)
    (hof : ∀ τ ∈ stations.set k σ', τ.ofAnalysis = true) (hσ : stations[k]? = some σ)
    {j : Nat} {id : String} (hkj : k ≠ j) (hnone : σ'.storedId = none)
    (hfree : st.contains id = false)
    (hk : (stations.set k σ')[k]?.bind Station.chosen = some id)
    (hj : (stations.set k σ')[j]?.bind Station.chosen = some id) :
    (s.standing st' (stations.set k σ')).Overlap k j := by
  refine ⟨hkj, id, (anchoredId_standing hof).mpr ⟨hk, ?_⟩, (anchoredId_standing hof).mpr ⟨hj, ?_⟩⟩
  · rwa [getElem?_set_of_getElem? hσ, if_pos rfl, Option.bind_some]
  · -- an id that has been stored would not be free
    rw [getElem?_set_of_getElem? hσ, if_neg (Ne.symm hkj)] at hj ⊢
    cases hstored : stations[j]?.bind Station.storedId with
    | none => rfl
    | some id' =>
      obtain ⟨τ, hτ, hid'⟩ := Option.bind_eq_some_iff.mp hstored
      have hsame : some id = some id' := by
        rw [← hj, hτ, Option.bind_some, Station.chosen_of_storedId hid']
      have hmem := (h.contains_iff id').mpr ⟨j, hstored⟩
      rw [← Option.some.inj hsame, hfree] at hmem
      simp at hmem

lemma Pool.Overlap.symm {p : Pool} {i j : Nat} (h : p.Overlap i j) : p.Overlap j i := by
  obtain ⟨hij, id, hi, hj⟩ := h
  exact ⟨hij.symm, id, hj, hi⟩

lemma Tracked.overlap_move (h : Tracked s past st stations)
    (hof : ∀ τ ∈ stations.set k σ', τ.ofAnalysis = true) (hσ : stations[k]? = some σ)
    (hm : AnalysisMove st σ st' σ') (i j : Nat) (id : String) (hij : i ≠ j)
    (hi : (stations.set k σ')[i]?.bind Station.chosen = some id)
    (hj : (stations.set k σ')[j]?.bind Station.chosen = some id) :
    (s.standing st' (stations.set k σ')).Overlap i j ∨
      ∃ m ∈ past ++ [⟨s.standing st stations, k, e⟩], m.pool.Overlap i j := by
  rcases chosen_set hσ hm hi with hi' | ⟨rfl, hnone, hfree⟩
  · rcases chosen_set hσ hm hj with hj' | ⟨rfl, hnone, hfree⟩
    · right
      rcases h.overlap i j id hij hi' hj' with hnow | ⟨m, hm, hpast⟩
      · exact ⟨⟨s.standing st stations, k, e⟩, by simp, hnow⟩
      · exact ⟨m, List.mem_append_left _ hm, hpast⟩
    · exact .inl (h.overlap_of_free hof hσ hij.symm hnone hfree hj hi).symm
  · exact .inl (h.overlap_of_free hof hσ hij hnone hfree hi hj)

lemma Tracked.stay_move (h : Tracked s past st stations) (hσ : stations[k]? = some σ)
    (hfailed : ∀ f, σ ≠ .failed f) (hm : AnalysisMove st σ st' σ') (m : Moment)
    (hmem : m ∈ past ++ [⟨s.standing st stations, k, e⟩]) (i : Nat) (id : String)
    (hi : m.pool.jobs[i]?.bind anchoredId = some id) :
    (stations.set k σ')[i]?.bind Station.chosen = some id ∨
      ∃ f, (stations.set k σ')[i]? = some (.failed f) := by
  -- a call that waits right now has chosen its id as well
  have hbefore : stations[i]?.bind Station.chosen = some id ∨
      ∃ f, stations[i]? = some (.failed f) := by
    rcases List.mem_append.mp hmem with hpast | hnow
    · exact h.stay m hpast i id hi
    · obtain rfl := List.mem_singleton.mp hnow
      exact .inl ((anchoredId_standing h.ofAnalysis).mp hi).1
  rw [getElem?_set_of_getElem? hσ]
  by_cases hik : i = k
  · subst hik
    rw [if_pos rfl, Option.bind_some]
    rw [hσ] at hbefore
    rcases hbefore with hchosen | ⟨f, hf⟩
    · exact (hm.chosen_after hchosen).imp_right fun ⟨f, hf⟩ => ⟨f, congrArg some hf⟩
    · exact absurd (Option.some.inj hf) (hfailed f)
  · rwa [if_neg hik]

/-- A move of an analysis keeps all of this. -/
lemma Tracked.move (h : Tracked s past st stations) (hledger : s.explorerUrl.isSome = true)
    (hσ : stations[k]? = some σ) (hmove : Move s st σ e st' σ') :
    Tracked s (past ++ [⟨s.standing st stations, k, e⟩]) st' (stations.set k σ') := by
  obtain ⟨hσ', hfailed, hm⟩ :=
    analysisMove_of_move hledger (h.ofAnalysis σ (List.mem_of_getElem? hσ)) hmove
  have hof : ∀ τ ∈ stations.set k σ', τ.ofAnalysis = true := by
    intro τ hτ
    rcases List.mem_or_eq_of_mem_set hτ with hτ | rfl
    · exact h.ofAnalysis τ hτ
    · exact hσ'
  have hnodup : st'.ids.Nodup := by
    rcases hm.store_after with ⟨rfl, -⟩ | ⟨_, b, -, rfl⟩
    · exact h.nodup
    · exact Store.nodup_ids_put h.nodup b.id b
  exact ⟨hof, hnodup, h.contains_iff_move hσ hm, h.kept_move hσ hm, h.overlap_move hof hσ hm,
    h.stay_move hσ hfailed hm⟩

/-- The ids under which the calls have stored their analyses. -/
lemma map_get_answers (h : ∀ σ ∈ stations, σ.ofAnalysis = true) :
    (s.standing st stations).answers.map (·.get "analysisId") =
      (stations.filterMap Station.storedId).map fun id => .ok (.str id) := by
  rw [Pool.answers, standing, List.filterMap_map, List.map_filterMap, List.map_filterMap]
  exact List.filterMap_congr fun σ hσ => Station.get_answerOf_rest (h σ hσ)

end Tracked

/-! ## When all analyses are kept -/

section Kept

variable {s : Service} {past : List Moment} {st : Store} {stations : List Station}

lemma returned_iff (h : Tracked s past st stations) {i : Nat} :
    (s.standing st stations).Returned i ↔ ∃ source a, stations[i]? = some (.analyzed source a) := by
  rw [Pool.Returned, getElem?_standing]
  cases hi : stations[i]? with
  | none => simp
  | some σ =>
    simp only [Option.map_some, Option.bind_some, Option.some.injEq,
      Station.answerOf_rest (h.ofAnalysis σ (List.mem_of_getElem? hi))]
    cases σ <;> simp

/-- The ids of the answers are distinct if the ids of the stored analyses are. -/
lemma nodup_answers_iff (h : Tracked s past st stations) :
    ((s.standing st stations).answers.map (·.get "analysisId")).Nodup ↔
      (stations.filterMap Station.storedId).Nodup := by
  rw [map_get_answers h.ofAnalysis]
  refine List.nodup_map_iff fun id id' hid => ?_
  simpa using hid

lemma mem_answers_iff (h : Tracked s past st stations) {v : Value} :
    v ∈ (s.standing st stations).answers ↔
      ∃ source a, (∃ i : Nat, stations[i]? = some (.analyzed source a)) ∧
        v = analysisAnswer a (GasReport.ofSource source) := by
  rw [Pool.answers, standing, List.filterMap_map, List.mem_filterMap]
  constructor
  · rintro ⟨σ, hσ, hv⟩
    rw [Function.comp_apply, Station.answerOf_rest (h.ofAnalysis σ hσ)] at hv
    cases σ with
    | analyzed source a =>
      exact ⟨source, a, List.getElem?_of_mem hσ, (Option.some.inj hv).symm⟩
    | _ => simp at hv
  · rintro ⟨source, a, ⟨i, hi⟩, rfl⟩
    exact ⟨.analyzed source a, List.mem_of_getElem? hi, rfl⟩

/-- Distinct ids are enough for all analyses to be kept. -/
lemma kept_of_nodup (h : Tracked s past st stations)
    (hnodup : (stations.filterMap Station.storedId).Nodup) :
    (s.standing st stations).Kept where
  distinct := (nodup_answers_iff h).mpr hnodup
  stored v hv := by
    obtain ⟨source, a, ⟨i, hi⟩, rfl⟩ := (mem_answers_iff h).mp hv
    refine ⟨a, GasReport.ofSource source, rfl, ?_⟩
    rcases h.kept i source a hi with hfind | ⟨j, hji, hj⟩
    · exact hfind
    · exact absurd hj (nodup_filterMap_iff.mp hnodup i j hji.symm a.id (by rw [hi]; rfl))
  count := by
    -- the ids of the store are those under which calls have stored, and none stands twice
    have hperm : st.ids.Perm (stations.filterMap Station.storedId) := by
      refine (List.perm_ext_iff_of_nodup h.nodup hnodup).mpr fun id => ?_
      rw [← Store.contains_iff, h.contains_iff id, List.mem_filterMap]
      constructor
      · rintro ⟨i, hi⟩
        obtain ⟨σ, hσ, hid⟩ := Option.bind_eq_some_iff.mp hi
        exact ⟨σ, List.mem_of_getElem? hσ, hid⟩
      · rintro ⟨σ, hσ, hid⟩
        obtain ⟨i, hi⟩ := List.getElem?_of_mem hσ
        exact ⟨i, by rw [hi]; exact hid⟩
    have hlength : (s.standing st stations).answers.length =
        (stations.filterMap Station.storedId).length := by
      simpa using congrArg List.length (map_get_answers h.ofAnalysis)
    rw [hlength, ← hperm.length_eq, ← Store.count_eq_length_ids]
    rfl

end Kept

/-- With a ledger, the analyses of any number of calls that go on together, in any order of their
turns and with any clock, are all kept under ids of their own if and only if no two calls that have
returned ever waited for the ledger under one id at the same time. -/
theorem kept_iff_no_overlap {s : Service} (hledger : s.explorerUrl.isSome = true)
    {calls : List (Value × Value)} {past : List Moment} {p : Pool}
    (hrun : Run (opening s .empty (calls.map fun c => .analyze c.1 c.2)) past p) :
    p.Kept ↔ ∀ m ∈ past, ∀ i j, m.pool.Overlap i j → ¬ (p.Returned i ∧ p.Returned j) := by
  obtain ⟨st, stations, rfl, h⟩ : ∃ st stations, p = s.standing st stations ∧
      Tracked s past st stations :=
    run_induction (by rw [List.map_map]; exact tracked_opening calls)
      (fun h hσ hmove => h.move hledger hσ hmove) hrun
  constructor
  · rintro hkept m hm i j ⟨hij, id, hi, hj⟩ ⟨hri, hrj⟩
    -- a call that has returned has not failed, so it has stored its analysis under that id
    have hstored (k : Nat) (hk : m.pool.jobs[k]?.bind anchoredId = some id)
        (hr : (s.standing st stations).Returned k) :
        stations[k]?.bind Station.storedId = some id := by
      obtain ⟨source, a, ha⟩ := (returned_iff h).mp hr
      have hstay := h.stay m hm k id hk
      rw [ha] at hstay ⊢
      rcases hstay with hchosen | ⟨f, hf⟩
      · exact hchosen
      · simp at hf
    exact nodup_filterMap_iff.mp ((nodup_answers_iff h).mp hkept.distinct) i j hij id
      (hstored i hi hri) (hstored j hj hrj)
  · intro hno
    -- two calls with one id overlap now or did so before
    refine kept_of_nodup h (nodup_filterMap_iff.mpr fun i j hij id hi hj => ?_)
    have hreturned (k : Nat) (hk : stations[k]?.bind Station.storedId = some id) :
        (s.standing st stations).Returned k := by
      obtain ⟨σ, hσ, hid⟩ := Option.bind_eq_some_iff.mp hk
      cases σ with
      | analyzed source a => exact (returned_iff h).mpr ⟨source, a, hσ⟩
      | _ => simp [Station.storedId] at hid
    have hchosen (k : Nat) (hk : stations[k]?.bind Station.storedId = some id) :
        stations[k]?.bind Station.chosen = some id := by
      obtain ⟨σ, hσ, hid⟩ := Option.bind_eq_some_iff.mp hk
      rw [hσ, Option.bind_some, Station.chosen_of_storedId hid]
    rcases h.overlap i j id hij (hchosen i hi) (hchosen j hj) with hnow | ⟨m, hm, hpast⟩
    · -- a call that has returned does not wait
      obtain ⟨-, id', hnow, -⟩ := hnow
      have hnone := ((anchoredId_standing h.ofAnalysis).mp hnow).2
      rw [hi] at hnone
      simp at hnone
    · exact hno m hm i j hpast ⟨hreturned i hi, hreturned j hj⟩

/-! ## Two calls at once -/

/-- Two sources that come at once, with their names. -/
def twoSources : List (Value × Value) :=
  [(.str "contract A \x7b\x7d", .str "A.sol"), (.str "contract B \x7b\x7d", .str "B.sol")]

/-- Both calls choose an id before either of them has stored its analysis. -/
lemma run_twoSources :
    ∃ past p, Run (opening ledgered .empty (twoSources.map fun c => .analyze c.1 c.2)) past p ∧
      p.answers.map (·.get "analysisId") =
        [.ok (.str "analysis-1700000000000"), .ok (.str "analysis-1700000000000")] ∧
      p.store.count = 1 := by
  have h0 : Run (opening ledgered .empty (twoSources.map fun c => .analyze c.1 c.2)) []
      (ledgered.standing .empty (twoSources.map fun c => .fresh (.analyze c.1 c.2))) := .start
  have hA : sourceOf (.str "contract A \x7b\x7d") = .ok "contract A \x7b\x7d" :=
    sourceOf_str (by decide)
  have hB : sourceOf (.str "contract B \x7b\x7d") = .ok "contract B \x7b\x7d" :=
    sourceOf_str (by decide)
  have h1 := h0.step (step_of_move (i := 0) rfl (.analyze hA))
  have h2 := h1.step (step_of_move (i := 1) rfl (.analyze hB))
  have h3 := h2.step (step_of_move (i := 0) rfl (.anchor .null 1700000000000 1700000000000 rfl))
  have h4 := h3.step (step_of_move (i := 1) rfl (.anchor .null 1700000000000 1700000000000 rfl))
  have h5 := h4.step (step_of_move (i := 0) rfl (.anchored "0x01"))
  have h6 := h5.step (step_of_move (i := 1) rfl (.anchored "0x02"))
  have hanswers {st : Store} {source source' : String} {a b : StoredAnalysis} :
      (ledgered.standing st [.analyzed source a, .analyzed source' b]).answers.map
        (·.get "analysisId") = [.ok (.str a.id), .ok (.str b.id)] := rfl
  have hcount {a b : StoredAnalysis} (hid : a.id = b.id) :
      ((Store.empty.insert a).insert b).count = 1 := by
    simp [Store.insert, Store.put, Store.putIn, Store.empty, Store.count, hid]
  rw [← newId_empty]
  exact ⟨_, _, h6, hanswers, hcount rfl⟩

/-- Of two analyses that come at once, one may take the place of the other. -/
theorem twoSources_not_kept :
    ∃ past p, Run (opening ledgered .empty (twoSources.map fun c => .analyze c.1 c.2)) past p ∧
      p.answers.map (·.get "analysisId") =
        [.ok (.str "analysis-1700000000000"), .ok (.str "analysis-1700000000000")] ∧
      p.store.count = 1 ∧ ¬ p.Kept := by
  obtain ⟨past, p, hrun, hids, hcount⟩ := run_twoSources
  refine ⟨past, p, hrun, hids, hcount, fun hkept => ?_⟩
  have hdistinct := hkept.distinct
  rw [hids] at hdistinct
  simp at hdistinct

/-- The two calls have waited for the ledger under one id. -/
theorem twoSources_overlap :
    ∃ past p, Run (opening ledgered .empty (twoSources.map fun c => .analyze c.1 c.2)) past p ∧
      ∃ m ∈ past, ∃ i j, m.pool.Overlap i j ∧ p.Returned i ∧ p.Returned j := by
  obtain ⟨past, p, hrun, hids, -⟩ := run_twoSources
  refine ⟨past, p, hrun, ?_⟩
  by_contra hno
  have hkept : p.Kept := (kept_iff_no_overlap rfl hrun).mpr
    fun m hm i j hij ⟨hi, hj⟩ => hno ⟨m, hm, i, j, hij, hi, hj⟩
  have hdistinct := hkept.distinct
  rw [hids] at hdistinct
  simp at hdistinct

end SolidityAudit.Service
