import SolidityAudit.Proofs.Analysis.Move
import SolidityAudit.Proofs.Audit.Report

/-!
# An analysis does everything or nothing

When an analysis goes on alone, the answers of the collaborators tell how far it has come
(`Course`). If it fails, the store is as it was before. If it returns, one record has come in, and
what is said of the analysis in three places is the same: in the answer, in the record, and in the
document that the ledger has anchored (`analysis_whole`).
-/

namespace SolidityAudit.Service

/-! ## What the collaborators have answered -/

/-- The summary that has come. -/
def Event.summary? : Event → Option Value
  | .answered (.summarize _) (.ok summary) => some summary
  | _ => none

/-- The document that the ledger has anchored, and the id that it has given to it. -/
def Event.anchored? : Event → Option (Value × String)
  | .answered (.anchor document _) (.ok fileId) => some (document, fileId)
  | _ => none

/-- The fault of a summary or of the ledger. -/
def Event.fault? : Event → Option Fault
  | .answered (.summarize _) (.error f) => some f
  | .answered (.anchor ..) (.error f) => some f
  | _ => none

/-- The summaries of a run. -/
def summaries (past : List Moment) : List Value := past.filterMap (·.event.summary?)

/-- The documents that the ledger has anchored in a run, each with its id. -/
def anchorings (past : List Moment) : List (Value × String) := past.filterMap (·.event.anchored?)

/-- The faults of collaborators in a run. -/
def faults (past : List Moment) : List Fault := past.filterMap (·.event.fault?)

/-- All that has been answered in a run. -/
structure Heard (past : List Moment) (summary : List Value) (anchored : List (Value × String))
    (fault : List Fault) : Prop where
  summaries : summaries past = summary
  anchorings : anchorings past = anchored
  faults : faults past = fault

lemma Heard.append {past : List Moment} {summary : List Value} {anchored : List (Value × String)}
    {fault : List Fault} (h : Heard past summary anchored fault) (m : Moment) :
    Heard (past ++ [m]) (summary ++ m.event.summary?.toList)
      (anchored ++ m.event.anchored?.toList) (fault ++ m.event.fault?.toList) := by
  obtain ⟨rfl, rfl, rfl⟩ := h
  exact ⟨filterMap_concat _ past m, filterMap_concat _ past m, filterMap_concat _ past m⟩

/-! ## How far an analysis has come -/

/-- Where an analysis stands that goes on alone from a store, and what has been answered to it. -/
def Course (s : Service) (st : Store) (source filename : Value) (past : List Moment)
    (st' : Store) : Station → Prop
  | .fresh c => c = .analyze source filename ∧ st' = st ∧ Heard past [] [] []
  | .summarizing name text =>
    name = filename ∧ sourceOf source = .ok text ∧ st' = st ∧ Heard past [] [] []
  | .anchoring text a =>
    s.explorerUrl.isSome = true ∧ st' = st ∧ ∃ now time summary,
      a = assessed st now time filename text summary ∧ Heard past [summary] [] []
  | .analyzed text a =>
    st' = st.insert a ∧ ∃ now time summary,
      (s.explorerUrl = none ∧ a = assessed st now time filename text summary ∧
        Heard past [summary] [] []) ∨
      (s.explorerUrl.isSome = true ∧ ∃ fileId,
        a = { assessed st now time filename text summary with fileId := .str fileId } ∧
        Heard past [summary] [(documentOf a text, fileId)] [])
  | .failed f => st' = st ∧ f ∈ faults past
  | _ => False

variable {s : Service} {st st' st'' : Store} {source filename : Value} {past : List Moment}
  {p : Pool} {σ σ' : Station} {i : Nat} {e : Event} {x : Except Fault Value} {a : StoredAnalysis}

lemma Course.move (h : Course s st source filename past st' σ) (hm : Move s st' σ e st'' σ') :
    Course s st source filename (past ++ [⟨p, i, e⟩]) st'' σ' := by
  cases hm with
  | analyze htext =>
    obtain ⟨hcall, hst, hheard⟩ := h
    obtain ⟨rfl, rfl⟩ := Call.analyze.inj hcall
    exact ⟨rfl, htext, hst, hheard.append ⟨p, i, _⟩⟩
  | noSummary f =>
    obtain ⟨-, -, hst, hheard⟩ := h
    refine ⟨hst, ?_⟩
    rw [(hheard.append ⟨p, i, _⟩).faults]
    exact List.mem_singleton_self f
  | anchor summary now time hledger =>
    obtain ⟨rfl, -, rfl, hheard⟩ := h
    exact ⟨hledger, rfl, now, time, summary, rfl, hheard.append ⟨p, i, _⟩⟩
  | keep summary now time hledger =>
    obtain ⟨rfl, -, rfl, hheard⟩ := h
    exact ⟨rfl, now, time, summary, .inl ⟨hledger, rfl, hheard.append ⟨p, i, _⟩⟩⟩
  | notAnchored f =>
    obtain ⟨-, hst, now, time, summary, -, hheard⟩ := h
    refine ⟨hst, ?_⟩
    rw [(hheard.append ⟨p, i, _⟩).faults]
    exact List.mem_singleton_self f
  | anchored fileId =>
    obtain ⟨hledger, rfl, now, time, summary, rfl, hheard⟩ := h
    exact ⟨rfl, now, time, summary, .inr ⟨hledger, fileId, rfl, hheard.append ⟨p, i, _⟩⟩⟩
  | deploy | badArguments | verify => cases h.1
  | _ => exact h.elim

/-- A call that goes on alone is the only one of its pool. -/
lemma course_of_run (hrun : Run (opening s st [.analyze source filename]) past p) :
    ∃ σ, p = s.standing p.store [σ] ∧ Course s st source filename past p.store σ := by
  have halone : ∃ st' stations, p = s.standing st' stations ∧
      ∃ σ, stations = [σ] ∧ Course s st source filename past st' σ := by
    refine run_induction (I := fun past st' stations =>
      ∃ σ, stations = [σ] ∧ Course s st source filename past st' σ) ?_ ?_ hrun
    · exact ⟨_, rfl, rfl, rfl, ⟨rfl, rfl, rfl⟩⟩
    intro past st' stations i e st'' σ σ' h hσ hm
    obtain ⟨τ, rfl, hτ⟩ := h
    obtain ⟨hi, hget⟩ := List.getElem?_eq_some_iff.mp hσ
    obtain rfl : i = 0 := by simpa using hi
    obtain rfl : τ = σ := hget
    exact ⟨σ', rfl, hτ.move hm⟩
  obtain ⟨st', stations, rfl, σ, rfl, h⟩ := halone
  exact ⟨σ, rfl, h⟩

/-! ## Three accounts of an analysis -/

/-- What is said of an analysis in a value is what its record says. -/
structure TellsOf (v : Value) (idKey : String) (a : StoredAnalysis) : Prop where
  id : v.item idKey = .ok (.str a.id)
  contractName : v.item "contractName" = .ok a.contractName
  summary : v.item "summary" = .ok a.summary
  securityReport : v.item "securityReport" = .ok a.securityReport

/-- The score of a record is the one that its report tells, and that of the findings there. -/
structure Scored (a : StoredAnalysis) : Prop where
  told : a.securityReport.item "riskScore" = .ok a.riskScore
  found : ∃ report, SecurityReport.ofValue a.securityReport = .ok report ∧
    a.riskScore = .int (Issue.riskScore report.issues)

/-- With a ledger, one document has been anchored. It tells of the analysis, and the record has the
id that the ledger has given to it. Without a ledger, there is neither a document nor an id. -/
def Anchored (s : Service) (past : List Moment) (a : StoredAnalysis) : Prop :=
  match s.explorerUrl with
  | some _ => ∃ document fileId, anchorings past = [(document, fileId)] ∧
      TellsOf document "id" a ∧ a.fileId = .str fileId
  | none => anchorings past = [] ∧ a.fileId = .null

lemma tellsOf_answer (a : StoredAnalysis) (gas : GasReport) :
    TellsOf (analysisAnswer a gas) "analysisId" a :=
  ⟨rfl, rfl, rfl, rfl⟩

lemma tellsOf_document (a : StoredAnalysis) (text : String) :
    TellsOf (documentOf a text) "id" a :=
  ⟨rfl, rfl, rfl, rfl⟩

lemma scored_assessed (now time : Instant) (text : String) (summary fileId : Value) :
    Scored { assessed st now time filename text summary with fileId } where
  told := rfl
  found := ⟨_, SecurityReport.ofValue_toValue _, rfl⟩

/-- A call that has ended before its first turn has been refused for its source. -/
lemma sourceOf_of_done (h : (Call.analyze source filename).job s = .done x) :
    ∃ f, x = .error f ∧ sourceOf source = .error f := by
  rw [Call.job, analyze] at h
  cases hsource : sourceOf source with
  | error f =>
    rw [hsource] at h
    exact ⟨f, (Script.done.inj h).symm, rfl⟩
  | ok text =>
    rw [hsource] at h
    cases h

/-- When an analysis goes on alone and fails, its source has been refused or a collaborator has
failed, and the store is as before. When it returns, nothing has failed, one record has come in
behind the others, and the answer, the record and the anchored document agree, also on the score. -/
theorem analysis_whole
    (hrun : Run (opening s st [.analyze source filename]) past ⟨st', [.done x]⟩) :
    (∀ f, x = .error f → st' = st ∧ (sourceOf source = .error f ∨ f ∈ faults past)) ∧
    ∀ answer, x = .ok answer → ∃ a, a.id ∉ st.ids ∧ st'.entries = st.entries ++ [(a.id, a)] ∧
      TellsOf answer "analysisId" a ∧ answer.item "riskScore" = .ok a.riskScore ∧
      answer.item "fileId" = .ok a.fileId ∧ faults past = [] ∧ summaries past = [a.summary] ∧
      Anchored s past a ∧ Scored a := by
  obtain ⟨σ, hpool, hcourse⟩ := course_of_run hrun
  have hdone : σ.rest s = .done x := (List.cons.inj (congrArg Pool.jobs hpool)).1.symm
  cases σ with
  | fresh c =>
    obtain ⟨rfl, rfl, -⟩ := hcourse
    obtain ⟨f, rfl, hsource⟩ := sourceOf_of_done hdone
    refine ⟨?_, fun answer hanswer => (nomatch hanswer)⟩
    intro g hg
    obtain rfl := Except.error.inj hg
    exact ⟨rfl, .inl hsource⟩
  | failed f =>
    obtain ⟨rfl, hfault⟩ := hcourse
    obtain rfl := Script.done.inj hdone
    refine ⟨?_, fun answer hanswer => (nomatch hanswer)⟩
    intro g hg
    obtain rfl := Except.error.inj hg
    exact ⟨rfl, .inr hfault⟩
  | analyzed text a =>
    obtain ⟨rfl, now, time, summary, hkept⟩ := hcourse
    obtain rfl := Script.done.inj hdone
    constructor
    · intro f hf
      cases hf
    intro answer hanswer
    obtain rfl := Except.ok.inj hanswer
    -- the id is free in the store from which the analysis has started
    have hfree : st.contains a.id = false := by
      rcases hkept with ⟨-, rfl, -⟩ | ⟨-, fileId, rfl, -⟩ <;> exact contains_newId ..
    have hnew : a.id ∉ st.ids := by
      intro hmem
      rw [Store.contains_iff.mpr hmem] at hfree
      simp at hfree
    refine ⟨a, hnew, Store.entries_insert hfree, tellsOf_answer a _, rfl, rfl, ?_⟩
    rcases hkept with ⟨hledger, rfl, hheard⟩ | ⟨hledger, fileId, rfl, hheard⟩
    · refine ⟨hheard.faults, hheard.summaries, ?_, scored_assessed now time text summary .null⟩
      unfold Anchored
      rw [hledger]
      exact ⟨hheard.anchorings, rfl⟩
    · refine ⟨hheard.faults, hheard.summaries, ?_,
        scored_assessed now time text summary (.str fileId)⟩
      obtain ⟨url, hurl⟩ := Option.isSome_iff_exists.mp hledger
      unfold Anchored
      rw [hurl]
      exact ⟨_, fileId, hheard.anchorings, tellsOf_document _ text, rfl⟩
  | summarizing | anchoring => cases hdone
  | deploying | recording | deployed | verifying | verified => exact hcourse.elim

/-- One contract is analyzed and anchored. -/
theorem oneContract_whole :
    ∃ past st' answer,
      Run (opening ledgered .empty [.analyze (.str "contract A \x7b\x7d") (.str "A.sol")]) past
        ⟨st', [.done (.ok answer)]⟩ ∧
      ∃ a, st'.entries = [(a.id, a)] ∧ TellsOf answer "analysisId" a ∧
        Anchored ledgered past a ∧ Scored a := by
  have h0 : Run (opening ledgered .empty
      [.analyze (.str "contract A \x7b\x7d") (.str "A.sol")]) []
      (ledgered.standing .empty [.fresh (.analyze (.str "contract A \x7b\x7d") (.str "A.sol"))]) :=
    .start
  have hA : sourceOf (.str "contract A \x7b\x7d") = .ok "contract A \x7b\x7d" :=
    sourceOf_str (by decide)
  have h1 := h0.step (step_of_move (i := 0) rfl (.analyze hA))
  have h2 := h1.step (step_of_move (i := 0) rfl (.anchor .null 1700000000000 1700000000000 rfl))
  have h3 := h2.step (step_of_move (i := 0) rfl (.anchored "0x01"))
  obtain ⟨a, -, hentries, htells, -, -, -, -, hanchored, hscored⟩ := (analysis_whole h3).2 _ rfl
  exact ⟨_, _, _, h3, a, hentries, htells, hanchored, hscored⟩

end SolidityAudit.Service
