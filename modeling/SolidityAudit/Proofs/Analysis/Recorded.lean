import SolidityAudit.Proofs.Analysis.Station
import SolidityAudit.Proofs.Ledger.Recorded
import SolidityAudit.Proofs.Legal.Summary

/-!
# Sessions in a recorded world

A job of a session goes on where its first part ends (`runJob_bind`), each request going to the
collaborator that answers it. So with a key, a reply and a ledger that works, a session opens and a
source that is not blank is analyzed: the answer holds the summary of the reply, whatever the reply
is, and the report of the audit (`run_analyze`).
-/

namespace SolidityAudit

namespace Outside.Recorded

variable {w : Recorded} {c : Settings}

lemma LedgerWorks.noting (h : w.LedgerWorks c) (asked : List Request) :
    (w.noting asked).LedgerWorks c :=
  ⟨h.network, h.mirrorUrl, h.explorerUrl, h.account, h.confirms⟩

end Outside.Recorded

namespace Session

open Outside (Recorded)
open Outside.Recorded
open Service (Job)

variable {α β : Type} {w w' : Recorded} {s : Session} {st st' : Store} {c : Settings}

/-! ## Jobs -/

/-- What a job of a session does in a world: its outcome, the store after it, and the world. -/
def runJob (s : Session) (w : Recorded) (st : Store) (job : Job α) :
    (Except Fault α × Store) × Recorded :=
  StateT.run (m := Id) (Script.run Recorded.answer ((Script.run s.answer job.run).run st)) w

/-- A job begins with its first part. -/
lemma runJob_first {x : Job α} {f : α → Job β} {outcome : Except Fault α}
    (h : s.runJob w st x = ((outcome, st'), w')) :
    s.runJob w st (x >>= f) = s.runJob w' st' (ExceptT.mk (ExceptT.bindCont f outcome)) := by
  have hrun : Script.run Recorded.answer ((Script.run s.answer x.run).run st) w =
      ((outcome, st'), w') := h
  show (Script.run Recorded.answer
    ((Script.run s.answer (x.run.bind (ExceptT.bindCont f)) : Worker _).run st)
      : StateM Recorded _) w = _
  rw [Script.run_bind]
  show (Script.run Recorded.answer (((Script.run s.answer x.run).run st).bind fun p =>
    (Script.run s.answer (ExceptT.bindCont f p.1)).run p.2) : StateM Recorded _) w = _
  rw [Script.run_bind]
  show (fun q => Script.run Recorded.answer
    ((Script.run s.answer (ExceptT.bindCont f q.1.1)).run q.1.2) q.2)
      (Script.run Recorded.answer ((Script.run s.answer x.run).run st) w) = _
  rw [hrun]
  rfl

/-- A job whose first part returns goes on behind it. -/
lemma runJob_bind {x : Job α} {f : α → Job β} {a : α} (h : s.runJob w st x = ((.ok a, st'), w')) :
    s.runJob w st (x >>= f) = s.runJob w' st' (f a) :=
  runJob_first h

/-- A job whose first part fails goes no further. -/
lemma runJob_bind_error {x : Job α} {f : α → Job β} {e : Fault}
    (h : s.runJob w st x = ((.error e, st'), w')) :
    s.runJob w st (x >>= f) = ((.error e, st'), w') :=
  runJob_first h

lemma runJob_settle (outcome : Except Fault α) :
    s.runJob w st (Service.settle outcome) = ((outcome, st), w) :=
  rfl

lemma runJob_note (level : Outside.Level) (text : String) :
    s.runJob w st (Service.note level text) = ((.ok (), st), w.noting [.log level text]) :=
  rfl

lemma runJob_now :
    s.runJob w st (Service.ask .now) = ((.ok w.clock, st), w.noting [.clock]) :=
  rfl

lemma runJob_load : s.runJob w st (Service.ask .load) = ((.ok st, st), w) := rfl

lemma runJob_save : s.runJob w st (Service.ask (.save st')) = ((.ok (), st'), w) := rfl

lemma runJob_ask (r : Service.Request) {a : Service.Answer r}
    (h : StateT.run (m := Id) (Script.run Recorded.answer ((s.answer r).run st)) w =
      ((a, st'), w')) :
    s.runJob w st (Service.ask r) = ((.ok a, st'), w') := by
  have hrun : Script.run Recorded.answer ((s.answer r).run st) w = ((a, st'), w') := h
  show (Script.run Recorded.answer
    (((s.answer r).run st).bind fun p => .done ((.ok p.1 : Except Fault _), p.2))
      : StateM Recorded _) w = _
  rw [Script.run_bind]
  show (fun p => ((Except.ok p.1.1, p.1.2), p.2))
    (Script.run Recorded.answer ((s.answer r).run st) w) = _
  rw [hrun]

/-- A collaborator is asked in the world as it is, and the store stays. -/
lemma run_exchange {x : Action α} {outcome : Except Fault α} (h : w.run x = (outcome, w')) :
    StateT.run (m := Id) (Script.run Recorded.answer ((exchange x).run st)) w =
      ((outcome, st), w') := by
  have hrun : Script.run Recorded.answer x.run w = (outcome, w') := h
  show (Script.run Recorded.answer (x.run.bind fun a => .done (a, st)) : StateM Recorded _) w = _
  rw [Script.run_bind]
  show (fun p => ((p.1, st), p.2)) (Script.run Recorded.answer x.run w) = _
  rw [hrun]

lemma runJob_summarize {source : String} {outcome : Except Fault Value}
    (h : w.run (s.summarizer.summarize source) = (outcome, w')) :
    s.runJob w st (Service.ask (.summarize source)) = ((.ok outcome, st), w') :=
  runJob_ask _ (run_exchange h)

lemma run_requireLedger {client : LedgerClient} (h : s.ledger = some client) :
    w.run s.requireLedger = (.ok client, w) := by
  rw [requireLedger, h]
  rfl

lemma runJob_anchor {client : LedgerClient} {document memo : Value} {outcome : Except Fault String}
    (hledger : s.ledger = some client) (h : w.run (client.anchor document memo) = (outcome, w')) :
    s.runJob w st (Service.ask (.anchor document memo)) = ((.ok outcome, st), w') :=
  runJob_ask _ (run_exchange ((run_bind (run_requireLedger hledger)).trans h))

/-! ## Sessions that serve -/

/-- The collaborators of a session answer: the model with a reply, and the ledger, if there is one,
with success. -/
structure Serves (s : Session) (w : Recorded) (reply : String) : Prop where
  hasKey : s.summarizer.hasKey = true
  reply : w.replies.next.1 = .ok (.str reply)
  confirms : s.ledger.isSome = true → w.Confirms

/-- A session opens with a key, a reply, and a ledger that works if the settings have one. -/
lemma run_start {reply : String} (hkey : ((summarizerOptions c).keyIn w).truthy = true)
    (hreply : w.replies.next.1 = .ok (.str reply))
    (hledger : c.hasCredentials = true → w.LedgerWorks c) :
    ∃ s asked, w.run (start c) = (.ok s, w.noting asked) ∧ s.Serves (w.noting asked) reply := by
  obtain ⟨summarizer, asked, hsummarizer, hhasKey⟩ := Summarizer.run_start w (summarizerOptions c)
  unfold start
  rw [run_bind hsummarizer]
  by_cases hcredentials : c.hasCredentials = true
  · obtain ⟨client, more, hclient⟩ :=
      LedgerClient.run_start hcredentials ((hledger hcredentials).noting asked)
    rw [if_pos hcredentials, run_bind hclient, run_bind (run_pure ..), run_pure, noting_noting]
    exact ⟨_, _, rfl, hhasKey.trans hkey, hreply, fun _ => (hledger hcredentials).confirms⟩
  · rw [if_neg hcredentials, run_bind (run_log ..), run_bind (run_pure ..), run_pure, noting_noting]
    exact ⟨_, _, rfl, hhasKey.trans hkey, hreply, fun hsome => by cases hsome⟩

/-! ## Analyzing -/

lemma runJob_read (s : Session) (w : Recorded) (st : Store) (source : String) :
    ∃ asked, s.runJob w st (Service.read source) =
      ((.ok (factsOf source), st), w.noting asked) := by
  unfold Service.read
  cases ContractFacts.parseNotice (some source) with
  | none => exact ⟨[], by rw [noting_nil]; rfl⟩
  | some notice =>
    dsimp only
    rw [runJob_bind (runJob_note ..)]
    exact ⟨_, rfl⟩

lemma runJob_keep (s : Session) (w : Recorded) (st : Store) (a : StoredAnalysis)
    (source : String) :
    ∃ st' w', s.runJob w st (Service.keep a source) =
      ((.ok (Service.analysisAnswer a (GasReport.ofSource source)), st'), w') := by
  unfold Service.keep
  rw [runJob_bind runJob_load, runJob_bind runJob_save, runJob_bind (runJob_note ..),
    runJob_bind (runJob_note ..)]
  exact ⟨_, _, rfl⟩

/-- The document of an analysis can be written if what is not a text in it can. -/
lemma hasLong_documentOf {a : StoredAnalysis} (hname : a.contractName.hasLong = false)
    (hsummary : a.summary.hasLong = false) (hreport : a.securityReport.hasLong = false)
    (htime : a.timestamp.hasLong = false) (hfile : a.filename.hasLong = false) (source : String) :
    (Service.documentOf a source).hasLong = false := by
  simp [Service.documentOf, *]

/-- An analysis whose document can be written is anchored, if there is a ledger, and stored. -/
lemma runJob_anchorAndKeep (hconfirms : s.ledger.isSome = true → w.Confirms) (st : Store)
    {a : StoredAnalysis} {source : String}
    (hdocument : (Service.documentOf a source).hasLong = false) :
    ∃ fileId st' w', s.runJob w st (s.service.anchorAndKeep a source) =
      ((.ok (Service.analysisAnswer { a with fileId } (GasReport.ofSource source)), st'), w') := by
  unfold Service.anchorAndKeep service
  cases hledger : s.ledger with
  | none => exact ⟨a.fileId, runJob_keep s w st a source⟩
  | some client =>
    have hsome : s.ledger.isSome = true := by rw [hledger]; rfl
    obtain ⟨id, asked, hanchor⟩ :=
      LedgerClient.run_anchor (hconfirms hsome) client hdocument (Service.memoOf a)
    dsimp only [Option.map_some]
    rw [runJob_bind (runJob_anchor hledger hanchor), Service.keepAnchored,
      runJob_bind (runJob_settle (.ok id))]
    exact ⟨.str id, runJob_keep ..⟩

lemma runJob_assess (hconfirms : s.ledger.isSome = true → w.Confirms) (st : Store)
    {filename summary : Value} (hfile : filename.hasLong = false)
    (hsummary : summary.hasLong = false) (source : String) :
    ∃ a st' w', s.runJob w st (s.service.assess filename source (factsOf source) (.ok summary)) =
        ((.ok (Service.analysisAnswer a (GasReport.ofSource source)), st'), w') ∧
      a.summary = summary ∧ a.securityReport = (reportOf source).toValue := by
  unfold Service.assess
  dsimp only
  rw [runJob_bind (runJob_note ..), runJob_bind (runJob_settle (.ok summary)),
    runJob_bind runJob_load, runJob_bind runJob_now, runJob_bind runJob_now, noting_noting,
    noting_noting]
  generalize Service.newId st _ = id
  have hdocument : (Service.documentOf
      (Service.newAnalysis id w.clock filename (factsOf source) (reportOf source) summary)
      source).hasLong = false :=
    hasLong_documentOf (ContractFacts.hasLong_name source) hsummary (RuleTable.hasLong_audit ..)
      (Value.hasLong_str _) hfile source
  obtain ⟨fileId, st', w', hkeep⟩ :=
    runJob_anchorAndKeep (w := w.noting _) hconfirms st hdocument
  exact ⟨_, st', w', hkeep, rfl, rfl⟩

/-- A source that is not blank, from a file whose name can be written, is analyzed: the answer holds
the summary of the reply, whatever it says, and the report of the audit. -/
theorem run_analyze {reply source : String} (h : s.Serves w reply)
    (hsource : Text.trim source ≠ "") (st : Store) {filename : Value}
    (hfile : filename.hasLong = false) :
    ∃ a st' w', s.runJob w st (s.service.analyze (.str source) filename) =
        ((.ok (Service.analysisAnswer a (GasReport.ofSource source)), st'), w') ∧
      a.summary = Summarizer.summaryOf reply ∧ a.securityReport = (reportOf source).toValue := by
  have hgiven : s.runJob w st (Service.settle (Service.sourceOf (.str source))) =
      ((.ok source, st), w) := by
    rw [Service.sourceOf_str hsource]
    rfl
  unfold Service.analyze
  rw [runJob_bind hgiven, runJob_bind (runJob_note ..)]
  obtain ⟨asked, hread⟩ := runJob_read s (w.noting _) st source
  rw [runJob_bind hread, noting_noting]
  obtain ⟨more, hsummary⟩ := Summarizer.run_summarize (w := w.noting _) h.hasKey h.reply source
  rw [runJob_bind (runJob_summarize hsummary), noting_replied]
  exact runJob_assess (w := w.replied _) h.confirms st hfile
    (Summarizer.hasLong_summaryOf reply) source

end Session

end SolidityAudit
