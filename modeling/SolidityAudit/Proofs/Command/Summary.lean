import SolidityAudit.Proofs.Analysis.Recorded
import SolidityAudit.Proofs.Audit.Report
import SolidityAudit.Proofs.Legal.Reply
import SolidityAudit.Proofs.Source.ByteOrderMark

/-!
# Summaries on the console

A summary is shown by going through its key functions and its legal implications, so the one way to
fail is a number or a truth value in the place of such a list (`summaryPanel_cases`). The commands
that show the summary of a reply end well exactly when the object of the reply, if it has one, can
be shown; written as data it always can (`summary_shown_iff`).
-/

namespace SolidityAudit

/-! ## Parts of a summary -/

/-- A part of a summary. -/
def partOf (key : String) (fields : List (String × Value)) : Value :=
  (fieldOf key fields).getD .null

/-- Whether there is something to go through in a value, or nothing to show of it. -/
def Value.isListable (v : Value) : Bool :=
  !v.truthy || v.kind == .str || v.kind == .list || v.kind == .object

/-- The summaries that can be shown. -/
def Showable (fields : List (String × Value)) : Prop :=
  (partOf "keyFunctions" fields).isListable ∧ (partOf "legalImplications" fields).isListable

instance (fields : List (String × Value)) : Decidable (Showable fields) := instDecidableAnd

lemma Value.iterate_of_isListable {v : Value} (h : v.isListable = true)
    (htruthy : v.truthy = true) : ∃ items, v.iterate = .ok items := by
  cases v with
  | str | list | object => exact ⟨_, rfl⟩
  | _ => simp [isListable, kind, htruthy] at h

lemma Value.iterate_of_not_isListable {v : Value} (h : v.isListable = false) :
    v.truthy = true ∧ v.iterate = .error (.notIterable v.kind) := by
  cases v with
  | str | list | object => simp [isListable, kind] at h
  | _ => exact ⟨by simpa [isListable, kind] using h, rfl⟩

section Parts

variable {fields : List (String × Value)} {key : String}

lemma partLines_object (lines : Value → Except Fault (List String)) :
    partLines (.object fields) key lines =
      if (partOf key fields).truthy then lines (partOf key fields) else .ok [] :=
  rfl

/-- A part that is shown as a whole. -/
lemma partLines_whole (fields : List (String × Value)) (key : String)
    (lines : Value → List String) :
    ∃ shown, partLines (.object fields) key (fun v => return lines v) = .ok shown := by
  rw [partLines_object]
  split <;> exact ⟨_, rfl⟩

/-- The lines of a part that is shown item by item. -/
def listedLines (fields : List (String × Value)) (key : String)
    (lines : List Value → List String) : Except Fault (List String) :=
  partLines (.object fields) key fun v => do return lines (← v.iterate)

lemma listedLines_of_isListable (h : (partOf key fields).isListable = true)
    (lines : List Value → List String) : ∃ shown, listedLines fields key lines = .ok shown := by
  rw [listedLines, partLines_object]
  by_cases htruthy : (partOf key fields).truthy = true
  · obtain ⟨items, hitems⟩ := Value.iterate_of_isListable h htruthy
    rw [if_pos htruthy, hitems]
    exact ⟨_, rfl⟩
  · rw [if_neg htruthy]
    exact ⟨_, rfl⟩

lemma listedLines_of_not_isListable (h : (partOf key fields).isListable = false)
    (lines : List Value → List String) :
    listedLines fields key lines = .error (.notIterable (partOf key fields).kind) := by
  obtain ⟨htruthy, hiterate⟩ := Value.iterate_of_not_isListable h
  rw [listedLines, partLines_object, if_pos htruthy, hiterate]
  rfl

end Parts

/-! ## The panel of a summary -/

/-- The lines of the key functions of a summary. -/
def functionLines (functions : List Value) : List String :=
  ["\n[bold]Key functions:[/bold] " ++ ", ".intercalate (functions.map Value.display)]

/-- The lines of the legal implications of a summary. -/
def implicationLines (implications : List Value) : List String :=
  implications.map fun i => "  • " ++ i.display

section Panel

variable {fields : List (String × Value)}

/-- All but the two lists of a summary is shown whatever it is. -/
lemma summaryPanel_object (fields : List (String × Value)) :
    ∃ text controls risk, summaryPanel (.object fields) = do
      let functions ← listedLines fields "keyFunctions" functionLines
      let implications ← listedLines fields "legalImplications" implicationLines
      return .panel
        ("\n".intercalate (text :: (functions ++ controls ++ implications ++ risk)))
        "⚖️ Legal Summary" := by
  obtain ⟨controls, hcontrols⟩ := partLines_whole fields "accessControls" fun v =>
    ["[bold]Access controls:[/bold] " ++ v.display]
  obtain ⟨risk, hrisk⟩ := partLines_whole fields "legalRiskLevel" fun v =>
    ["[bold]Legal risk:[/bold] " ++ v.display]
  refine ⟨((fieldOf "summary" fields).getD (.str "")).display, controls, risk, ?_⟩
  unfold summaryPanel summaryLines
  simp only [hcontrols, hrisk]
  show (listedLines fields "keyFunctions" functionLines >>= _) >>= _ = _
  cases listedLines fields "keyFunctions" functionLines with
  | error f => rfl
  | ok functions =>
    show (listedLines fields "legalImplications" implicationLines >>= _) >>= _ = _
    cases listedLines fields "legalImplications" implicationLines <;> rfl

lemma summaryPanel_of_showable (h : Showable fields) :
    ∃ shown, summaryPanel (.object fields) = .ok shown := by
  obtain ⟨text, controls, risk, hpanel⟩ := summaryPanel_object fields
  obtain ⟨functions, hfunctions⟩ := listedLines_of_isListable h.1 functionLines
  obtain ⟨implications, himplications⟩ := listedLines_of_isListable h.2 implicationLines
  rw [hpanel, hfunctions, himplications]
  exact ⟨_, rfl⟩

/-- A summary with something in the place of a list that cannot be gone through is not shown. -/
lemma summaryPanel_of_not_showable (h : ¬ Showable fields) :
    ∃ k, summaryPanel (.object fields) = .error (.notIterable k) := by
  obtain ⟨text, controls, risk, hpanel⟩ := summaryPanel_object fields
  rw [hpanel]
  cases hfunctions : (partOf "keyFunctions" fields).isListable with
  | false =>
    rw [listedLines_of_not_isListable hfunctions]
    exact ⟨_, rfl⟩
  | true =>
    obtain ⟨functions, hlines⟩ := listedLines_of_isListable hfunctions functionLines
    have himplications : (partOf "legalImplications" fields).isListable = false :=
      Bool.eq_false_iff.mpr fun hlist => h ⟨hfunctions, hlist⟩
    rw [hlines, listedLines_of_not_isListable himplications]
    exact ⟨_, rfl⟩

end Panel

/-! ## The summary of a reply -/

/-- The replies whose summary can be shown: the object of the reply can, or there is none. -/
def Reply.IsShowable (reply : String) : Prop :=
  ∀ fields, Reply.parse reply = .ok (some (.object fields)) → Showable fields

lemma Reply.object_of_parse {reply : String} {v : Value} (h : parse reply = .ok (some v)) :
    ∃ fields, v = .object fields := by
  unfold parse at h
  split at h
  · cases h
  · split at h
    · rename_i fields _
      exact ⟨fields, (Option.some.inj (Except.ok.inj h)).symm⟩
    · cases h
    · cases h

lemma Reply.parse_empty : parse "" = .ok none := by
  have hextract : extract "" = none := by decide +kernel
  unfold parse
  rw [hextract]

lemma Summarizer.showable_unavailable : ∃ panel, summaryPanel unavailableSummary = .ok panel :=
  summaryPanel_of_showable (by decide)

lemma Summarizer.showable_pending (reply : String) :
    ∃ panel, summaryPanel (pendingSummary reply) = .ok panel :=
  summaryPanel_of_showable ⟨rfl, rfl⟩

lemma Reply.isShowable_iff {reply : String} {fields : List (String × Value)}
    (h : parse reply = .ok (some (.object fields))) : IsShowable reply ↔ Showable fields := by
  constructor
  · intro hshowable
    exact hshowable fields h
  · intro hshowable others hothers
    cases h.symm.trans hothers
    exact hshowable

/-- The fixed summaries can be shown, and the object of a reply as far as it is showable. -/
lemma Summarizer.summaryPanel_cases (reply : String) :
    (Reply.IsShowable reply ∧ ∃ panel, summaryPanel (summaryOf reply) = .ok panel) ∨
      (¬ Reply.IsShowable reply ∧
        ∃ k, summaryPanel (summaryOf reply) = .error (.notIterable k)) := by
  by_cases hempty : reply = ""
  · left
    rw [summaryOf, if_pos hempty, hempty]
    refine ⟨fun fields h => ?_, showable_unavailable⟩
    rw [Reply.parse_empty] at h
    cases h
  rw [summaryOf, if_neg hempty]
  cases hparse : Reply.parse reply with
  | error f => exact .inl ⟨fun fields h => (nomatch hparse.symm.trans h), showable_unavailable⟩
  | ok found =>
    cases found with
    | none => exact .inl ⟨fun fields h => (nomatch hparse.symm.trans h), showable_pending reply⟩
    | some v =>
      obtain ⟨fields, rfl⟩ := Reply.object_of_parse hparse
      by_cases hshowable : Showable fields
      · left
        exact ⟨(Reply.isShowable_iff hparse).mpr hshowable, summaryPanel_of_showable hshowable⟩
      · right
        exact ⟨fun h => hshowable ((Reply.isShowable_iff hparse).mp h),
          summaryPanel_of_not_showable hshowable⟩

/-! ## What is shown besides -/

lemma scoreStyle_int (score : Int) : ∃ style, scoreStyle (.int score) = .ok style := by
  have hexceeds (n : Int) :
      (Value.int score).exceeds n = .ok (some (compare score n) == some .gt) :=
    rfl
  unfold scoreStyle
  rw [hexceeds, hexceeds]
  cases some (compare score 50) == some .gt with
  | true => exact ⟨_, rfl⟩
  | false => cases some (compare score 20) == some .gt <;> exact ⟨_, rfl⟩

/-- A report with a number for a score is shown. -/
lemma SecurityReport.shown_of_score {r : SecurityReport} {score : Int}
    (h : r.riskScore = .int score) : ∃ shown, r.shown = .ok shown := by
  obtain ⟨style, hstyle⟩ := scoreStyle_int score
  unfold shown
  rw [h, hstyle]
  exact ⟨_, rfl⟩

section Answers

variable (a : StoredAnalysis) (gas : GasReport)

lemma Command.analysisPanel_answer :
    ∃ panel, Command.analysisPanel (Service.analysisAnswer a gas) = .ok panel :=
  ⟨_, rfl⟩

lemma answer_summary :
    (do summaryPanel (← (Service.analysisAnswer a gas).item "summary")) = summaryPanel a.summary :=
  rfl

lemma answer_gasRisk :
    (do (← (Service.analysisAnswer a gas).item "gasReport").item "gasRisk") =
      .ok (.str gas.risk.name) :=
  rfl

variable {a}

/-- The report of an analysis is shown as the report that it comes from. -/
lemma answer_report {r : SecurityReport} (h : a.securityReport = r.toValue) :
    (do (← SecurityReport.ofValue
      (← (Service.analysisAnswer a gas).item "securityReport")).shown) = r.shown := by
  show (SecurityReport.ofValue a.securityReport >>= _) = _
  rw [h, SecurityReport.ofValue_toValue]
  rfl

end Answers

namespace Command

open Outside (Recorded)
open Outside.Recorded

variable {w w' : Recorded}

lemma run_showAll (w : Recorded) (shown : List Outside.Shown) :
    w.run (showAll shown) = (.ok (), w.noting (shown.map .print)) := by
  induction shown generalizing w with
  | nil =>
    rw [List.map_nil, noting_nil]
    rfl
  | cons s shown ih => rw [showAll, run_bind (run_print ..), ih, noting_noting]; rfl

/-- A job that returns in a session returns in the world. -/
lemma run_inSession {α : Type} {s : Session} {job : Service.Job α} {a : α} {st : Store}
    (h : s.runJob w s.store job = ((.ok a, st), w')) :
    w.run (inSession s job) = (.ok (a, { s with store := st }), w') := by
  have hrun : Script.run answer ((Script.run s.answer job.run).run s.store) w =
      ((.ok a, st), w') := h
  unfold inSession Session.perform
  show (Script.run answer ((Script.bind ((Script.run s.answer job.run).run s.store) fun p =>
    .done (p.1, { s with store := p.2 })).bind fun p => .done (p.1.map (·, p.2)))
      : StateM Recorded _) w = _
  rw [Script.run_bind, Script.run_bind]
  show (fun q : (Except Fault α × Store) × Recorded =>
    (q.1.1.map (·, { s with store := q.1.2 }), q.2))
      (Script.run answer ((Script.run s.answer job.run).run s.store) w) = _
  rw [hrun]
  rfl

/-! ## Runs that show a summary -/

section Runs

variable {path reply : String} {octets : List UInt8} {c : Settings}

/-- A summarizer with a key makes a summary of a source from the reply. -/
lemma run_summarize (hkey : ((Session.summarizerOptions c).keyIn w).truthy = true)
    (hreply : w.replies.next.1 = .ok (.str reply)) (source : String) :
    ∃ asked, w.run (summarize c source) = (.ok (Summarizer.summaryOf reply), w.replied asked) := by
  obtain ⟨s, asked, hstart, hhasKey⟩ := Summarizer.run_start w (Session.summarizerOptions c)
  obtain ⟨more, hsummary⟩ :=
    Summarizer.run_summarize (w := w.noting asked) (hhasKey.trans hkey) hreply source
  unfold summarize
  rw [run_bind hstart, hsummary, noting_replied]
  exact ⟨_, rfl⟩

/-- An audit that is written as data ends well, and one that is shown ends as its summary
allows. -/
lemma runAudit_ends (h : w.Holds path octets)
    (hkey : ((Session.summarizerOptions c).keyIn w).truthy = true)
    (hreply : w.replies.next.1 = .ok (.str reply)) (asJson : Bool) :
    (w.run (runAudit c path asJson true)).1 =
      if asJson then .ok 0
      else (summaryPanel (Summarizer.summaryOf reply)).map fun _ => 0 := by
  obtain ⟨asked, hread⟩ := run_read h
  obtain ⟨more, haudit⟩ := run_auditSource (w.noting asked) (Source.textOf octets)
  obtain ⟨others, hsummary⟩ := run_summarize (w := (w.noting asked).noting more) hkey hreply
    (Source.textOf octets)
  unfold runAudit
  rw [run_bind hread, run_bind haudit]
  dsimp only
  rw [if_pos rfl, run_bind (run_map hsummary)]
  cases asJson with
  | true =>
    have hshort : ∀ v ∈ some (Summarizer.summaryOf reply), v.hasLong = false := by
      simp [Summarizer.hasLong_summaryOf]
    have hwritable := hasLong_auditValue (Source.textOf octets) hshort
    rw [if_pos rfl, if_pos rfl, run_bind (run_writeValue hwritable _), run_pure]
  | false =>
    obtain ⟨shown, hshown⟩ :=
      SecurityReport.shown_of_score (r := reportOf (Source.textOf octets)) rfl
    rw [if_neg (by decide), if_neg (by decide), run_bind (run_print ..), hshown,
      run_bind (run_settle ..), run_bind (run_showAll ..)]
    dsimp only
    cases summaryPanel (Summarizer.summaryOf reply) with
    | error f => rw [run_bind_error (run_settle ..)]; rfl
    | ok panel => rw [run_bind (run_settle ..), run_bind (run_print ..), run_pure]; rfl

/-- An analysis ends as its summary allows. -/
lemma runAnalyze_ends (h : w.Holds path octets)
    (hsource : Text.trim (Source.textOf octets) ≠ "")
    (hkey : ((Session.summarizerOptions c).keyIn w).truthy = true)
    (hreply : w.replies.next.1 = .ok (.str reply))
    (hledger : c.hasCredentials = true → w.LedgerWorks c) :
    (w.run (runAnalyze c path)).1 =
      (summaryPanel (Summarizer.summaryOf reply)).map fun _ => 0 := by
  obtain ⟨asked, hread⟩ := run_read h
  obtain ⟨s, more, hstart, hserves⟩ := Session.run_start (w := w.noting asked) hkey hreply
    fun hcredentials => (hledger hcredentials).noting asked
  obtain ⟨a, st, w', hanalyze, hsummary, hreport⟩ :=
    Session.run_analyze hserves hsource s.store (Value.hasLong_str path)
  obtain ⟨shown, hshown⟩ :=
    SecurityReport.shown_of_score (r := reportOf (Source.textOf octets)) rfl
  unfold runAnalyze
  rw [run_bind hread, run_bind hstart, run_bind (run_inSession hanalyze)]
  obtain ⟨panel, hpanel⟩ := analysisPanel_answer a (GasReport.ofSource (Source.textOf octets))
  dsimp only
  rw [hpanel, run_bind (run_settle ..), run_bind (run_print ..), answer_summary, hsummary,
    answer_report _ hreport, hshown, answer_gasRisk]
  cases summaryPanel (Summarizer.summaryOf reply) with
  | error f => rw [run_bind_error (run_settle ..)]; rfl
  | ok panel =>
    rw [run_bind (run_settle ..), run_bind (run_print ..), run_bind (run_settle ..),
      run_bind (run_showAll ..), run_bind (run_settle ..), run_bind (run_say ..), run_pure]
    rfl

/-- With a model that replies, a contract file that is not blank and a ledger that works, an audit
that is written as data ends well. An audit or an analysis that is shown ends well exactly when the
reply can be shown, and otherwise with a fault. -/
theorem summary_shown_iff (h : w.Holds path octets)
    (hsource : Text.trim (Source.textOf octets) ≠ "")
    (hkey : ((Session.summarizerOptions c).keyIn w).truthy = true)
    (hreply : w.replies.next.1 = .ok (.str reply))
    (hledger : c.hasCredentials = true → w.LedgerWorks c) :
    (w.run (runAudit c path true true)).1 = .ok 0 ∧
    ((w.run (runAudit c path false true)).1 = .ok 0 ↔ Reply.IsShowable reply) ∧
    ((w.run (runAnalyze c path)).1 = .ok 0 ↔ Reply.IsShowable reply) ∧
    (¬ Reply.IsShowable reply →
      ∃ k, (w.run (runAudit c path false true)).1 = .error (.notIterable k) ∧
        (w.run (runAnalyze c path)).1 = .error (.notIterable k)) := by
  rw [runAudit_ends h hkey hreply, runAudit_ends h hkey hreply,
    runAnalyze_ends h hsource hkey hreply hledger, if_pos rfl, if_neg (by decide)]
  rcases Summarizer.summaryPanel_cases reply with ⟨hshowable, panel, hpanel⟩ | ⟨hnot, k, hpanel⟩
  · rw [hpanel]
    exact ⟨rfl, iff_of_true rfl hshowable, iff_of_true rfl hshowable, absurd hshowable⟩
  · rw [hpanel]
    exact ⟨rfl, iff_of_false nofun hnot, iff_of_false nofun hnot, fun _ => ⟨k, rfl, rfl⟩⟩

end Runs

/-! ## Two replies -/

/-- A world with a contract file, a model that gives one reply, and a ledger that confirms one
transaction. -/
def oneReply (reply : String) : Recorded :=
  { Source.oneFile (Text.Utf8.encode Source.openToAll) with
    environment := [("OPENAI_API_KEY", "sk")]
    replies := ⟨[.ok (.str reply)], .noFile ""⟩
    receipts := ⟨[.ok (.object [("status", .int 1), ("transactionHash", .str "01")])], .noFile ""⟩ }

/-- Settings with an account on the ledger. -/
def withAccount : Settings :=
  (Settings.default.set .accountId (.str "0.0.1")).set .privateKey (.str "0x11")

lemma oneReply_holds (reply : String) :
    (oneReply reply).Holds "a.sol" (Text.Utf8.encode Source.openToAll) :=
  let h := Source.oneFile_holds (Text.Utf8.encode Source.openToAll)
  ⟨h.kind, h.suffix, h.content⟩

lemma openToAll_not_blank :
    Text.trim (Source.textOf (Text.Utf8.encode Source.openToAll)) ≠ "" := by
  rw [Source.textOf_encode]
  decide

lemma oneReply_ledgerWorks (reply : String) : (oneReply reply).LedgerWorks withAccount where
  network := ⟨.testnet, by decide, rfl⟩
  mirrorUrl := .inl rfl
  explorerUrl := .inl rfl
  account := ⟨_, rfl⟩
  confirms := ⟨_, _, rfl, rfl, rfl⟩

/-- A summary with a list of functions. -/
def listed : List (String × Value) := [("keyFunctions", .list [.str "f"])]

/-- A summary with a number of functions. -/
def counted : List (String × Value) := [("keyFunctions", .int 5)]

lemma parse_listed :
    Reply.parse (Json.write .spaced (.object listed)) = .ok (some (.object listed)) :=
  Reply.parse_of_extract
    (.object (by decide) (by simp [listed, Value.isDocument_list, Value.IsDocument.str])) rfl
    (by decide +kernel)

lemma parse_counted :
    Reply.parse (Json.write .spaced (.object counted)) = .ok (some (.object counted)) :=
  Reply.parse_of_extract (.object (by decide) (by simp [counted, Value.IsDocument.int])) rfl
    (by decide +kernel)

/-- The commands that show a summary with a list of functions end well. -/
theorem listed_shown :
    ((oneReply (Json.write .spaced (.object listed))).run
      (runAudit withAccount "a.sol" false true)).1 = .ok 0 ∧
    ((oneReply (Json.write .spaced (.object listed))).run
      (runAnalyze withAccount "a.sol")).1 = .ok 0 := by
  obtain ⟨-, haudit, hanalyze, -⟩ :=
    summary_shown_iff (oneReply_holds (Json.write .spaced (.object listed))) openToAll_not_blank
      (c := withAccount) rfl rfl fun _ => oneReply_ledgerWorks _
  have hshowable : Reply.IsShowable (Json.write .spaced (.object listed)) :=
    (Reply.isShowable_iff parse_listed).mpr (by decide)
  exact ⟨haudit.mpr hshowable, hanalyze.mpr hshowable⟩

/-- With a number in the place of the functions they fail, although the object is read. -/
theorem counted_not_shown :
    Reply.parse (Json.write .spaced (.object counted)) = .ok (some (.object counted)) ∧
    ((oneReply (Json.write .spaced (.object counted))).run
      (runAudit withAccount "a.sol" false true)).1 = .error (.notIterable .int) ∧
    ((oneReply (Json.write .spaced (.object counted))).run
      (runAnalyze withAccount "a.sol")).1 = .error (.notIterable .int) := by
  have hsummary :
      Summarizer.summaryOf (Json.write .spaced (.object counted)) = .object counted := by
    rw [Summarizer.summaryOf, if_neg (by decide), parse_counted]
  have hpanel : summaryPanel (.object counted) = .error (.notIterable .int) := by
    obtain ⟨text, controls, risk, hpanel⟩ := summaryPanel_object counted
    rw [hpanel, listedLines_of_not_isListable (by decide)]
    rfl
  refine ⟨parse_counted, ?_, ?_⟩
  · rw [runAudit_ends (oneReply_holds _) rfl rfl, if_neg (by decide), hsummary, hpanel]
    rfl
  · rw [runAnalyze_ends (oneReply_holds _) openToAll_not_blank rfl rfl
      fun _ => oneReply_ledgerWorks _, hsummary, hpanel]
    rfl

end Command

end SolidityAudit
