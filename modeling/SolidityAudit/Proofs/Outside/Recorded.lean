import Mathlib.Tactic.Lemma
import SolidityAudit.Command.Run
import SolidityAudit.Outside.Recorded
import SolidityAudit.Proofs.Audit.Written
import SolidityAudit.Proofs.Script
import SolidityAudit.Proofs.Source.Encoding

/-!
# Runs in a recorded world

A program in a recorded world goes on where its first part ends (`run_bind`). What it notes, shows
or looks up leaves the world as it was, apart from the history. So a contract that is read and
audited is what its file holds, and the last that an audit writes is its report
(`runAudit_written`).
-/

namespace SolidityAudit.Outside.Recorded

variable {α β : Type} {w w' : Recorded} {x : Action α} {f : α → Action β} {a : α}

/-! ## The parts of a run -/

/-- The world after some requests that change nothing else. -/
def noting (w : Recorded) (asked : List Request) : Recorded :=
  { w with history := w.history ++ asked }

@[simp] lemma environment_noting (w : Recorded) (asked : List Request) :
    (w.noting asked).environment = w.environment :=
  rfl

@[simp] lemma files_noting (w : Recorded) (asked : List Request) :
    (w.noting asked).files = w.files :=
  rfl

@[simp] lemma receipts_noting (w : Recorded) (asked : List Request) :
    (w.noting asked).receipts = w.receipts :=
  rfl

@[simp] lemma account_noting (w : Recorded) (asked : List Request) :
    (w.noting asked).account = w.account :=
  rfl

lemma noting_nil (w : Recorded) : w.noting [] = w := by
  rw [noting, List.append_nil]

lemma noting_noting (w : Recorded) (asked more : List Request) :
    (w.noting asked).noting more = w.noting (asked ++ more) := by
  unfold noting
  rw [List.append_assoc]

/-- A program begins with its first part. -/
lemma run_first {outcome : Except Fault α} (h : w.run x = (outcome, w')) :
    w.run (x >>= f) = w'.run (ExceptT.mk (ExceptT.bindCont f outcome)) := by
  have hrun : Script.run answer x.run w = (outcome, w') := h
  show (Script.run answer (x.run.bind (ExceptT.bindCont f)) : StateM Recorded _) w = _
  rw [Script.run_bind]
  show (fun p => Script.run answer (ExceptT.bindCont f p.1) p.2) (Script.run answer x.run w) = _
  rw [hrun]
  rfl

/-- A program whose first part returns goes on behind it. -/
lemma run_bind (h : w.run x = (.ok a, w')) : w.run (x >>= f) = w'.run (f a) :=
  run_first h

/-- A program whose first part fails goes no further. -/
lemma run_bind_error {e : Fault} (h : w.run x = (.error e, w')) :
    w.run (x >>= f) = (.error e, w') :=
  run_first h

/-- The outcome of a part can be looked at, whether it fails or not. -/
lemma run_attempt {outcome : Except Fault α} (h : w.run x = (outcome, w')) :
    w.run (Action.attempt x) = (.ok outcome, w') := by
  have hrun : Script.run answer x.run w = (outcome, w') := h
  show (Script.run answer (x.run.bind _) : StateM Recorded _) w = _
  rw [Script.run_bind]
  show (fun p => (Except.ok p.1, p.2)) (Script.run answer x.run w) = _
  rw [hrun]

lemma run_pure (w : Recorded) (a : α) : w.run (pure a) = (.ok a, w) := rfl

lemma run_map {g : α → β} (h : w.run x = (.ok a, w')) : w.run (g <$> x) = (.ok (g a), w') := by
  rw [map_eq_pure_bind, run_bind h, run_pure]

lemma run_settle (w : Recorded) (outcome : Except Fault α) :
    w.run (Action.settle outcome) = (outcome, w) :=
  rfl

lemma run_log (w : Recorded) (level : Level) (text : String) :
    w.run (Action.log level text) = (.ok (), w.noting [.log level text]) :=
  rfl

lemma run_write (w : Recorded) (text : String) :
    w.run (Action.ask (.write text)) = (.ok (), w.noting [.write text]) :=
  rfl

lemma run_print (w : Recorded) (shown : Shown) :
    w.run (Action.ask (.print shown)) = (.ok (), w.noting [.print shown]) :=
  rfl

lemma run_say (w : Recorded) (text : String) :
    w.run (Action.say text) = (.ok (), w.noting [.print (.text text)]) :=
  rfl

lemma run_clock (w : Recorded) :
    w.run (Action.ask .clock) = (.ok w.clock, w.noting [.clock]) :=
  rfl

lemma run_environment (w : Recorded) (name : String) :
    w.run (Action.ask (.environment name)) =
      (.ok (w.environment.lookup name), w.noting [.environment name]) :=
  rfl

lemma run_kindOf (w : Recorded) (p : Path) :
    w.run (Action.ask (.kindOf p)) = (.ok (w.files.kindOf p), w.noting [.kindOf p]) :=
  rfl

lemma run_fileContent (w : Recorded) (p : Path) :
    w.run (Action.ask (.fileContent p)) = (.ok (w.files.read p), w.noting [.fileContent p]) :=
  rfl

/-- The world after some requests of which one has changed the files. -/
def storing (w : Recorded) (files : Files) (asked : List Request) : Recorded :=
  { w.noting asked with files }

lemma storing_storing (w : Recorded) (files files' : Files) (asked more : List Request) :
    (w.storing files asked).storing files' more = w.storing files' (asked ++ more) := by
  unfold storing noting
  rw [List.append_assoc]

lemma noting_storing (w : Recorded) (files : Files) (asked more : List Request) :
    (w.storing files asked).noting more = w.storing files (asked ++ more) := by
  unfold storing noting
  rw [List.append_assoc]

lemma run_makeFolder {p : Path} {files : Files} {made : Bool}
    (h : w.files.makeFolder p = (files, made)) :
    w.run (Action.ask (.makeFolder p)) = (.ok made, w.storing files [.makeFolder p]) := by
  show (Except.ok (w.files.makeFolder p).2,
    { w.noting [.makeFolder p] with files := (w.files.makeFolder p).1 }) = _
  rw [h]
  rfl

lemma run_saveFile {p : Path} {content : String} {files : Files}
    (h : w.files.write? p content = some files) :
    w.run (Action.ask (.saveFile p content)) =
      (.ok true, w.storing files [.saveFile p content]) := by
  have hkept : (w.noting [.saveFile p content]).files.write? p content = some files := h
  show (fun q : Bool × Recorded => (Except.ok q.1, q.2))
    ((reply (.saveFile p content)).run (w.noting [.saveFile p content])) = _
  simp only [reply, StateT.run_modifyGet, hkept]
  rfl

/-! ## Contracts in files -/

/-- A path leads to a contract file with the given octets. -/
structure Holds (w : Recorded) (path : String) (octets : List UInt8) : Prop where
  kind : w.files.kindOf (Path.ofText path) = some .file
  suffix : Source.isContractFile (Path.ofText path) = true
  content : w.files.read (Path.ofText path) = some octets

variable {path : String} {octets : List UInt8}

/-- A contract is read from its octets, and nothing else happens but notes. -/
lemma run_read (h : w.Holds path octets) :
    ∃ asked, w.run (Source.read path) = (.ok (Source.textOf octets), w.noting asked) := by
  obtain ⟨hkind, hsuffix, hcontent⟩ := h
  unfold Source.read
  dsimp only
  rw [run_bind (run_kindOf w _), hkind, if_neg (by simp), hsuffix, if_neg (by simp),
    run_bind (run_fileContent _ _)]
  have hkept : (w.noting [.kindOf (Path.ofText path)]).files.read (Path.ofText path) =
      some octets := hcontent
  rw [hkept, noting_noting]
  dsimp only
  rw [Source.textBy_decodeFile?, run_bind (run_settle _ (.ok _))]
  by_cases hlooks : (!Source.looksLikeSolidity (Source.textOf octets)) = true
  · rw [if_pos hlooks, run_bind (run_log ..), run_pure, noting_noting]
    exact ⟨_, rfl⟩
  · rw [if_neg hlooks, run_pure]
    exact ⟨_, rfl⟩

/-- The facts that an audit of a source goes by. -/
def factsOf (source : String) : ContractFacts := ContractFacts.parseOrFallback (some source)

/-- The report of an audit of a source. -/
def reportOf (source : String) : SecurityReport := audit source (factsOf source)

/-- A source is audited by its facts, and nothing else happens but notes. -/
lemma run_auditSource (w : Recorded) (source : String) :
    ∃ asked, w.run (Command.auditSource source) =
      (.ok (factsOf source, reportOf source), w.noting asked) := by
  unfold Command.auditSource
  dsimp only
  cases hnotice : ContractFacts.parseNotice (some source) with
  | none =>
    dsimp only
    rw [run_bind (run_log ..), run_pure]
    exact ⟨_, rfl⟩
  | some notice =>
    dsimp only
    rw [run_bind (run_log ..), run_bind (run_log ..), run_pure, noting_noting]
    exact ⟨_, rfl⟩

/-- A value whose integers can be written is written over several lines. -/
lemma run_writeValue {v : Value} (h : v.hasLong = false) (w : Recorded) :
    w.run (Command.writeValue v) =
      (.ok (), w.noting [.write (Json.writeIndented 0 v ++ "\n")]) := by
  unfold Command.writeValue Json.indented?
  rw [Json.writtenText_textBy? h, run_bind (run_settle ..), run_write]

/-- An audit of a source can be written, with a summary that can. -/
lemma hasLong_auditValue (source : String) {summary : Option Value}
    (h : ∀ v ∈ summary, v.hasLong = false) :
    (Command.auditValue (factsOf source) (reportOf source) summary).hasLong = false := by
  have hreport : (reportOf source).toValue.hasLong = false := RuleTable.hasLong_audit ..
  have hname : (factsOf source).name.hasLong = false := ContractFacts.hasLong_name source
  cases summary with
  | none => simp [Command.auditValue, hreport, hname]
  | some v => simp [Command.auditValue, hreport, hname, h v rfl]

/-- What the command for an audit writes about a source. -/
def written (source : String) : Request :=
  .write (Json.writeIndented 0 (Command.auditValue (factsOf source) (reportOf source) none) ++ "\n")

/-- The command for an audit ends well, and the last that it does is to write the report and the
complexity of what the file holds. -/
lemma runAudit_written (c : Settings) (h : w.Holds path octets) :
    ∃ asked, w.run (Command.runAudit c path true false) =
      (.ok 0, w.noting (asked ++ [written (Source.textOf octets)])) := by
  obtain ⟨asked, hread⟩ := run_read h
  obtain ⟨more, haudit⟩ := run_auditSource (w.noting asked) (Source.textOf octets)
  refine ⟨asked ++ more, ?_⟩
  unfold Command.runAudit
  rw [run_bind hread, run_bind haudit, noting_noting]
  show Recorded.run _ (pure none >>= _) = _
  rw [run_bind (run_pure _ none)]
  show Recorded.run _ (Command.writeValue _ >>= fun _ => pure 0) = _
  rw [run_bind (run_writeValue (hasLong_auditValue _ (by simp)) _), run_pure, noting_noting]
  rfl

end SolidityAudit.Outside.Recorded
