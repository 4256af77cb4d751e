import SolidityAudit.Config.SettingsFile
import SolidityAudit.Proofs.Outside.Files
import SolidityAudit.Proofs.Outside.Recorded
import SolidityAudit.Proofs.Value.Equality
import SolidityAudit.Proofs.Yaml.Codec

/-!
# Settings that are loaded

The settings of a file are those of its fields and, if asked for, then those of the environment
(`SettingsFile.run_start_of_expands`), whatever the codec is. A file that the codec refuses or that
cannot be opened provides nothing, and neither does one that holds nothing. But a file that holds
something without fields ends the program before the environment has been looked at, and so does a
field of another name that cannot be shown (`start_returns_iff`).
-/

namespace SolidityAudit

variable {α : Type}

/-! ## The environment -/

namespace Setting

lemma mem_every (k : Setting) : k ∈ every := by
  cases k <;> decide

/-- The value of a setting in an environment: that of its variable, unless this is empty or not
there. -/
def valueIn (y : Codec α) (environment : List (String × String)) (k : Setting) (v : α) : α :=
  match k.environmentName?.bind fun name => environment.lookup name with
  | some text => if text = "" then v else y.ofValue (.str (Text.trim text))
  | none => v

lemma valueIn_nil (y : Codec α) (k : Setting) (v : α) : k.valueIn y [] v = v := by
  unfold valueIn
  cases k.environmentName? <;> rfl

lemma valueIn_valueIn (y : Codec α) (environment : List (String × String)) (k : Setting) (v : α) :
    k.valueIn y environment (k.valueIn y environment v) = k.valueIn y environment v := by
  unfold valueIn
  cases k.environmentName?.bind fun name => environment.lookup name with
  | none => rfl
  | some text =>
    dsimp only
    split <;> rfl

end Setting

/-! ## Fields -/

/-- The value under the name of a setting; the last of several counts. -/
def valueUnder (k : Setting) : List (Key × α) → Option α
  | [] => none
  | (key, v) :: rest => (valueUnder k rest).or (if key.setting? = some k then some v else none)

/-- The fault of the first field of another name that cannot be shown. -/
def hiddenFault : List (Key × α) → Option Fault
  | [] => none
  | (key, _) :: rest =>
    match key.setting?, key.shown with
    | none, .error e => some e
    | _, _ => hiddenFault rest

/-- Each field of another name can be shown. -/
def AreShown (fields : List (Key × α)) : Prop :=
  ∀ f ∈ fields, f.1.setting? = none → ∃ s, f.1.shown = .ok s

lemma hiddenFault_eq_none_iff {fields : List (Key × α)} :
    hiddenFault fields = none ↔ AreShown fields := by
  induction fields with
  | nil => simp [hiddenFault, AreShown]
  | cons f rest ih =>
    rw [hiddenFault, AreShown, List.forall_mem_cons]
    cases f.1.setting? with
    | some k => simpa [AreShown] using ih
    | none =>
      cases f.1.shown with
      | error e => simp
      | ok s => simpa [AreShown] using ih

/-- A result, unless there is a fault. -/
def unlessFault {β : Type} (fault : Option Fault) (b : β) : Except Fault β :=
  match fault with
  | some e => .error e
  | none => .ok b

namespace Settings

/-- The settings with those of fields. Fields of other names do not count. -/
def withFields (s : Settings α) (fields : List (Key × α)) : Settings α :=
  fun k => (valueUnder k fields).getD (s k)

lemma withFields_cons_setting {s : Settings α} {f : Key × α} {k : Setting}
    (h : f.1.setting? = some k) (rest : List (Key × α)) :
    s.withFields (f :: rest) = (s.set k f.2).withFields rest := by
  funext j
  unfold withFields set
  rw [valueUnder, h]
  cases valueUnder j rest with
  | some v => rfl
  | none =>
    rw [Option.none_or]
    by_cases hj : j = k
    · simp [hj]
    · simp [hj, Ne.symm hj]

lemma withFields_cons_other {s : Settings α} {f : Key × α} (h : f.1.setting? = none)
    (rest : List (Key × α)) : s.withFields (f :: rest) = s.withFields rest := by
  funext j
  unfold withFields
  rw [valueUnder, h, if_neg (by simp), Option.or_none]

lemma set_self (s : Settings α) (k : Setting) : s.set k (s k) = s := by
  funext j
  rw [set]
  split
  · rename_i hj
    rw [hj]
  · rfl

end Settings

/-! ## Loading -/

namespace SettingsFile

open Outside (Recorded)
open Outside.Recorded

variable {y : Codec α} {w w' : Recorded} {path : String} {p : Path} {fields : List (Key × α)}
  {k : Setting} {files : Outside.Files} {octets : List UInt8}

/-- A path is expanded by the environment alone. -/
lemma run_expand (w : Recorded) (path : String) :
    ∃ outcome asked, ∀ w' : Recorded, w'.environment = w.environment →
      w'.run (expand path) = (outcome, w'.noting asked) := by
  unfold expand
  dsimp only
  cases (Path.ofText path).parts with
  | nil => exact ⟨_, [], fun w' _ => by rw [noting_nil]; rfl⟩
  | cons first rest =>
    dsimp only
    split
    · cases hhome : w.environment.lookup "HOME" with
      | none =>
        refine ⟨.error (.outside .broken "Could not determine home directory."),
          [.environment "HOME"], fun w' hw' => ?_⟩
        rw [run_bind (run_environment ..), hw', hhome]
        rfl
      | some home =>
        refine ⟨.ok ((Path.ofText home).inside ⟨"", rest⟩), [.environment "HOME"],
          fun w' hw' => ?_⟩
        rw [run_bind (run_environment ..), hw', hhome]
        rfl
    · split
      · exact ⟨_, [], fun w' _ => by rw [noting_nil]; rfl⟩
      · exact ⟨_, [], fun w' _ => by rw [noting_nil]; rfl⟩

lemma expands_of_environment (h : (w.run (expand path)).1 = .ok p)
    (hsame : w'.environment = w.environment) : (w'.run (expand path)).1 = .ok p := by
  obtain ⟨outcome, asked, hexpand⟩ := run_expand w path
  rw [hexpand w' hsame, ← h, hexpand w rfl]

/-- Fields are gone through up to the first of another name that cannot be shown. -/
lemma run_applyFields (w : Recorded) (s : Settings α) (fields : List (Key × α)) :
    ∃ asked, w.run (applyFields s fields) =
      (unlessFault (hiddenFault fields) (s.withFields fields), w.noting asked) := by
  induction fields generalizing w s with
  | nil => exact ⟨[], by rw [noting_nil]; rfl⟩
  | cons f rest ih =>
    rw [applyFields, hiddenFault]
    cases hsetting : f.1.setting? with
    | some k =>
      rw [Settings.withFields_cons_setting hsetting]
      exact ih w (s.set k f.2)
    | none =>
      rw [Settings.withFields_cons_other hsetting]
      cases f.1.shown with
      | error e =>
        refine ⟨[], ?_⟩
        rw [noting_nil]
        exact run_bind_error (run_settle ..)
      | ok shown =>
        obtain ⟨asked, hrest⟩ := ih (w.noting _) s
        dsimp only
        rw [run_bind (run_settle ..), run_bind (run_log ..), hrest, noting_noting]
        exact ⟨_, rfl⟩

/-- A setting gets the value of its variable, if there is one. -/
lemma run_applyEnvironment_cons (y : Codec α) (w : Recorded) (k : Setting) (rest : List Setting)
    (s : Settings α) :
    ∃ asked, w.run (applyEnvironment y (k :: rest) s) = (w.noting asked).run
      (applyEnvironment y rest (s.set k (k.valueIn y w.environment (s k)))) := by
  rw [applyEnvironment, Setting.valueIn]
  cases k.environmentName? with
  | none =>
    refine ⟨[], ?_⟩
    rw [noting_nil]
    dsimp only [Option.bind_none]
    rw [Settings.set_self]
  | some name =>
    refine ⟨[.environment name], ?_⟩
    dsimp only [Option.bind_some]
    rw [run_bind (run_environment ..)]
    cases w.environment.lookup name with
    | none =>
      dsimp only
      rw [Settings.set_self]
    | some v =>
      dsimp only
      by_cases hv : v = ""
      · rw [if_pos hv, if_pos hv, Settings.set_self]
      · rw [if_neg hv, if_neg hv]

/-- The settings of the environment take the place of the others. -/
lemma run_applyEnvironment (y : Codec α) (w : Recorded) (ks : List Setting) (s : Settings α) :
    ∃ asked, w.run (applyEnvironment y ks s) =
      (.ok fun k => if k ∈ ks then k.valueIn y w.environment (s k) else s k, w.noting asked) := by
  induction ks generalizing w s with
  | nil => exact ⟨[], by rw [noting_nil]; rfl⟩
  | cons j ks ih =>
    obtain ⟨asked, hfirst⟩ := run_applyEnvironment_cons y w j ks s
    obtain ⟨more, hrest⟩ := ih (w.noting asked) (s.set j (j.valueIn y w.environment (s j)))
    refine ⟨asked ++ more, ?_⟩
    rw [hfirst, hrest, noting_noting, environment_noting]
    congr 2
    funext k
    by_cases hk : k = j
    · simp [Settings.set, hk, Setting.valueIn_valueIn]
    · simp [Settings.set, hk]

/-- The fields that a file provides by what is loaded from it. Only a mapping has some, and they
must be such that all of them can be gone through. -/
def fieldsOf : Except Unloaded (Contents α) → Except Fault (List (Key × α))
  | .ok (.mapping fields) => unlessFault (hiddenFault fields) fields
  | .ok .empty => .ok []
  | .ok (.other f) => .error f
  | .error (.refused _) => .ok []
  | .error (.failed f) => .error f

/-- The fields that are provided at a path; there are none where nothing can be read. -/
def provided (y : Codec α) (files : Outside.Files) (p : Path) : Except Fault (List (Key × α)) :=
  match files.read p with
  | some octets => fieldsOf (y.load octets)
  | none => .ok []

lemma run_warn (w : Recorded) (p : Path) (why : String) :
    ∃ asked, w.run (warn p why) = (.ok (), w.noting asked) := by
  unfold warn
  rw [run_bind (run_log ..), run_say, noting_noting]
  exact ⟨_, rfl⟩

/-- The settings get what a file holds. -/
lemma run_applyContents (w : Recorded) (contents : Contents α) (s : Settings α) :
    ∃ asked, w.run (applyContents s contents) =
      ((fieldsOf (.ok contents)).map s.withFields, w.noting asked) := by
  cases contents with
  | mapping fields =>
    obtain ⟨asked, hrun⟩ := run_applyFields w s fields
    refine ⟨asked, hrun.trans ?_⟩
    rw [fieldsOf]
    cases hiddenFault fields <;> rfl
  | empty => exact ⟨[], by rw [noting_nil]; rfl⟩
  | other f => exact ⟨[], by rw [noting_nil]; rfl⟩

/-- The settings get what their file provides. -/
lemma run_applyFile (y : Codec α) (w : Recorded) (p : Path) (s : Settings α) :
    ∃ asked, w.run (applyFile y p s) =
      ((provided y w.files p).map s.withFields, w.noting asked) := by
  unfold applyFile provided
  rw [run_bind (run_kindOf ..)]
  cases hread : w.files.read p with
  | none =>
    cases w.files.kindOf p with
    | none => exact ⟨_, rfl⟩
    | some kind =>
      obtain ⟨asked, hwarn⟩ := run_warn ((w.noting [.kindOf p]).noting [.fileContent p]) p
        "the file cannot be read"
      dsimp only
      rw [run_bind (run_fileContent ..), files_noting, hread]
      dsimp only
      rw [run_bind hwarn, run_pure, noting_noting, noting_noting]
      exact ⟨_, rfl⟩
  | some octets =>
    rw [Outside.Files.kindOf_of_read hread]
    dsimp only
    rw [run_bind (run_fileContent ..), files_noting, hread, noting_noting]
    dsimp only
    cases y.load octets with
    | ok contents =>
      obtain ⟨asked, hcontents⟩ :=
        run_applyContents (w.noting ([.kindOf p] ++ [.fileContent p])) contents s
      dsimp only
      rw [hcontents, noting_noting]
      exact ⟨_, rfl⟩
    | error unloaded =>
      cases unloaded with
      | refused why =>
        obtain ⟨asked, hwarn⟩ := run_warn (w.noting ([.kindOf p] ++ [.fileContent p])) p why
        dsimp only
        rw [run_bind hwarn, run_pure, noting_noting]
        exact ⟨_, rfl⟩
      | failed f => exact ⟨_, rfl⟩

/-- The settings of a file, and those of the environment if asked for. -/
def loaded (y : Codec α) (environment : List (String × String)) (fields : List (Key × α))
    (useEnvironment : Bool) : Settings α :=
  fun k => k.valueIn y (if useEnvironment then environment else [])
    ((valueUnder k fields).getD (y.ofValue k.default))

/-- Settings are loaded when there is a path, and then nothing happens but notes. -/
lemma run_start_of_expands (y : Codec α) (hexpands : (w.run (expand path)).1 = .ok p)
    (useEnvironment : Bool) :
    ∃ asked, w.run (start y path useEnvironment) =
      ((provided y w.files p).map fun fields =>
        ⟨p, useEnvironment, loaded y w.environment fields useEnvironment⟩, w.noting asked) := by
  obtain ⟨outcome, asked, hexpand⟩ := run_expand w path
  have hexpand : w.run (expand path) = (.ok p, w.noting asked) := by
    rw [hexpand w rfl] at hexpands ⊢
    rw [← hexpands]
  obtain ⟨more, hfile⟩ := run_applyFile y (w.noting asked) p y.defaults
  unfold start load loaded
  rw [run_bind hexpand]
  dsimp only
  rw [files_noting, noting_noting] at hfile
  cases hprovided : provided y w.files p with
  | error f =>
    rw [hprovided] at hfile
    rw [run_bind_error hfile]
    exact ⟨_, rfl⟩
  | ok fields =>
    rw [hprovided] at hfile
    rw [run_bind hfile]
    cases useEnvironment with
    | false =>
      refine ⟨_, congrArg (fun s => (Except.ok (SettingsFile.mk p false s), w.noting _)) ?_⟩
      funext k
      exact (Setting.valueIn_nil ..).symm
    | true =>
      obtain ⟨others, henvironment⟩ := run_applyEnvironment y (w.noting (asked ++ more))
        Setting.every (y.defaults.withFields fields)
      rw [if_pos rfl, run_bind henvironment, run_pure, noting_noting]
      refine ⟨_, congrArg (fun s => (Except.ok (SettingsFile.mk p true s), w.noting _)) ?_⟩
      funext k
      rw [if_pos (Setting.mem_every k)]
      rfl

/-! ## What a file may hold -/

/-- The value that a file gives to a setting, if it holds a mapping that does. -/
def given (y : Codec α) (files : Outside.Files) (p : Path) (k : Setting) : Option α :=
  match files.read p with
  | none => none
  | some octets =>
    match y.load octets with
    | .ok (.mapping fields) => valueUnder k fields
    | _ => none

/-- A world with a settings file at a place, a home folder, and a private key in the environment. -/
def settingsWorld (place : List String) (text : String) : Recorded where
  clock := 1700000000000
  environment := [("HOME", "/home/me"), ("HEDERA_PRIVATE_KEY", "0xsecret")]
  files := { entries := [(place, some (Text.Utf8.encode text))], working := ["work"] }
  replies := ⟨[], .noFile ""⟩
  receipts := ⟨[], .noFile ""⟩
  pages := ⟨[], .noFile ""⟩
  outputs := ⟨[], .noFile ""⟩
  compilers := []
  nonce := 7
  gasPrice := 10
  account := .ok "0x1"
  history := []

/-- The place of the standard settings file in that world. -/
def standardPlace : List String := ["home", "me", ".lexaudit", "config.yaml"]

lemma expand_standard (h : w.environment.lookup "HOME" = some "/home/me") :
    (w.run (expand standardPath)).1 = .ok ⟨"/", standardPlace⟩ := by
  have hpath : Path.ofText standardPath = ⟨"", ["~", ".lexaudit", "config.yaml"]⟩ := by
    decide +kernel
  have hhome : Path.ofText "/home/me" = ⟨"/", ["home", "me"]⟩ := by decide +kernel
  unfold expand
  rw [hpath]
  dsimp only
  rw [if_pos (by decide), run_bind (run_environment ..), h]
  dsimp only
  rw [hhome]
  rfl

lemma expand_relative (w : Recorded) : (w.run (expand "c.yaml")).1 = .ok ⟨"", ["c.yaml"]⟩ := by
  have hpath : Path.ofText "c.yaml" = ⟨"", ["c.yaml"]⟩ := by decide +kernel
  have htilde : "c.yaml".startsWith "~" = false := by decide +kernel
  unfold expand
  rw [hpath]
  dsimp only
  rw [if_neg (by decide), htilde]
  rfl

deriving instance DecidableEq for Yaml.Document

end SettingsFile

end SolidityAudit
