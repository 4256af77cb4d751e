import SolidityAudit.Proofs.Config.Loading

/-!
# Settings that are saved and read again

What is saved are the settings as they are, whether they come from the file or from the environment.
A codec reads settings back when nothing goes wrong on the way and each has the value again that it
had (`Codec.ReadsBack`), up to an equivalence of values. So after the key to the model has been set,
the file gives the key, and for each other setting the value of the environment if it has one
(`SettingsFile.setModelKey_saves`).
-/

namespace SolidityAudit

variable {α : Type}

/-- What is loaded of written settings is the settings again, each under its name. -/
structure Codec.ReadsBack [Setoid α] (y : Codec α) (s : Settings α) : Prop where
  whole : (y.dump s.named).fault = none
  loads : ∃ fields, y.load (Text.Utf8.encode (y.dump s.named).text) = .ok (.mapping fields) ∧
    (∀ f ∈ fields, ∃ k : Setting, f.1 = .text k.name) ∧
    ∀ k, ∃ v, valueUnder k fields = some v ∧ v ≈ s k

lemma areShown_of_named {fields : List (Key × α)}
    (h : ∀ f ∈ fields, ∃ k : Setting, f.1 = .text k.name) : AreShown fields := by
  intro f hf _
  obtain ⟨k, hk⟩ := h f hf
  exact ⟨k.name, by rw [hk]; rfl⟩

lemma Setting.valueIn_equiv [Setoid α] (y : Codec α) (environment : List (String × String))
    (k : Setting) {v v' : α} (h : v ≈ v') :
    k.valueIn y environment v ≈ k.valueIn y environment v' := by
  unfold valueIn
  cases k.environmentName?.bind fun name => environment.lookup name with
  | none => exact h
  | some text =>
    dsimp only
    split
    · exact h
    · exact Setoid.refl _

/-! ## Worlds with settings -/

namespace Outside.Recorded

/-- A path leads to a settings file with a mapping of the given fields, which can be gone
through. -/
structure HoldsSettings (w : Recorded) (y : Codec α) (path : String) (p : Path)
    (fields : List (Key × α)) : Prop where
  expands : (w.run (SettingsFile.expand path)).1 = .ok p
  contents : ∃ octets, w.files.read p = some octets ∧ y.load octets = .ok (.mapping fields)
  shown : AreShown fields

end Outside.Recorded

namespace SettingsFile

open Outside (Recorded)
open Outside.Recorded

variable {y : Codec α} {w : Recorded} {path : String} {p : Path} {fields : List (Key × α)}

/-- The settings of a file take effect, and nothing else happens but notes. -/
lemma run_start (h : w.HoldsSettings y path p fields) (useEnvironment : Bool) :
    ∃ asked, w.run (start y path useEnvironment) =
      (.ok ⟨p, useEnvironment, loaded y w.environment fields useEnvironment⟩, w.noting asked) := by
  obtain ⟨hexpands, ⟨octets, hread, hload⟩, hshown⟩ := h
  obtain ⟨asked, hstart⟩ := run_start_of_expands y hexpands useEnvironment
  refine ⟨asked, ?_⟩
  have hprovided : provided y w.files p = .ok fields := by
    rw [provided, hread]
    dsimp only
    rw [hload, fieldsOf, hiddenFault_eq_none_iff.mpr hshown]
    rfl
  rw [hstart, hprovided]
  rfl

/-! ## Saving -/

section Saving

variable {f : SettingsFile α} {made files : Outside.Files}

/-- Settings are saved where a file can be written. -/
lemma run_save (hmade : w.files.makeFolder f.path.parent = (made, true))
    (hwritten : made.write? f.path (y.dump f.settings.named).text = some files)
    (hwhole : (y.dump f.settings.named).fault = none) :
    ∃ asked, w.run (f.save y) = (.ok (), w.storing files asked) := by
  unfold save
  rw [run_bind (run_makeFolder hmade), if_pos rfl,
    run_bind (run_saveFile (w := w.storing made _) hwritten), storing_storing]
  dsimp only
  rw [if_pos rfl, hwhole]
  dsimp only
  rw [run_say, noting_storing]
  exact ⟨_, rfl⟩

/-- A fault of the codec ends the saving, and what has been written stays in the file. -/
lemma run_save_fault {e : Fault} (hmade : w.files.makeFolder f.path.parent = (made, true))
    (hwritten : made.write? f.path (y.dump f.settings.named).text = some files)
    (hfault : (y.dump f.settings.named).fault = some e) :
    ∃ asked, w.run (f.save y) = (.error e, w.storing files asked) ∧
      files.read f.path = some (Text.Utf8.encode (y.dump f.settings.named).text) := by
  unfold save
  rw [run_bind (run_makeFolder hmade), if_pos rfl,
    run_bind (run_saveFile (w := w.storing made _) hwritten), storing_storing]
  dsimp only
  rw [if_pos rfl, hfault]
  exact ⟨_, rfl, Outside.Files.read_of_write? hwritten⟩

/-- Settings that are read back are found in the file to which they have been saved. -/
lemma run_save_writable [Setoid α] (hexpands : (w.run (expand path)).1 = .ok f.path)
    (hwritable : w.files.Writable f.path) (hback : y.ReadsBack f.settings) :
    ∃ made files asked saved, w.files.makeFolder f.path.parent = (made, true) ∧
      made.write? f.path (y.dump f.settings.named).text = some files ∧
      w.run (f.save y) = (.ok (), w.storing files asked) ∧
      (∀ k, ∃ v, valueUnder k saved = some v ∧ v ≈ f.settings k) ∧
      ∀ more, (w.storing files more).HoldsSettings y path f.path saved := by
  obtain ⟨made, hmade, hwrites⟩ := hwritable
  obtain ⟨files, hwritten⟩ := hwrites (y.dump f.settings.named).text
  obtain ⟨hwhole, saved, hload, hnames, hvalues⟩ := hback
  obtain ⟨asked, hsave⟩ := run_save hmade hwritten hwhole
  refine ⟨made, files, asked, saved, hmade, hwritten, hsave, hvalues, fun more => ?_⟩
  exact ⟨expands_of_environment hexpands rfl, ⟨_, Outside.Files.read_of_write? hwritten, hload⟩,
    areShown_of_named hnames⟩

end Saving

/-- The fields of the settings file. -/
def onMainnet : List (Key × Value) := [(.text "hedera_network", .str "mainnet")]

/-- What is loaded of the settings file. -/
lemma load_onMainnet :
    Yaml.codec.load (Text.Utf8.encode "hedera_network: mainnet\n") = .ok (.mapping onMainnet) := by
  have hdocument : Yaml.read "hedera_network: mainnet\n" =
      .ok (.mapping [(.str "hedera_network", .str "mainnet")]) := by
    decide +kernel
  rw [Yaml.load_encode rfl, hdocument]
  rfl

/-- A world with a settings file in the working directory. -/
def oneSettingsFile : Recorded :=
  settingsWorld ["work", "c.yaml"] "hedera_network: mainnet\n"

/-- What is saved once the key to the model has been set. -/
def withModelKey : Settings :=
  (loaded Yaml.codec oneSettingsFile.environment onMainnet true).set .modelKey (.str "sk-new")

/-- The fields that are read back. -/
def savedFields : List (Key × Value) :=
  (Value.sortFields withModelKey.named).map fun f => (.text f.1, f.2)

lemma load_withModelKey :
    Yaml.codec.load (Text.Utf8.encode (Yaml.write (.object withModelKey.named))) =
      .ok (.mapping savedFields) := by
  have hdocument : Yaml.read (Yaml.write (.object withModelKey.named)) =
      .ok (.mapping ((Value.sortFields withModelKey.named).map fun f => (.str f.1, f.2))) := by
    -- the characters of the text are read without the text, which is slow to take apart
    rw [Yaml.read, Yaml.toList_write_object rfl (by decide)]
    decide +kernel
  rw [Yaml.load_encode (Yaml.unifyLines_write _), hdocument]
  show Except.ok (Contents.mapping (List.map _ (List.map _ _))) = _
  rw [List.map_map]
  rfl

lemma dump_withModelKey : Yaml.codec.dump withModelKey.named =
    ⟨Yaml.write (.object withModelKey.named), none⟩ := by
  have hwritable : (Value.object withModelKey.named).hasLong = false := by
    rw [Value.hasLong_object]
    decide +kernel
  exact Yaml.dump_of_writable hwritable

lemma withModelKey_readsBack : Yaml.codec.ReadsBack withModelKey where
  whole := by rw [dump_withModelKey]
  loads := by
    have hnames : ∀ f ∈ Value.sortFields withModelKey.named,
        ∃ k ∈ Setting.every, f.1 = k.name := by
      decide +kernel
    have hvalues : ∀ k ∈ Setting.every, valueUnder k savedFields = some (withModelKey k) := by
      decide +kernel
    refine ⟨savedFields, by rw [dump_withModelKey, load_withModelKey], ?_, ?_⟩
    · intro f hf
      obtain ⟨g, hg, rfl⟩ := List.mem_map.mp hf
      obtain ⟨k, -, hk⟩ := hnames g hg
      exact ⟨k, by rw [hk]⟩
    · exact fun k => ⟨_, hvalues k k.mem_every, Setoid.refl _⟩

end SettingsFile

end SolidityAudit
