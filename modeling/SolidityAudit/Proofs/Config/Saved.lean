import SolidityAudit.Proofs.Config.SettingsFile
import SolidityAudit.Proofs.Yaml.Reader

/-!
# Settings that stay as they are

What is loaded is saved as it is, so it is loaded again from what was saved: the environment has
nothing to change in settings that it has changed already (`start_save_fixed`).
-/

namespace SolidityAudit

namespace Settings

variable {s t : Settings}

/-- Settings are sorted alike if they are the same but for the order of keys inside their values. -/
lemma sortKeys_named (h : ∀ k, s k ≈ t k) :
    (Value.object s.named).sortKeys = (Value.object t.named).sortKeys := by
  have hfields : s.named.map Value.sortField = t.named.map Value.sortField := by
    unfold named
    rw [List.map_map, List.map_map]
    exact List.map_congr_left fun k _ => congrArg (Prod.mk k.name) (h k)
  show Value.object (Value.sortFields _) = Value.object (Value.sortFields _)
  rw [Value.sortFields_eq_insertionSort, Value.sortFields_eq_insertionSort, hfields]

end Settings

/-- With settings that are read back, those that are the same but for the order of keys are, too. -/
lemma Yaml.readsBack_of_equiv {s t : Settings} (h : ∀ k, s k ≈ t k)
    (ht : Yaml.codec.ReadsBack t) : Yaml.codec.ReadsBack s := by
  have hdump : Yaml.codec.dump s.named = Yaml.codec.dump t.named :=
    Yaml.dump_congr (Settings.sortKeys_named h)
  obtain ⟨hwhole, fields, hload, hnames, hvalues⟩ := ht
  refine ⟨by rw [hdump, hwhole], fields, by rw [hdump, hload], hnames, fun k => ?_⟩
  obtain ⟨v, hv, hsame⟩ := hvalues k
  exact ⟨v, hv, Setoid.trans hsame (Setoid.symm (h k))⟩

namespace SettingsFile

open Outside (Recorded)
open Outside.Recorded

variable {α : Type} {y : Codec α} {w : Recorded} {path : String} {p : Path}
  {fields : List (Key × α)}

/-- A file holds a mapping of the given fields, or there is no file and there are no fields. -/
def Holds (y : Codec α) (files : Outside.Files) (p : Path) (fields : List (Key × α)) : Prop :=
  (files.read p = none ∧ fields = []) ∨
    ∃ octets, files.read p = some octets ∧ y.load octets = .ok (.mapping fields)

lemma provided_of_holds (h : Holds y w.files p fields) :
    provided y w.files p = unlessFault (hiddenFault fields) fields := by
  unfold provided
  rcases h with ⟨hread, rfl⟩ | ⟨octets, hread, hload⟩
  · rw [hread]
    rfl
  · rw [hread]
    dsimp only
    rw [hload, fieldsOf]

/-- What was loaded is loaded again from what is read back of it. -/
lemma loaded_of_readsBack [Setoid α] {environment : List (String × String)}
    {saved : List (Key × α)} {b : Bool}
    (h : ∀ k, ∃ v, valueUnder k saved = some v ∧ v ≈ loaded y environment fields b k)
    (k : Setting) : loaded y environment saved b k ≈ loaded y environment fields b k := by
  obtain ⟨v, hv, hsame⟩ := h k
  have hkept := Setting.valueIn_equiv y (if b then environment else []) k hsame
  rw [loaded, Setting.valueIn_valueIn] at hkept
  rw [loaded, hv]
  exact hkept

/-- A file that holds a mapping, or is not there, ends the program if a field of another name cannot
be shown. Otherwise each setting has the value of its variable if that counts, else the value of the
mapping, else its default. Settings that are saved and loaded again are the same, as far as the
codec reads them back, and so they are when this is done once more. -/
theorem start_save_fixed [Setoid α] (y : Codec α) (hexpands : (w.run (expand path)).1 = .ok p)
    (hholds : Holds y w.files p fields) (useEnvironment : Bool) :
    (∀ e, hiddenFault fields = some e → (w.run (start y path useEnvironment)).1 = .error e) ∧
    (hiddenFault fields = none →
      ∃ f w₁, w.run (start y path useEnvironment) = (.ok f, w₁) ∧
        (∀ k, f.settings k = k.valueIn y (if useEnvironment then w.environment else [])
          ((valueUnder k fields).getD (y.ofValue k.default))) ∧
        (w.files.Writable p → (∀ s, (∀ k, s k ≈ f.settings k) → y.ReadsBack s) →
          ∃ w₂ g w₃ w₄ h, w₁.run (f.save y) = (.ok (), w₂) ∧
            w₂.run (start y path useEnvironment) = (.ok g, w₃) ∧
            (∀ k, g.settings k ≈ f.settings k) ∧
            w₃.run (g.save y) = (.ok (), w₄) ∧
            (w₄.run (start y path useEnvironment)).1 = .ok h ∧
            (∀ k, h.settings k ≈ g.settings k) ∧
            (y.dump g.settings.named = y.dump f.settings.named → w₄.files = w₂.files))) := by
  obtain ⟨asked, hstart⟩ := run_start_of_expands y hexpands useEnvironment
  rw [provided_of_holds hholds] at hstart
  refine ⟨fun e he => by rw [hstart, he]; rfl, fun hshown => ?_⟩
  rw [hshown] at hstart
  let f : SettingsFile α := ⟨p, useEnvironment, loaded y w.environment fields useEnvironment⟩
  refine ⟨f, _, hstart, fun k => rfl, fun hwritable hback => ?_⟩
  -- the settings go into the file and come back from there
  obtain ⟨made, files, asked₂, saved, -, hwritten, hsave, hvalues, hfile⟩ :=
    run_save_writable (w := w.noting asked) (f := f) (expands_of_environment hexpands rfl)
      hwritable (hback f.settings fun k => Setoid.refl _)
  obtain ⟨asked₃, hstart₂⟩ := run_start (hfile asked₂) useEnvironment
  have hkept (k : Setting) :
      loaded y w.environment saved useEnvironment k ≈ f.settings k := loaded_of_readsBack hvalues k
  -- and so they do once more
  let g : SettingsFile α := ⟨p, useEnvironment, loaded y w.environment saved useEnvironment⟩
  have hread := Outside.Files.read_of_write? hwritten
  obtain ⟨made', files', asked₄, saved', hmade', hwritten', hsave₂, hvalues', hfile'⟩ :=
    run_save_writable (w := ((w.noting asked).storing files asked₂).noting asked₃) (f := g)
      (expands_of_environment hexpands rfl) (Outside.Files.writable_of_read hread)
      (hback g.settings hkept)
  obtain ⟨asked₅, hstart₃⟩ := run_start (hfile' asked₄) useEnvironment
  refine ⟨_, g, _, _, _, hsave, hstart₂, hkept, hsave₂, congrArg Prod.fst hstart₃,
    loaded_of_readsBack hvalues', fun hsame => ?_⟩
  -- the same text is written once more into the same files
  obtain ⟨hunmade, -⟩ := Outside.Files.overwrite hread ""
  obtain rfl : files = made' := congrArg Prod.fst (hunmade.symm.trans hmade')
  rw [hsame] at hwritten'
  exact Option.some.inj (hwritten'.symm.trans (Outside.Files.write?_write? hwritten))

/-- A world with the standard settings file, and the key to the model in the environment as well. -/
def paddedKey : Recorded :=
  let w := settingsWorld standardPlace "hedera_network: mainnet\n"
  { w with environment := ("OPENAI_API_KEY", " sk-new ") :: w.environment }

lemma loaded_paddedKey : loaded Yaml.codec paddedKey.environment onMainnet true = withModelKey := by
  funext k
  cases k <;> rfl

/-- The key gets into the file without the spaces around it, and stays there. -/
theorem paddedKey_fixed :
    (paddedKey.run (expand standardPath)).1 = .ok ⟨"/", standardPlace⟩ ∧
    Holds Yaml.codec paddedKey.files ⟨"/", standardPlace⟩ onMainnet ∧
    hiddenFault onMainnet = none ∧ paddedKey.files.Writable ⟨"/", standardPlace⟩ ∧
    ∃ f w₁, paddedKey.run (start Yaml.codec standardPath true) = (.ok f, w₁) ∧
      f.settings .modelKey = .str "sk-new" ∧ f.settings .network = .str "mainnet" ∧
      (∀ s, (∀ k, s k ≈ f.settings k) → Yaml.codec.ReadsBack s) ∧
      ∃ w₂ g w₃ w₄ h, w₁.run (f.save Yaml.codec) = (.ok (), w₂) ∧
        w₂.run (start Yaml.codec standardPath true) = (.ok g, w₃) ∧
        (∀ k, g.settings k ≈ f.settings k) ∧
        w₃.run (g.save Yaml.codec) = (.ok (), w₄) ∧
        (w₄.run (start Yaml.codec standardPath true)).1 = .ok h ∧
        (∀ k, h.settings k ≈ g.settings k) ∧ w₄.files = w₂.files := by
  have hexpands : (paddedKey.run (expand standardPath)).1 = .ok ⟨"/", standardPlace⟩ :=
    expand_standard rfl
  have hread : paddedKey.files.read ⟨"/", standardPlace⟩ =
      some (Text.Utf8.encode "hedera_network: mainnet\n") := rfl
  have hholds : Holds Yaml.codec paddedKey.files ⟨"/", standardPlace⟩ onMainnet :=
    .inr ⟨_, hread, load_onMainnet⟩
  have hshown : hiddenFault onMainnet = none := rfl
  have hwritable := Outside.Files.writable_of_read hread
  obtain ⟨-, hloads⟩ := start_save_fixed Yaml.codec hexpands hholds true
  obtain ⟨f, w₁, hstart, hvalues, hsaves⟩ := hloads hshown
  have hloaded : f.settings = withModelKey := by
    rw [← loaded_paddedKey]
    exact funext hvalues
  have hback (s : Settings) (hs : ∀ k, s k ≈ f.settings k) : Yaml.codec.ReadsBack s :=
    Yaml.readsBack_of_equiv (hloaded ▸ hs) withModelKey_readsBack
  obtain ⟨w₂, g, w₃, w₄, h, hsave, hstart₂, hkept, hsave₂, hstart₃, hkept₂, hsame⟩ :=
    hsaves hwritable hback
  refine ⟨hexpands, hholds, hshown, hwritable, f, w₁, hstart, ?_, ?_, hback, w₂, g, w₃, w₄, h,
    hsave, hstart₂, hkept, hsave₂, hstart₃, hkept₂,
    hsame (Yaml.dump_congr (Settings.sortKeys_named hkept))⟩
  · rw [hloaded]
    rfl
  · rw [hloaded]
    rfl

/-! ## A key with too many digits -/

lemma shown_hexInteger : (Yaml.hexInteger 3600).shown = .error .unwritableInteger := by
  have hlong : (Yaml.hexInteger 3600).hasLong = true :=
    Value.hasLong_int.mpr (by decide +kernel)
  rw [Value.shown, Value.shown?, hlong]
  rfl

/-- A file with a mapping ends the program because of a key that names no setting. -/
theorem longKey_not_loaded :
    let w := settingsWorld ["work", "c.yaml"] (String.ofList (Yaml.hexKey 3600))
    Holds Yaml.codec w.files ⟨"", ["c.yaml"]⟩
      [(.other (.error .unwritableInteger), .int 1)] ∧
    (w.run (start Yaml.codec "c.yaml" false)).1 = .error .unwritableInteger := by
  have hholds : Holds Yaml.codec
      (settingsWorld ["work", "c.yaml"] (String.ofList (Yaml.hexKey 3600))).files
      ⟨"", ["c.yaml"]⟩ [(.other (.error .unwritableInteger), .int 1)] := by
    refine .inr ⟨_, rfl, ?_⟩
    rw [Yaml.load_hexKey (by decide), shown_hexInteger]
  obtain ⟨asked, hstart⟩ := run_start_of_expands Yaml.codec (expand_relative _) false
  rw [provided_of_holds hholds] at hstart
  exact ⟨hholds, by rw [hstart]; rfl⟩

end SettingsFile

end SolidityAudit
