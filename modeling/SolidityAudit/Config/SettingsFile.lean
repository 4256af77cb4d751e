import SolidityAudit.Config.Codec
import SolidityAudit.Outside.Request

/-!
# The settings file

Settings are kept in a file and may be overridden by environment variables. A file that cannot be
read leaves the settings as they are.
-/

namespace SolidityAudit

/-- Settings and the file that keeps them. -/
structure SettingsFile (α : Type := Value) where
  path : Path
  useEnvironment : Bool
  settings : Settings α

namespace SettingsFile

variable {α : Type}

/-- Where settings are kept unless told otherwise. -/
def standardPath : String := "~/.lexaudit/config.yaml"

/-- The path that a text writes; a tilde at its start stands for the home directory. -/
def expand (s : String) : Action Path := do
  let path := Path.ofText s
  match path.parts with
  | first :: rest =>
    if path.root = "" && first = "~" then
      match ← Action.ask (.environment "HOME") with
      | some home => return (Path.ofText home).inside ⟨"", rest⟩
      | none => throw (.outside .broken "Could not determine home directory.")
    else if path.root = "" && first.startsWith "~" then
      throw (.outside .broken "Could not determine home directory.")
    else return path
  | [] => return path

/-! ## Loading -/

/-- The settings with the fields of a mapping. Fields of other names are noted. -/
def applyFields (settings : Settings α) : List (Key × α) → Action (Settings α)
  | [] => return settings
  | (key, v) :: rest => do
    match key.setting? with
    | some k => applyFields (settings.set k v) rest
    | none =>
      let shown ← Action.settle key.shown
      Action.log .debug ("Ignoring unknown config key: " ++ shown)
      applyFields settings rest

/-- The settings with those that a file holds. -/
def applyContents (settings : Settings α) : Contents α → Action (Settings α)
  | .mapping fields => applyFields settings fields
  | .empty => return settings
  | .other f => throw f

/-- What is shown of a file that cannot be read. -/
def warn (path : Path) (why : String) : Action Unit := do
  Action.log .warning ("Could not load config file " ++ path.text ++ ": " ++ why)
  Action.say ("[yellow]Warning: Could not load config file: " ++ why ++ "[/yellow]")

/-- The settings with those of the file, if there is one. -/
def applyFile (y : Codec α) (path : Path) (settings : Settings α) : Action (Settings α) := do
  match ← Action.ask (.kindOf path) with
  | none => return settings
  | some _ =>
    match ← Action.ask (.fileContent path) with
    | none => do
      warn path "the file cannot be read"
      return settings
    | some octets =>
      match y.load octets with
      | .ok contents => applyContents settings contents
      | .error (.refused why) => do
        warn path why
        return settings
      | .error (.failed f) => throw f

/-- The settings with those of the environment; an empty variable does not count. -/
def applyEnvironment (y : Codec α) : List Setting → Settings α → Action (Settings α)
  | [], settings => return settings
  | k :: rest, settings => do
    match k.environmentName? with
    | none => applyEnvironment y rest settings
    | some name =>
      match ← Action.ask (.environment name) with
      | some v =>
        applyEnvironment y rest
          (if v = "" then settings else settings.set k (y.ofValue (.str (Text.trim v))))
      | none => applyEnvironment y rest settings

/-- The settings of the file and then those of the environment take effect. -/
def load (y : Codec α) (f : SettingsFile α) : Action (SettingsFile α) := do
  let settings ← applyFile y f.path f.settings
  let settings ←
    if f.useEnvironment then applyEnvironment y Setting.every settings else pure settings
  return { f with settings }

/-- The settings of a file. -/
def start (y : Codec α) (path : String) (useEnvironment : Bool) : Action (SettingsFile α) := do
  load y { path := ← expand path, useEnvironment, settings := y.defaults }

/-! ## Saving -/

/-- The settings go into the file. What has been written before a fault stays there. -/
def save (y : Codec α) (f : SettingsFile α) : Action Unit := do
  let made ← Action.ask (.makeFolder f.path.parent)
  let dump := y.dump f.settings.named
  let written ← if made then Action.ask (.saveFile f.path dump.text) else pure false
  if written then
    match dump.fault with
    | none => Action.say ("[green]✓ Configuration saved to " ++ f.path.text ++ "[/green]")
    | some fault => throw fault
  else
    Action.say
      ("[red]✗ Failed to save config: " ++ f.path.text ++ " cannot be written[/red]")

/-- The key to the language model is set and saved. -/
def setModelKey (y : Codec α) (f : SettingsFile α) (key : α) : Action (SettingsFile α) := do
  let f := { f with settings := f.settings.set .modelKey key }
  f.save y
  Action.say "[green]✓ OpenAI API key configured[/green]"
  return f

/-! ## Showing -/

/-- How much of a secret is shown. -/
def shownLength : Nat := 4

/-- The length from which on a part of a secret is shown. -/
def longSecret : Nat := 8

/-- What is shown of a secret. -/
def mask (secret : Value) : Except Fault String :=
  if !secret.truthy then .ok ""
  else
    match secret, secret.length with
    | _, .error f => .error f
    | .str s, .ok n =>
      .ok (if longSecret < n then String.ofList (s.toList.take shownLength) ++ "…" else "****")
    | .list _, .ok n => if longSecret < n then .error (.notAdded .list .str) else .ok "****"
    | _, .ok n => if longSecret < n then .error .noSlice else .ok "****"

/-- The value of a setting, as shown. -/
def shownValue (settings : Settings) (k : Setting) : Except Fault String := do
  let shown ← if k.isSecret then mask (settings k) else (settings k).shown
  return if shown = "" then "-" else shown

/-- The settings go to the console. -/
def display (f : SettingsFile) : Action Unit := do
  let rows ← Action.settle (Setting.every.mapM fun k => do
    return [k.name, ← shownValue f.settings k])
  Action.ask (.print (.table "⚙️ LexAudit Configuration" ["Setting", "Value"] rows))
  Action.say ("\n[bold cyan]Config File:[/bold cyan] " ++ f.path.text)

end SettingsFile

end SolidityAudit
