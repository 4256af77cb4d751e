import SolidityAudit.Config.Settings

/-!
# How settings files are read and written

Settings are kept as a mapping. How its octets are read and how its text is written is left to a
codec, and so is which values there are.
-/

namespace SolidityAudit

/-- A key of a mapping. One that is no text is shown as a text, if it can be. -/
inductive Key
  | text (s : String)
  | other (shown : Except Fault String)

namespace Key

/-- What is shown of a key. -/
def shown : Key → Except Fault String
  | text s => .ok s
  | other shown => shown

/-- The setting that a key names. -/
def setting? : Key → Option Setting
  | text s => Setting.ofName? s
  | other _ => none

end Key

/-- What a settings file holds: a mapping, of whose fields with one key the last counts; nothing; or
something without fields, which leads to a fault. -/
inductive Contents (α : Type)
  | mapping (fields : List (Key × α))
  | empty
  | other (f : Fault)

/-- Why the contents of a settings file are not known. -/
inductive Unloaded
  /-- for a reason that is shown -/
  | refused (why : String)
  /-- by a fault that ends the program -/
  | failed (f : Fault)

/-- The text of a mapping as far as it has been written, and the fault that ended the writing. -/
structure Dump where
  text : String
  fault : Option Fault

/-- How settings files are read and written. The values may be anything; those that the program sets
itself are among them. -/
structure Codec (α : Type) where
  ofValue : Value → α
  load : List UInt8 → Except Unloaded (Contents α)
  dump : List (String × α) → Dump

/-- The settings when nothing is set, as values of a codec. -/
def Codec.defaults {α : Type} (y : Codec α) : Settings α :=
  fun k => y.ofValue k.default

end SolidityAudit
