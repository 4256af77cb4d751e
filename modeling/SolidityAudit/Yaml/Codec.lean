import SolidityAudit.Config.Codec
import SolidityAudit.Yaml.Reader
import SolidityAudit.Yaml.Writer

/-!
# Settings files in YAML

The codec of a settings file in YAML. Octets that are no text lead to a fault, and so does an
integer that is too long to be written.
-/

namespace SolidityAudit.Yaml

/-- Whether the octets from a fault on are held back until the file ends: the beginning of a
character, or the first two octets of a surrogate. -/
def isHeldBack (octets : List UInt8) (u : Text.Undecodable) : Bool :=
  u.cause = .unfinished ||
    match octets.drop u.place with
    | [first, second] => first.toNat == 0xED && 0xA0 ≤ second.toNat && second.toNat ≤ 0xBF
    | _ => false

/-- The text of a file that is read bit by bit: octets that were held back are reported by their own
place. -/
def textOf (octets : List UInt8) : Except Fault String :=
  match Text.Utf8.decode octets with
  | .ok cs => .ok (String.ofList (Text.unifyLines cs))
  | .error u => .error (.undecodable (if isHeldBack octets u then { u with place := 0 } else u))

/-- A value as a key. -/
def keyOfValue : Value → Key
  | .str s => .text s
  | v => .other v.shown

/-- What a document holds as settings. -/
def Document.contents : Document → Contents Value
  | .mapping fields => .mapping (fields.map fun (k, v) => (keyOfValue k, v))
  | .other v => if v.truthy then .other (.noAttribute v.kind "items") else .empty

/-- What the octets of a file hold as settings. -/
def load (octets : List UInt8) : Except Unloaded (Contents Value) :=
  match textOf octets with
  | .error f => .error (.failed f)
  | .ok text =>
    match read text with
    | .error cause => .error (.refused cause.text)
    | .ok document => .ok document.contents

/-- The text of fields. Nothing is written if an integer is too long. -/
def dump (fields : List (String × Value)) : Dump :=
  if (Value.object fields).hasLong then ⟨"", some .unwritableInteger⟩
  else ⟨write (.object fields), none⟩

/-- The codec of YAML. -/
def codec : Codec Value := ⟨id, load, dump⟩

end SolidityAudit.Yaml
