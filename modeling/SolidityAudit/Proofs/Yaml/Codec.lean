import SolidityAudit.Proofs.Text.Utf8
import SolidityAudit.Proofs.Value.Leaves
import SolidityAudit.Proofs.Yaml.Writer
import SolidityAudit.Yaml.Codec

/-!
# Settings files in YAML, read and written

What is loaded of a text is what the document of the text holds (`load_encode`). Values that are the
same but for the order of their keys are written alike (`dump_congr`).
-/

namespace SolidityAudit

/-- Values are taken as the same if they are but for the order of keys inside them. -/
instance Value.upToKeyOrder : Setoid Value :=
  ⟨fun v w => v.sortKeys = w.sortKeys, fun _ => rfl, Eq.symm, Eq.trans⟩

namespace Yaml

variable {text : String} {fields others : List (String × Value)}

lemma textOf_encode (h : Text.unifyLines text.toList = text.toList) :
    textOf (Text.Utf8.encode text) = .ok text := by
  unfold textOf
  rw [Text.Utf8.decode_encode]
  dsimp only
  rw [h, String.ofList_toList]

/-- What is loaded of a text whose lines end with line feeds. -/
lemma load_encode (h : Text.unifyLines text.toList = text.toList) :
    codec.load (Text.Utf8.encode text) =
      match read text with
      | .error cause => .error (.refused cause.text)
      | .ok document => .ok document.contents := by
  cases hread : read text with
  | error cause => simp only [codec, load, textOf_encode h, hread]
  | ok document => simp only [codec, load, textOf_encode h, hread]

lemma dump_of_writable (h : (Value.object fields).hasLong = false) :
    codec.dump fields = ⟨write (.object fields), none⟩ := by
  show dump fields = _
  rw [dump, h]
  rfl

/-- Fields are written alike if they are the same but for the order of keys. -/
lemma dump_congr (h : (Value.object fields).sortKeys = (Value.object others).sortKeys) :
    codec.dump fields = codec.dump others := by
  have hlong : (Value.object fields).hasLong = (Value.object others).hasLong := by
    rw [← Value.hasLong_sortKeys, h, Value.hasLong_sortKeys]
  show dump fields = dump others
  unfold dump write
  rw [hlong, h]

end Yaml

end SolidityAudit
