import SolidityAudit.Number.Shortest
import SolidityAudit.Text.Quoted
import SolidityAudit.Value.Leaves

/-!
# How values are shown

`Value.literal` shows a value the way it stands inside lists and objects, with texts in quotes;
`Value.display` shows a text as it is. Both are meant for values whose integers can be written; for
any other value `Value.shown?` has no text.
-/

namespace SolidityAudit

/-- The names of the numbers without digits in shown values. -/
def Double.shownNames : Double.SpecialNames := ⟨"inf", "-inf", "nan"⟩

namespace Value

mutual

/-- A value as it stands inside a list. -/
def literal : Value → String
  | null => "None"
  | bool b => if b then "True" else "False"
  | int n => toString n
  | float x => x.text Double.shownNames
  | str s => Text.quoted s
  | list items => "[" ++ ", ".intercalate (literals items) ++ "]"
  | object fields => "\x7b" ++ ", ".intercalate (literalFields fields) ++ "\x7d"

/-- The items of a list, shown one by one. -/
def literals : List Value → List String
  | [] => []
  | v :: rest => literal v :: literals rest

/-- The fields of an object, shown one by one. -/
def literalFields : List (String × Value) → List String
  | [] => []
  | (k, v) :: rest => (Text.quoted k ++ ": " ++ literal v) :: literalFields rest

end

/-- A value as shown to a reader. -/
def display : Value → String
  | str s => s
  | v => literal v

/-- A value as shown to a reader, if its integers can be written. -/
def shown? (v : Value) : Option String :=
  if v.hasLong then none else some v.display

end Value

end SolidityAudit
