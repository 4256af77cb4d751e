import SolidityAudit.Number.Shortest
import SolidityAudit.Text.Quoted
import SolidityAudit.Value.Leaves
import SolidityAudit.Value.Sorted

/-!
# Writing JSON

Every text is written in ASCII: what lies outside is escaped, in surrogate pairs beyond the basic
plane. The layouts differ in the marks between items and in the order of keys. In none of them is
there a text of a value that holds an integer with too many digits.
-/

namespace SolidityAudit.Json

/-- The names of the numbers without digits. -/
def floatNames : Double.SpecialNames := ⟨"Infinity", "-Infinity", "NaN"⟩

/-- A character as it stands inside a string. -/
def charText (c : Char) : String :=
  let n := c.toNat
  if c = '"' then "\\\""
  else if c = '\\' then "\\\\"
  else if c = '\n' then "\\n"
  else if c = '\r' then "\\r"
  else if c = '\t' then "\\t"
  else if n = 0x08 then "\\b"
  else if n = 0x0C then "\\f"
  else if 0x20 ≤ n ∧ n < 0x7F then String.singleton c
  else if n < 0x10000 then "\\u" ++ Text.hexDigits 4 n
  else
    "\\u" ++ Text.hexDigits 4 (0xD800 + (n - 0x10000) / 0x400)
      ++ "\\u" ++ Text.hexDigits 4 (0xDC00 + (n - 0x10000) % 0x400)

/-- A text as a JSON string. -/
def stringText (s : String) : String :=
  "\"" ++ String.join (s.toList.map charText) ++ "\""

/-- The marks after an item and after a key. -/
structure Marks where
  item : String
  key : String

/-- Marks followed by a blank. -/
def Marks.spaced : Marks := ⟨", ", ": "⟩

/-- Marks alone. -/
def Marks.tight : Marks := ⟨",", ":"⟩

/-- A value that is no list and no object. -/
def scalarText : Value → String
  | .null => "null"
  | .bool b => if b then "true" else "false"
  | .int n => toString n
  | .float x => x.text floatNames
  | .str s => stringText s
  | .list _ => "[]"
  | .object _ => "\x7b\x7d"

mutual

/-- A value on one line. -/
def write (m : Marks) : Value → String
  | .list items => "[" ++ m.item.intercalate (writeItems m items) ++ "]"
  | .object fields => "\x7b" ++ m.item.intercalate (writeFields m fields) ++ "\x7d"
  | v => scalarText v

/-- The items of a list, each on its own. -/
def writeItems (m : Marks) : List Value → List String
  | [] => []
  | v :: rest => write m v :: writeItems m rest

/-- The fields of an object, each on its own. -/
def writeFields (m : Marks) : List (String × Value) → List String
  | [] => []
  | (k, v) :: rest => (stringText k ++ m.key ++ write m v) :: writeFields m rest

end

/-- A line break and the blanks of the given depth. -/
def newLine (depth : Nat) : String :=
  String.ofList ('\n' :: List.replicate (2 * depth) ' ')

mutual

/-- A value over several lines, each level two blanks deeper. -/
def writeIndented (depth : Nat) : Value → String
  | .list [] => "[]"
  | .list (v :: rest) =>
    let items := writeIndentedItems (depth + 1) (v :: rest)
    "[" ++ newLine (depth + 1) ++ ("," ++ newLine (depth + 1)).intercalate items ++ newLine depth
      ++ "]"
  | .object [] => "\x7b\x7d"
  | .object (f :: rest) =>
    let fields := writeIndentedFields (depth + 1) (f :: rest)
    "\x7b" ++ newLine (depth + 1) ++ ("," ++ newLine (depth + 1)).intercalate fields
      ++ newLine depth ++ "\x7d"
  | v => scalarText v

/-- The items of a list, each on its own. -/
def writeIndentedItems (depth : Nat) : List Value → List String
  | [] => []
  | v :: rest => writeIndented depth v :: writeIndentedItems depth rest

/-- The fields of an object, each on its own. -/
def writeIndentedFields (depth : Nat) : List (String × Value) → List String
  | [] => []
  | (k, v) :: rest =>
    (stringText k ++ ": " ++ writeIndented depth v) :: writeIndentedFields depth rest

end

/-! ## Texts -/

/-- The text of a value in a layout, if its integers can be written. -/
def textBy? (layout : Value → String) (v : Value) : Option String :=
  if v.hasLong then none else some (layout v)

/-- The text of a value on one line, with blanks behind the marks. -/
def text? (v : Value) : Option String := textBy? (write .spaced) v

/-- The text of a value over several lines. -/
def indented? (v : Value) : Option String := textBy? (writeIndented 0) v

/-- The canonical text of a value: sorted keys, and marks alone. -/
def canonical? (v : Value) : Option String := textBy? (write .tight) v.sortKeys

end SolidityAudit.Json
