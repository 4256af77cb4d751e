import SolidityAudit.Text.Printable

/-!
# Quoted text

A text in quotes: in single quotes, or in double quotes when it holds a single quote and no double
one. A backslash stands before the quote and before itself, and what is not printable is written by
its number.
-/

namespace SolidityAudit.Text

/-- The hexadecimal digits of a number, padded with zeros on the left. -/
def hexDigits (width n : Nat) : String :=
  let digits := Nat.toDigits 16 n
  String.ofList (List.replicate (width - digits.length) '0' ++ digits)

/-- A character as it stands between the given quotes. -/
def quotedChar (quote : Char) (c : Char) : String :=
  if c = quote ∨ c = '\\' then String.ofList ['\\', c]
  else if c = '\n' then "\\n"
  else if c = '\r' then "\\r"
  else if c = '\t' then "\\t"
  else if isPrintable c then String.singleton c
  else if c.toNat < 0x100 then "\\x" ++ hexDigits 2 c.toNat
  else if c.toNat < 0x10000 then "\\u" ++ hexDigits 4 c.toNat
  else "\\U" ++ hexDigits 8 c.toNat

/-- A text in quotes. -/
def quoted (s : String) : String :=
  let quote := if s.toList.contains '\'' && !s.toList.contains '"' then '"' else '\''
  String.singleton quote ++ String.join (s.toList.map (quotedChar quote)) ++ String.singleton quote

end SolidityAudit.Text
