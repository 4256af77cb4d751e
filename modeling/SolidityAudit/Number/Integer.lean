import SolidityAudit.Fault

/-!
# Reading integers

The integer that a text writes or that a value stands for. A text may hold blanks at its ends, a
sign, and a low line between two digits.
-/

namespace SolidityAudit

namespace IntegerText

/-- The blanks that may stand around a number. The information separators are none of them. -/
def isPadding (c : Char) : Bool :=
  Text.isBlank c && !(0x1C ≤ c.toNat && c.toNat ≤ 0x1F)

/-- Digits without the low lines between them; `none` if something else stands there. -/
def bareDigits? : List Char → Option (List Char)
  | [] => none
  | [d] => if d.isDigit then some [d] else none
  | d :: '_' :: rest => if d.isDigit then (bareDigits? rest).map (d :: ·) else none
  | d :: rest => if d.isDigit then (bareDigits? rest).map (d :: ·) else none

/-- The sign and the rest of a number. -/
def splitSign : List Char → Bool × List Char
  | '-' :: rest => (true, rest)
  | '+' :: rest => (false, rest)
  | cs => (false, cs)

/-- The integer that a text writes. -/
def read (s : String) : Except Fault Int :=
  let (negative, digits) := splitSign (Text.asciiDigits (Text.stripBoth isPadding s.toList))
  match bareDigits? digits with
  | none => .error (.badInteger s)
  | some digits =>
    if digitLimit < digits.length then .error (.integerTooLong digits.length)
    else
      let n : Int := Text.natOf digits
      .ok (if negative then -n else n)

end IntegerText

/-- The integer that a value stands for; numbers are cut off toward zero. -/
def Value.toInteger (v : Value) : Except Fault Int :=
  match v.integer?, v with
  | some n, _ => .ok n
  | none, .float x =>
    match x, x.truncate? with
    | _, some n => .ok n
    | .undefined, none => .error .undefinedInteger
    | _, none => .error .infiniteInteger
  | none, .str s => IntegerText.read s
  | none, _ => .error (.notNumber v.kind)

end SolidityAudit
