import SolidityAudit.Number.Integer

/-!
# Plain scalars

What a YAML text without quotes stands for: nothing, a truth value, an integer in one of several
bases, a fraction, or else itself.
-/

namespace SolidityAudit.Yaml

/-- The texts that stand for nothing. -/
def nullNames : List String := ["", "~", "null", "Null", "NULL"]

/-- The texts that stand for truth. -/
def trueNames : List String :=
  ["yes", "Yes", "YES", "true", "True", "TRUE", "on", "On", "ON"]

/-- The texts that stand for falsehood. -/
def falseNames : List String :=
  ["no", "No", "NO", "false", "False", "FALSE", "off", "Off", "OFF"]

/-- The texts that have a meaning of their own and stand for no value. -/
def reservedNames : List String := ["=", "<<"]

/-! ## Numbers -/

/-- The digits of a number in a base, low lines apart; there must be a character, and none that is
no digit. -/
def digitsIn? (isDigit : Char → Bool) (cs : List Char) : Option (List Char) :=
  if cs ≠ [] ∧ cs.all fun c => isDigit c || c == '_' then some (cs.filter (· != '_')) else none

/-- The value of digits in a base. -/
def valueIn (base : Nat) (digits : List Char) : Nat :=
  digits.foldl (fun n c => n * base + (Json.hexValue? c).getD 0) 0

/-- The parts of a text between colons. -/
def colonParts : List Char → List (List Char)
  | [] => [[]]
  | c :: rest =>
    match colonParts rest with
    | [] => [[c]]
    | part :: parts => if c = ':' then [] :: part :: parts else (c :: part) :: parts

/-- A part of a number to the base sixty after the first. -/
def isSixtieth : List Char → Bool
  | [d] => d.isDigit
  | [t, d] => '0' ≤ t && t ≤ '5' && d.isDigit
  | _ => false

/-- The value of parts to the base sixty. -/
def valueOfSixtieths (parts : List (List Char)) : Nat :=
  parts.foldl (fun n part => n * 60 + valueIn 10 part) 0

/-- A decimal number that does not begin with a zero, or one to the base sixty. -/
def decimalValue? (cs : List Char) : Option Nat :=
  match colonParts cs with
  | first :: rest =>
    match digitsIn? Char.isDigit first with
    | none => none
    | some digits =>
      if first.head?.any (fun c => '1' ≤ c && c ≤ '9') && rest.all isSixtieth then
        some (valueOfSixtieths (digits :: rest))
      else none
  | [] => none

/-- The magnitude of an integer. -/
def magnitude? (cs : List Char) : Option Nat :=
  match cs with
  | ['0'] => some 0
  | '0' :: 'b' :: digits => (digitsIn? (fun c => c == '0' || c == '1') digits).map (valueIn 2)
  | '0' :: 'x' :: digits =>
    (digitsIn? (fun c => (Json.hexValue? c).isSome) digits).map (valueIn 16)
  | '0' :: digits => (digitsIn? (fun c => '0' ≤ c && c ≤ '7') digits).map (valueIn 8)
  | _ => decimalValue? cs

/-- The integer that a text writes. -/
def integer? (cs : List Char) : Option Int :=
  let (negative, body) := IntegerText.splitSign cs
  (magnitude? body).map fun n => if negative then -(n : Int) else n

/-- The exponent of a fraction, which must have a sign; nothing stands for zero. -/
def exponent? : List Char → Option Int
  | [] => some 0
  | e :: sign :: digits =>
    if (e = 'e' ∨ e = 'E') ∧ (sign = '+' ∨ sign = '-') ∧ digits ≠ [] ∧ digits.all Char.isDigit then
      let n : Int := Text.natOf digits
      some (if sign = '-' then -n else n)
    else none
  | _ => none

/-- A fraction with the digits before its point. -/
def fractionOf? (negative : Bool) (whole : List Char) (rest : List Char) : Option Double :=
  let isPart (c : Char) : Bool := c.isDigit || c == '_'
  let places := (rest.takeWhile isPart).filter (· != '_')
  (exponent? (rest.dropWhile isPart)).map fun power =>
    Double.ofDecimal negative (Text.natOf (whole ++ places)) (power - places.length)

/-- A fraction to the base sixty: the parts before its last one, and that one's whole digits and
places. -/
def sixtiethFraction? (negative : Bool) (parts : List (List Char)) (places : List Char) :
    Option Double :=
  match parts with
  | first :: rest =>
    match digitsIn? Char.isDigit first with
    | none => none
    | some digits =>
      if digits.head?.isSome && rest ≠ [] && rest.all isSixtieth
          && places.all (fun c => c.isDigit || c == '_') then
        let shown := places.filter (· != '_')
        let whole := valueOfSixtieths (digits :: rest)
        some (Double.ofDecimal negative (whole * Nat.pow 10 shown.length + Text.natOf shown)
          (-(shown.length : Int)))
      else none
  | [] => none

/-- The fraction that a text writes. -/
def float? (cs : List Char) : Option Double :=
  let (negative, body) := IntegerText.splitSign cs
  let signed := body.length ≠ cs.length
  let text := String.ofList body
  let before := body.takeWhile (· != '.')
  match body.drop before.length with
  | [] => none
  | _ :: rest =>
    if [".inf", ".Inf", ".INF"].contains text then some (.infinite negative)
    else if [".nan", ".NaN", ".NAN"].contains text then if signed then none else some .undefined
    else if before.isEmpty then
      if !signed && rest.head?.any Char.isDigit then fractionOf? negative [] rest else none
    else if before.contains ':' then sixtiethFraction? negative (colonParts before) rest
    else if before.head?.any Char.isDigit then
      match digitsIn? Char.isDigit before with
      | some whole => fractionOf? negative whole rest
      | none => none
    else none

/-! ## Dates -/

/-- The text after one to `most` digits, at least `least` of them. -/
def afterDigits (least most : Nat) (cs : List Char) : List (List Char) :=
  let count := (cs.takeWhile Char.isDigit).length
  ((List.range (most + 1)).filter fun n => least ≤ n ∧ n ≤ count).map cs.drop

/-- The texts after a character of the class. -/
def afterOne (accepts : Char → Bool) : List Char → List (List Char)
  | c :: rest => if accepts c then [rest] else []
  | [] => []

/-- The texts after a day. -/
def afterDay (least : Nat) (cs : List Char) : List (List Char) :=
  afterDigits 4 4 cs |>.flatMap (afterOne (· == '-')) |>.flatMap (afterDigits least 2)
    |>.flatMap (afterOne (· == '-')) |>.flatMap (afterDigits least 2)

/-- The texts after a time of day. -/
def afterTime (cs : List Char) : List (List Char) :=
  afterDigits 1 2 cs |>.flatMap (afterOne (· == ':')) |>.flatMap (afterDigits 2 2)
    |>.flatMap (afterOne (· == ':')) |>.flatMap (afterDigits 2 2)

/-- What may stand after the seconds: places, blanks and a zone. -/
def isTimeEnd (cs : List Char) : Bool :=
  let isGap (c : Char) : Bool := c == ' ' || c == '\t'
  let places :=
    match cs with
    | '.' :: rest => rest.dropWhile Char.isDigit
    | _ => cs
  let zone := places.dropWhile isGap
  let offsets := (afterOne (fun c => c == '-' || c == '+') zone).flatMap (afterDigits 1 2)
  places.isEmpty || zone == ['Z'] || offsets.contains []
    || ((offsets.flatMap (afterOne (· == ':'))).flatMap (afterDigits 2 2)).contains []

/-- Whether a text is a date, or a date and a time. -/
def isDate (cs : List Char) : Bool :=
  let gap (rest : List Char) : List (List Char) :=
    let blanks := rest.takeWhile fun c => c == ' ' || c == '\t'
    if blanks.isEmpty then afterOne (fun c => c == 'T' || c == 't') rest
    else [rest.drop blanks.length]
  (afterDay 2 cs).contains []
    || (((afterDay 1 cs).flatMap gap).flatMap afterTime).any isTimeEnd

/-! ## Values -/

/-- The value that a text without quotes stands for; `none` for the reserved texts. A date stands
for its text. -/
def plainValue? (s : String) : Option Value :=
  let cs := s.toList
  if nullNames.contains s then some .null
  else if trueNames.contains s then some (.bool true)
  else if falseNames.contains s then some (.bool false)
  else if reservedNames.contains s then none
  else
    match integer? cs, float? cs with
    | some n, _ => some (.int n)
    | none, some x => some (.float x)
    | none, none => some (.str s)

/-- Whether a text without quotes stands for itself. -/
def standsForItself (s : String) : Bool :=
  match plainValue? s with
  | some (.str _) => !isDate s.toList
  | _ => false

end SolidityAudit.Yaml
