import SolidityAudit.Number.Integer

/-!
# Decimal numbers

Decimal numbers with a bounded number of digits, for amounts that must not pass through binary
fractions. A number that does not fit is rounded to the nearest one that does, a half going to the
even neighbour.
-/

namespace SolidityAudit

/-- A decimal number: a coefficient times a power of ten, or one of the numbers without digits. -/
inductive Decimal
  | finite (negative : Bool) (coefficient : Nat) (exponent : Int)
  | infinite (negative : Bool)
  /-- no number; the mark is shown with it -/
  | undefined (negative : Bool) (mark : Nat)
  /-- no number, and no arithmetic with it -/
  | signalling
deriving DecidableEq, Repr

namespace Decimal

/-- The number of digits of a rounded coefficient. -/
def digitCount : Nat := 28

/-- The greatest exponent of the first digit of a result. -/
def greatestExponent : Int := 999999

/-- The least exponent of the last digit of a result. -/
def leastExponent : Int := -1000026

/-- The number of decimal digits of a natural number; zero has none. -/
def width (n : Nat) : Nat :=
  if n = 0 then 0 else (toString n).length

/-! ## Reading -/

/-- The greatest exponent of the first digit of a number as read. -/
def greatestReadable : Int := 999999999999999999

/-- The least exponent of the last digit of a number as read. -/
def leastReadable : Int := -1999999999999999997

/-- The number of an integer. -/
def ofInt (n : Int) : Decimal := .finite (n < 0) n.natAbs 0

/-- The exact value of a binary number. -/
def ofDouble : Double → Decimal
  | .undefined => .undefined false 0
  | .infinite negative => .infinite negative
  | .finite negative m e =>
    .finite negative (m * Nat.pow 2 e.toNat * Nat.pow 5 (-e).toNat) (-(-e).toNat)

/-- Whether the text is the word, in letters of either case. -/
def isWord (word : String) (cs : List Char) : Bool :=
  cs.map Char.toLower == word.toList

/-- The digits before and after the point, and what follows them; there must be at least one. -/
def mantissa? (cs : List Char) : Option (List Char × List Char × List Char) :=
  let whole := cs.takeWhile Char.isDigit
  let rest := cs.dropWhile Char.isDigit
  let (fraction, rest) :=
    match rest with
    | '.' :: more => (more.takeWhile Char.isDigit, more.dropWhile Char.isDigit)
    | _ => ([], rest)
  if whole.isEmpty && fraction.isEmpty then none else some (whole, fraction, rest)

/-- The exponent after the digits; `none` if something else stands there. -/
def exponent? : List Char → Option Int
  | [] => some 0
  | e :: rest =>
    let (negative, digits) := IntegerText.splitSign rest
    if (e = 'e' ∨ e = 'E') ∧ digits ≠ [] ∧ digits.all Char.isDigit then
      let n : Int := Text.natOf digits
      some (if negative then -n else n)
    else none

/-- The number without digits that a word stands for. -/
def ofName? (negative : Bool) (cs : List Char) : Option Decimal :=
  let (letters, digits) := (cs.takeWhile (!·.isDigit), cs.dropWhile (!·.isDigit))
  if !digits.all Char.isDigit then none
  else if digits.isEmpty && (isWord "inf" letters || isWord "infinity" letters) then
    some (.infinite negative)
  else if isWord "nan" letters then some (.undefined negative (Text.natOf digits))
  else if isWord "snan" letters then some .signalling
  else none

/-- The finite number as read; its exponents are bounded. -/
def ofParts (negative : Bool) (coefficient : Nat) (exponent : Int) : Except Fault Decimal :=
  if greatestReadable < exponent + (width coefficient - 1 : Nat) ∨ exponent < leastReadable then
    .error (.decimal .invalid)
  else .ok (.finite negative coefficient exponent)

/-- The number that a text writes. Blanks at the ends and low lines do not count. -/
def read (s : String) : Except Fault Decimal :=
  let cs := (Text.asciiDigits (Text.stripBoth Text.isBlank s.toList)).filter (· != '_')
  let (negative, body) := IntegerText.splitSign cs
  match ofName? negative body, mantissa? body with
  | some special, _ => .ok special
  | none, none => .error (.decimal .unreadable)
  | none, some (whole, fraction, rest) =>
    match exponent? rest with
    | none => .error (.decimal .unreadable)
    | some power =>
      ofParts negative (Text.natOf (whole ++ fraction)) (power - fraction.length)

/-- The least natural number that does not fit into a word of the machine. -/
def wordBound : Nat := Nat.pow 2 63

/-- The integer in a part of a list. -/
def integerPart (part : DecimalPart) (v : Value) : Except Fault Int :=
  match v.integer? with
  | none => .error (.badDecimalPart part)
  | some n =>
    if n < -wordBound ∨ wordBound ≤ n then .error (.integerTooLarge part.machineWord) else .ok n

/-- Whether the sign in a list is that of a negative number. -/
def signPart (v : Value) : Except Fault Bool := do
  match ← integerPart .sign v with
  | 0 => return false
  | 1 => return true
  | _ => throw (.badDecimalPart .sign)

/-- The coefficient that the digits in a list write. -/
def digitsPart : Value → Except Fault Nat
  | .list items =>
    items.foldlM (fun n v => do
      let digit ← integerPart .digits v
      if digit < 0 ∨ 9 < digit then throw (.badDecimalPart .digits)
      return 10 * n + digit.toNat) 0
  | _ => .error (.badDecimalPart .digits)

/-- The number that the last part of a list says, once the digits before it have been read. -/
def ofLastPart (negative : Bool) (digits : Value) : Value → Except Fault Decimal
  | .str "F" => do
    let _ ← digitsPart digits
    return .infinite negative
  | .str "n" => do return .undefined negative (← digitsPart digits)
  | .str "N" => do
    let _ ← digitsPart digits
    return .signalling
  | .str _ => .error (.badDecimalPart .mark)
  | v => do
    let exponent ← integerPart .exponent v
    ofParts negative (← digitsPart digits) exponent

/-- The number that a list of its sign, its digits and its exponent writes. A mark in the place of
the exponent stands for a number without digits. -/
def ofList : List Value → Except Fault Decimal
  | [sign, digits, last] => do ofLastPart (← signPart sign) digits last
  | _ => .error .noDecimalParts

/-- The number that a value stands for. -/
def ofValue : Value → Except Fault Decimal
  | .bool b => .ok (ofInt (if b then 1 else 0))
  | .int n => .ok (ofInt n)
  | .float x => .ok (ofDouble x)
  | .str s => read s
  | .list items => ofList items
  | v => .error (.noDecimal v.kind)

/-! ## Arithmetic -/

/-- A number without the zeros at the end of its coefficient; the steps bound their number. -/
def dropZeros : Nat → Nat → Int → Nat × Int
  | 0, coefficient, exponent => (coefficient, exponent)
  | steps + 1, coefficient, exponent =>
    if coefficient % 10 = 0 then dropZeros steps (coefficient / 10) (exponent + 1)
    else (coefficient, exponent)

/-- The finite number rounded to the digits and exponents of results, without zeros at its end. -/
def round (negative : Bool) (coefficient : Nat) (exponent : Int) : Except Fault Decimal :=
  let surplus : Int := width coefficient - digitCount
  let drop := (max surplus (leastExponent - exponent)).toNat
  -- beyond this many places everything is dropped
  let places := min drop (width coefficient + 2)
  let kept := roundHalfEven coefficient (Nat.pow 10 places)
  let power := if places < drop then leastExponent else exponent + places
  let (shown, power) := dropZeros (width kept) kept power
  if shown = 0 then .ok (.finite negative 0 0)
  else if greatestExponent < power + width shown - 1 then .error (.decimal .overflow)
  else .ok (.finite negative shown power)

/-- The number with its point moved to the left, rounded. -/
def movePoint (places : Nat) : Decimal → Except Fault Decimal
  | finite negative coefficient exponent => round negative coefficient (exponent - places)
  | infinite negative => .ok (.infinite negative)
  | undefined negative mark => .ok (.undefined negative (mark % Nat.pow 10 digitCount))
  | signalling => .error (.decimal .invalid)

/-! ## Text -/

/-- The digits of a finite number with its point, and never an exponent. -/
def plainDigits (coefficient : Nat) (exponent : Int) : String :=
  let digits := (toString coefficient).toList
  if 0 ≤ exponent then
    String.ofList (digits ++ List.replicate (if coefficient = 0 then 0 else exponent.toNat) '0')
  else
    let places := (-exponent).toNat
    let shown := List.replicate (places + 1 - digits.length) '0' ++ digits
    String.ofList (shown.take (shown.length - places) ++ '.' :: shown.drop (shown.length - places))

/-- A number in plain digits. -/
def plain : Decimal → String
  | finite negative coefficient exponent =>
    (if negative then "-" else "") ++ plainDigits coefficient exponent
  | infinite negative => (if negative then "-" else "") ++ "Infinity"
  | undefined negative mark =>
    (if negative then "-" else "") ++ "NaN" ++ (if mark = 0 then "" else toString mark)
  | signalling => "sNaN"

end Decimal

end SolidityAudit
