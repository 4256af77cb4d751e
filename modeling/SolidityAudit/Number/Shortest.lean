import SolidityAudit.Number.Double

/-!
# Shortest decimal text

A finite number is written with the fewest decimal digits that read back as the same number; of two
candidates of that length the nearer one is taken. The digits stand positionally when the decimal
exponent lies from -4 to 15, and with an exponent of at least two digits otherwise.
-/

namespace SolidityAudit

/-- The value of decimal digits `0.d₁d₂…` times a power of ten. -/
structure DecimalDigits where
  digits : Nat
  count : Nat
  /-- where the point stands, counted from the left of the digits -/
  point : Int
deriving Repr

namespace Double

/-- The least `p` with `num / den < 10 ^ p`, for a positive quotient. -/
def pointOf (num den : Nat) : Int :=
  let below (p : Int) : Bool := num * Nat.pow 10 (-p).toNat < den * Nat.pow 10 p.toNat
  let guess : Int := ((num.log2 : Int) - (den.log2 : Int)) * 30103 / 100000
  let candidates := [guess - 1, guess, guess + 1, guess + 2]
  (candidates.find? below).getD (guess + 3)

/-- The digits of the given count that read back as the number, if there are any: one of the two
grid points that enclose the value. All quantities are multiples of `1 / (4 · den)`: the value
`4 · num` and the bounds `low` and `high` of what rounds to it, themselves included if `closed`. -/
def digitsOnGrid (num den low high : Nat) (closed : Bool) (point : Int) (count : Nat) :
    Option Nat :=
  let shift : Int := (count : Int) - point
  let up := Nat.pow 10 shift.toNat
  let down := Nat.pow 10 (-shift).toNat
  -- a grid point `g` has the value `g · down / up`
  let lower := num * up / (den * down)
  let scaled (g : Nat) : Nat := 4 * den * g * down
  let inside (g : Nat) : Bool :=
    if closed then low * up ≤ scaled g && scaled g ≤ high * up
    else low * up < scaled g && scaled g < high * up
  let gap (g : Nat) : Nat :=
    if scaled g ≤ 4 * num * up then 4 * num * up - scaled g else scaled g - 4 * num * up
  match inside lower, inside (lower + 1) with
  | true, true =>
    if gap lower < gap (lower + 1) then some lower
    else if gap (lower + 1) < gap lower then some (lower + 1)
    else if lower % 2 = 0 then some lower else some (lower + 1)
  | true, false => some lower
  | false, true => some (lower + 1)
  | false, false => none

/-- The fewest digits that read back as the positive number `m · 2 ^ e`. -/
def shortestDigits (m : Nat) (e : Int) : DecimalDigits :=
  let num := m * Nat.pow 2 e.toNat
  let den := Nat.pow 2 (-e).toNat
  let unit := Nat.pow 2 e.toNat
  -- below a power of two the neighbours lie twice as close
  let narrow := m = Nat.pow 2 52 ∧ e > leastExponent
  let low := 4 * num - (if narrow then 1 else 2) * unit
  let high := 4 * num + 2 * unit
  let point := pointOf num den
  let found := (List.range 17).findSome? fun k =>
    (digitsOnGrid num den low high (m % 2 == 0) point (k + 1)).map fun d => (d, k + 1)
  match found with
  | some (d, k) => if d = Nat.pow 10 k then ⟨1, 1, point + 1⟩ else ⟨d, k, point⟩
  | none => ⟨roundHalfEven (num * Nat.pow 10 17) den, 17, point⟩

/-- What stands for the numbers that have no digits. -/
structure SpecialNames where
  infinity : String
  minusInfinity : String
  undefined : String

/-- Digits followed by zeros up to the given length. -/
def padRight (digits : String) (length : Nat) : String :=
  digits ++ String.ofList (List.replicate (length - digits.length) '0')

/-- Decimal digits as text. -/
def layOut (d : DecimalDigits) : String :=
  let digits := padRight "" (d.count - (toString d.digits).length) ++ toString d.digits
  let exponent := d.point - 1
  if -4 ≤ exponent ∧ exponent < 16 then
    if d.point ≤ 0 then
      "0." ++ padRight "" (-d.point).toNat ++ digits
    else
      let whole := d.point.toNat
      let shown := padRight digits whole
      let fraction := String.ofList (shown.toList.drop whole)
      String.ofList (shown.toList.take whole) ++ "." ++ (if fraction = "" then "0" else fraction)
  else
    let mantissa :=
      match digits.toList with
      | [] => "0"
      | [c] => String.singleton c
      | c :: rest => String.ofList (c :: '.' :: rest)
    let magnitude := toString exponent.natAbs
    let shown := if magnitude.length < 2 then "0" ++ magnitude else magnitude
    mantissa ++ (if exponent < 0 then "e-" else "e+") ++ shown

/-- The shortest text of a number. -/
def text (names : SpecialNames) : Double → String
  | undefined => names.undefined
  | infinite negative => if negative then names.minusInfinity else names.infinity
  | finite negative m e =>
    let body := if m = 0 then "0.0" else layOut (shortestDigits m e)
    if negative then "-" ++ body else body

end Double

end SolidityAudit
