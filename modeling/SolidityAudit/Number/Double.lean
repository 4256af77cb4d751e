/-!
# Double-precision numbers

Numbers `± mantissa · 2 ^ exponent` with a mantissa below `2 ^ 53` and an exponent from -1074 to
971. Every operation takes the exact rational result and rounds it to the nearest such number, a
tie to the even mantissa.
-/

namespace SolidityAudit

/-- A double-precision number. A finite one has a mantissa below `2 ^ 53`, and one of at least
`2 ^ 52` unless the exponent is the least. -/
inductive Double
  | finite (negative : Bool) (mantissa : Nat) (exponent : Int)
  | infinite (negative : Bool)
  | undefined
deriving DecidableEq, Repr, Inhabited

/-- The quotient rounded to the nearest natural number, a tie to the even one. -/
def roundHalfEven (num den : Nat) : Nat :=
  let q := num / den
  let r := num % den
  if 2 * r < den then q
  else if den < 2 * r then q + 1
  else if q % 2 = 0 then q else q + 1

namespace Double

/-- The least exponent of a finite number. -/
def leastExponent : Int := -1074

/-- The greatest exponent of a finite number. -/
def greatestExponent : Int := 971

/-- Zero with a sign. -/
def zero (negative : Bool) : Double := finite negative 0 leastExponent

/-- The exponent that gives the quotient a mantissa of 53 bits, or the least one. -/
def exponentOf (num den : Nat) : Int :=
  let e : Int := (num.log2 : Int) - (den.log2 : Int) - 52
  let tooSmall := num * Nat.pow 2 (-e).toNat < Nat.pow 2 52 * (den * Nat.pow 2 e.toNat)
  max leastExponent (if tooSmall then e - 1 else e)

/-- The number nearest to the quotient of two natural numbers, the second positive. -/
def ofQuotient (negative : Bool) (num den : Nat) : Double :=
  if num = 0 then zero negative
  else
    let e := exponentOf num den
    let m := roundHalfEven (num * Nat.pow 2 (-e).toNat) (den * Nat.pow 2 e.toNat)
    let (m, e) := if m = Nat.pow 2 53 then (Nat.pow 2 52, e + 1) else (m, e)
    if e > greatestExponent then infinite negative else finite negative m e

/-- The number nearest to the quotient of an integer and a positive natural number. -/
def ofRatio (num : Int) (den : Nat) : Double :=
  ofQuotient (num < 0) num.natAbs den

/-- The number nearest to an integer. -/
def ofInt (n : Int) : Double := ofRatio n 1

/-- The number nearest to `digits · 10 ^ exponent`. Powers far outside the range are cut short. -/
def ofDecimal (negative : Bool) (digits : Nat) (exponent : Int) : Double :=
  if digits = 0 then zero negative
  else
    let top : Int := (digits.log2 : Int) / 4 + exponent
    if top > 400 then infinite negative
    else if exponent + (digits.log2 : Int) < -400 then zero negative
    else
      ofQuotient negative (digits * Nat.pow 10 exponent.toNat) (Nat.pow 10 (-exponent).toNat)

/-- A finite number as an exact ratio. -/
def ratio? : Double → Option (Int × Nat)
  | finite negative m e =>
    let n : Int := if negative then -(m : Int) else m
    some (n * Nat.pow 2 e.toNat, Nat.pow 2 (-e).toNat)
  | _ => none

/-- Whether the number is zero, of either sign. -/
def isZero : Double → Bool
  | finite _ m _ => m == 0
  | _ => false

/-- The sum. Zeros of two signs, and a number and its opposite, sum to positive zero. -/
def add (x y : Double) : Double :=
  match x, y with
  | undefined, _ => undefined
  | _, undefined => undefined
  | infinite s, infinite t => if s = t then infinite s else undefined
  | infinite s, _ => infinite s
  | _, infinite t => infinite t
  | finite s m e, finite t m' e' =>
    match (finite s m e).ratio?, (finite t m' e').ratio? with
    | some (a, b), some (a', b') =>
      if m = 0 ∧ m' = 0 then zero (s && t) else ofRatio (a * b' + a' * b) (b * b')
    | _, _ => undefined

/-- The product with a positive integer. -/
def scale (x : Double) (k : Nat) : Double :=
  match x with
  | finite negative m e => ofQuotient negative (m * k * Nat.pow 2 e.toNat) (Nat.pow 2 (-e).toNat)
  | other => other

/-- The quotient by a positive integer. -/
def divide (x : Double) (k : Nat) : Double :=
  match x with
  | finite negative m e => ofQuotient negative (m * Nat.pow 2 e.toNat) (Nat.pow 2 (-e).toNat * k)
  | other => other

/-- The integer part, cut off toward zero. -/
def truncate? (x : Double) : Option Int :=
  x.ratio?.map fun (n, d) => n.tdiv d

/-- The order of a number and an exact ratio; `none` for an undefined number. -/
def compareRatio (x : Double) (num : Int) (den : Nat) : Option Ordering :=
  match x with
  | undefined => none
  | infinite negative => some (if negative then .lt else .gt)
  | finite s m e => (finite s m e).ratio?.map fun (n, d) => compare (n * den) (num * d)

/-- The order of two numbers; `none` if one is undefined. -/
def compare? (x y : Double) : Option Ordering :=
  match y with
  | undefined => none
  | infinite negative =>
    match x with
    | undefined => none
    | infinite s =>
      some (if s = negative then .eq else if s then .lt else .gt)
    | finite .. => some (if negative then .gt else .lt)
  | finite s m e => (finite s m e).ratio?.bind fun (n, d) => x.compareRatio n d

end Double

end SolidityAudit
