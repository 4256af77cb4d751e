import SolidityAudit.Solidity.Token

/-!
# Solidity source as tokens

At every place the longest piece that the lexical rules allow is taken. Blanks and comments are
skipped. Reading stops at the first place where no piece can start.
-/

namespace SolidityAudit.Solidity

/-- A piece of source: its kind, or `none` for what is skipped, and its length. -/
structure Piece where
  kind : Option TokenKind
  length : Nat
deriving DecidableEq, Repr

namespace Lexer

/-- The blanks of Solidity. -/
def isSpace (c : Char) : Bool :=
  c == ' ' || c == '\t' || c == '\r' || c == '\n' || c == '\x0c'

/-- A character that may start a word. -/
def startsWord (c : Char) : Bool := c.isAlpha || c == '$' || c == '_'

/-- A character that may go on a word. -/
def inWord (c : Char) : Bool := c.isAlphanum || c == '$' || c == '_'

/-- A hexadecimal digit. -/
def isHexDigit (c : Char) : Bool :=
  c.isDigit || ('a' ≤ c && c ≤ 'f') || ('A' ≤ c && c ≤ 'F')

/-- The length of the longest run of the class at the front. -/
def run (accepts : Char → Bool) : List Char → Nat
  | [] => 0
  | c :: cs => if accepts c then run accepts cs + 1 else 0

/-- The length of the longest further part of a run of digits, single underscores between them. -/
def moreDigits (digit : Char → Bool) : List Char → Nat
  | c :: d :: cs =>
    if digit c then moreDigits digit (d :: cs) + 1
    else if c = '_' ∧ digit d then moreDigits digit cs + 2
    else 0
  | [c] => if digit c then 1 else 0
  | [] => 0

/-- The length of the longest run of digits with single underscores between them. -/
def digits (digit : Char → Bool) : List Char → Nat
  | c :: cs => if digit c then moreDigits digit cs + 1 else 0
  | [] => 0

/-- The length of the exponent at the front; zero if there is none. -/
def exponent : List Char → Nat
  | c :: cs =>
    if c = 'e' ∨ c = 'E' then
      let n := digits Char.isDigit cs
      if n = 0 then 0 else n + 1
    else 0
  | [] => 0

/-- The length of the point and the digits at the front; zero if there are none. -/
def fraction : List Char → Nat
  | '.' :: cs =>
    let n := digits Char.isDigit cs
    if n = 0 then 0 else n + 1
  | _ => 0

/-- The length of the decimal number at the front; zero if there is none. -/
def decimal (cs : List Char) : Nat :=
  let whole := digits Char.isDigit cs
  let mantissa := whole + fraction (cs.drop whole)
  if mantissa = 0 then 0 else mantissa + exponent (cs.drop mantissa)

/-- The length of the hexadecimal number at the front; zero if there is none. -/
def hexadecimal : List Char → Nat
  | '0' :: x :: cs =>
    if x = 'x' ∨ x = 'X' then
      let n := digits isHexDigit cs
      if n = 0 then 0 else n + 2
    else 0
  | _ => 0

/-- The length of the point and the plain digits at the front; zero if there are none. -/
def plainFraction : List Char → Nat
  | '.' :: cs =>
    let n := run Char.isDigit cs
    if n = 0 then 0 else n + 1
  | _ => 0

/-- The length of the version at the front, two or three runs of digits with points between them;
zero if there is none. -/
def version (cs : List Char) : Nat :=
  let major := run Char.isDigit cs
  let minor := plainFraction (cs.drop major)
  if major = 0 ∨ minor = 0 then 0
  else major + minor + plainFraction (cs.drop (major + minor))

/-- The longest of the numbers at the front; of equally long ones the decimal number. -/
def number? (cs : List Char) : Option Piece :=
  let d := decimal cs
  let h := hexadecimal cs
  let v := version cs
  if d = 0 then none
  else if d < h ∧ v ≤ h then some ⟨some .hexNumber, h⟩
  else if d < v then some ⟨some .version, v⟩
  else some ⟨some .decimalNumber, d⟩

/-- The length of the rest of a string after its opening quote, the closing quote included. -/
def stringRest? (quote : Char) : List Char → Option Nat
  | [] => none
  | '\\' :: _ :: cs => (stringRest? quote cs).map (· + 2)
  | ['\\'] => none
  | c :: cs =>
    if c = quote then some 1
    else if c = '\r' ∨ c = '\n' then none
    else (stringRest? quote cs).map (· + 1)

/-- The length of the string at the front. -/
def string? : List Char → Option Nat
  | '"' :: cs => (stringRest? '"' cs).map (· + 1)
  | '\'' :: cs => (stringRest? '\'' cs).map (· + 1)
  | _ => none

/-- The length of the hexadecimal digits in quotes at the front. -/
def hexInQuotes? : List Char → Option Nat
  | q :: cs =>
    if q = '"' ∨ q = '\'' then
      let n := digits isHexDigit cs
      if (cs.drop n).head? = some q then some (n + 2) else none
    else none
  | [] => none

/-- The word at the front, or the string whose beginning it is. -/
def word (cs : List Char) : Piece :=
  let n := run inWord cs
  let name := String.ofList (cs.take n)
  let rest := cs.drop n
  let quoted : Option Piece :=
    if name = "hex" then (hexInQuotes? rest).map fun k => ⟨some .hexString, n + k⟩
    else if name = "unicode" then (string? rest).map fun k => ⟨some .string, n + k⟩
    else none
  quoted.getD ⟨some (wordKind name), n⟩

/-- The length of the rest of a block comment after its opening, the closing included. -/
def commentRest? : List Char → Option Nat
  | '*' :: '/' :: _ => some 2
  | _ :: cs => (commentRest? cs).map (· + 1)
  | [] => none

/-- The comment at the front. -/
def comment? : List Char → Option Piece
  | '/' :: '*' :: cs => (commentRest? cs).map fun n => ⟨none, n + 2⟩
  | '/' :: '/' :: cs => some ⟨none, run (fun c => c != '\r' && c != '\n') cs + 2⟩
  | _ => none

/-- The longest mark at the front. -/
def mark? (cs : List Char) : Option Piece :=
  (marks.find? (·.isPrefixOf cs)).map fun m => ⟨some .literal, m.length⟩

/-- The longest piece at the front of a text. -/
def piece? (cs : List Char) : Option Piece :=
  match cs with
  | [] => none
  | c :: _ =>
    if isSpace c then some ⟨none, run isSpace cs⟩
    else if startsWord c then some (word cs)
    else
      match comment? cs with
      | some p => some p
      | none =>
        match number? cs with
        | some p => some p
        | none =>
          match string? cs with
          | some n => some ⟨some .string, n⟩
          | none => mark? cs

end Lexer

/-- The tokens of a source with their places, and where reading ended: at the end of the text, or at
a place where no token can start. -/
structure Scan where
  tokens : List (Token × Place)
  stop : Place
  complete : Bool
deriving Repr

/-- The tokens of a text that starts at the given place and whose first `skip` characters belong to
a piece already taken. -/
def scanAfter (place : Place) : Nat → List Char → Scan
  | _, [] => ⟨[], place, true⟩
  | skip + 1, c :: cs => scanAfter (place.after c) skip cs
  | 0, c :: cs =>
    match Lexer.piece? (c :: cs) with
    | none => ⟨[], place, false⟩
    | some ⟨none, n⟩ => scanAfter (place.after c) (n - 1) cs
    | some ⟨some kind, n⟩ =>
      let later := scanAfter (place.after c) (n - 1) cs
      { later with
        tokens := (⟨kind, String.ofList ((c :: cs).take n)⟩, place) :: later.tokens }

/-- The tokens of a source. -/
def scan (source : String) : Scan :=
  scanAfter .start 0 source.toList

end SolidityAudit.Solidity
