import SolidityAudit.Text.Digit
import SolidityAudit.Value.Leaves

/-!
# Reading JSON

`Json.read` reads one JSON text. Reading stops at the first fault, which names the reason and the
rest of the text at which it was found. A lenient reader accepts control characters inside strings;
nothing else depends on the mode. The names `NaN`, `Infinity` and `-Infinity` are numbers, the last
of several fields with one key wins, and a `\u` escape that is half of a surrogate pair alone reads
as the replacement character.
-/

namespace SolidityAudit.Json

/-- Why reading stopped. -/
inductive Reason
  | value | comma | colon | name | unterminated | controlCharacter | escape | unicodeEscape
  | extra | byteOrderMark | notObject
  | tooManyDigits (count : Nat)
deriving DecidableEq, Repr

namespace Reason

/-- The wording of a reason. -/
def text : Reason → String
  | value => "Expecting value"
  | comma => "Expecting ',' delimiter"
  | colon => "Expecting ':' delimiter"
  | name => "Expecting property name enclosed in double quotes"
  | unterminated => "Unterminated string starting at"
  | controlCharacter => "Invalid control character at"
  | escape => "Invalid \\escape"
  | unicodeEscape => "Invalid \\uXXXX escape"
  | extra => "Extra data"
  | byteOrderMark => "Unexpected UTF-8 BOM (decode using utf-8-sig)"
  | notObject => "Expected a JSON object"
  | tooManyDigits count =>
    "Exceeds the limit (4300 digits) for integer string conversion: value has " ++ toString count
      ++ " digits; use sys.set_int_max_str_digits() to increase the limit"

end Reason

/-- Where and why reading stopped: the rest of the text from the offending place on. -/
structure Stop where
  reason : Reason
  rest : List Char
deriving Repr

/-- Whether control characters may stand inside strings. -/
inductive Mode
  | strict | lenient
deriving DecidableEq, Repr

/-- The blanks between the parts of a JSON text. -/
def isSpace (c : Char) : Bool :=
  c == ' ' || c == '\t' || c == '\n' || c == '\r'

/-- The text from the first character on that is no blank. -/
def skipSpace (cs : List Char) : List Char :=
  cs.dropWhile isSpace

/-! ## Strings -/

/-- The value of a hexadecimal digit. -/
def hexValue? (c : Char) : Option Nat :=
  if c.isDigit then some (c.toNat - '0'.toNat)
  else if 'a' ≤ c ∧ c ≤ 'f' then some (c.toNat - 'a'.toNat + 10)
  else if 'A' ≤ c ∧ c ≤ 'F' then some (c.toNat - 'A'.toNat + 10)
  else none

/-- The value of four hexadecimal digits, and what follows them. -/
def hexFour? : List Char → Option (Nat × List Char)
  | a :: b :: c :: d :: rest => do
    let a ← hexValue? a
    let b ← hexValue? b
    let c ← hexValue? c
    let d ← hexValue? d
    return (((a * 16 + b) * 16 + c) * 16 + d, rest)
  | _ => none

/-- A code unit that opens a surrogate pair. -/
def isHighSurrogate (n : Nat) : Bool := 0xD800 ≤ n && n ≤ 0xDBFF

/-- A code unit that closes a surrogate pair. -/
def isLowSurrogate (n : Nat) : Bool := 0xDC00 ≤ n && n ≤ 0xDFFF

/-- The character with a number; half of a surrogate pair has none. -/
def charOf (n : Nat) : Char :=
  if isHighSurrogate n || isLowSurrogate n then '\ufffd' else Char.ofNat n

/-- The character that a one-letter escape stands for. -/
def escaped? : Char → Option Char
  | '"' => some '"'
  | '\\' => some '\\'
  | '/' => some '/'
  | 'b' => some '\x08'
  | 'f' => some '\x0c'
  | 'n' => some '\n'
  | 'r' => some '\r'
  | 't' => some '\t'
  | _ => none

/-- The character after `\u`, and what follows its escape. The text starts at the `u`; a string
must go on after the digits. -/
def readUnicode (cs : List Char) : Except Stop (Char × List Char) :=
  let digits := cs.drop 1
  match hexFour? digits with
  | none => .error ⟨.unicodeEscape, cs⟩
  | some (_, []) => .error ⟨.unicodeEscape, cs⟩
  | some (high, rest) =>
    match rest with
    | '\\' :: 'u' :: more =>
      if isHighSurrogate high && 4 < more.length then
        match hexFour? more with
        | none => .error ⟨.unicodeEscape, 'u' :: more⟩
        | some (low, after) =>
          if isLowSurrogate low then
            .ok (Char.ofNat (0x10000 + (high - 0xD800) * 0x400 + (low - 0xDC00)), after)
          else .ok (charOf high, rest)
      else .ok (charOf high, rest)
    | _ => .ok (charOf high, rest)

/-- The characters of a string up to its closing quote, and what follows that. `start` is the text
from the opening quote on; the steps left bound the number of characters. -/
def readString (mode : Mode) (start : List Char) :
    Nat → List Char → List Char → Except Stop (List Char × List Char)
  | 0, _, _ => .error ⟨.unterminated, start⟩
  | steps + 1, cs, done =>
    match cs with
    | [] => .error ⟨.unterminated, start⟩
    | '"' :: rest => .ok (done.reverse, rest)
    | '\\' :: rest =>
      match rest with
      | [] => .error ⟨.unterminated, start⟩
      | 'u' :: _ =>
        match readUnicode rest with
        | .error stop => .error stop
        | .ok (c, rest) => readString mode start steps rest (c :: done)
      | e :: rest =>
        match escaped? e with
        | none => .error ⟨.escape, cs⟩
        | some c => readString mode start steps rest (c :: done)
    | c :: rest =>
      if mode = .strict ∧ c.toNat < 0x20 then .error ⟨.controlCharacter, cs⟩
      else readString mode start steps rest (c :: done)

/-! ## Numbers -/

/-- The digits of a fraction, and what follows it; a point without a digit is no fraction. -/
def fraction (cs : List Char) : List Char × List Char :=
  match cs with
  | '.' :: rest =>
    let digits := rest.takeWhile Char.isDigit
    if digits.isEmpty then ([], cs) else (digits, rest.dropWhile Char.isDigit)
  | _ => ([], cs)

/-- The exponent and what follows it; a mark without a digit is no exponent. -/
def exponent? (cs : List Char) : Option Int × List Char :=
  match cs with
  | e :: rest =>
    if e = 'e' ∨ e = 'E' then
      let (negative, digits) :=
        match rest with
        | '-' :: r => (true, r)
        | '+' :: r => (false, r)
        | r => (false, r)
      let shown := digits.takeWhile Char.isDigit
      if shown.isEmpty then (none, cs)
      else
        let n : Int := Text.natOf shown
        (some (if negative then -n else n), digits.dropWhile Char.isDigit)
    else (none, cs)
  | [] => (none, cs)

/-- A number without its sign, and what follows it; `start` is the text from the sign on. -/
def readMagnitude (negative : Bool) (start cs : List Char) : Except Stop (Value × List Char) :=
  let whole :=
    match cs with
    | '0' :: _ => ['0']
    | _ => cs.takeWhile Char.isDigit
  if whole.isEmpty then .error ⟨.value, start⟩
  else
    let afterWhole := cs.drop whole.length
    let (digits, afterFraction) := fraction afterWhole
    let (power, rest) := exponent? afterFraction
    if digits.isEmpty ∧ power.isNone then
      if digitLimit < whole.length then .error ⟨.tooManyDigits whole.length, start⟩
      else
        let n : Int := Text.natOf whole
        .ok (.int (if negative then -n else n), rest)
    else
      let scale := power.getD 0 - digits.length
      .ok (.float (Double.ofDecimal negative (Text.natOf (whole ++ digits)) scale), rest)

/-- A number, and what follows it. -/
def readNumber (cs : List Char) : Except Stop (Value × List Char) :=
  match cs with
  | '-' :: rest => readMagnitude true cs rest
  | _ => readMagnitude false cs cs

/-! ## Values -/

/-- The names that stand for values. -/
def names : List (List Char × Value) :=
  [("null".toList, .null), ("true".toList, .bool true), ("false".toList, .bool false),
   ("NaN".toList, .float .undefined), ("Infinity".toList, .float (.infinite false)),
   ("-Infinity".toList, .float (.infinite true))]

/-- The value of the name that the text starts with, and what follows it. -/
def readName? (cs : List Char) : Option (Value × List Char) :=
  names.findSome? fun (name, v) =>
    if name.isPrefixOf cs then some (v, cs.drop name.length) else none

mutual

/-- The value at the front of a text, and what follows it. -/
def readValue (mode : Mode) : Nat → List Char → Except Stop (Value × List Char)
  | 0, cs => .error ⟨.value, cs⟩
  | steps + 1, cs =>
    match cs with
    | '"' :: rest =>
      match readString mode cs (rest.length + 1) rest [] with
      | .error stop => .error stop
      | .ok (s, rest) => .ok (.str (String.ofList s), rest)
    | '\x7b' :: rest =>
      match skipSpace rest with
      | '\x7d' :: after => .ok (.object [], after)
      | inner => readFields mode steps inner []
    | '[' :: rest =>
      match skipSpace rest with
      | ']' :: after => .ok (.list [], after)
      | inner => readItems mode steps inner []
    | _ =>
      match readName? cs with
      | some found => .ok found
      | none => readNumber cs

/-- The items of a list up to its closing bracket. -/
def readItems (mode : Mode) : Nat → List Char → List Value → Except Stop (Value × List Char)
  | 0, cs, _ => .error ⟨.value, cs⟩
  | steps + 1, cs, done =>
    match readValue mode steps cs with
    | .error stop => .error stop
    | .ok (v, rest) =>
      match skipSpace rest with
      | ']' :: after => .ok (.list (v :: done).reverse, after)
      | ',' :: after => readItems mode steps (skipSpace after) (v :: done)
      | other => .error ⟨.comma, other⟩

/-- The fields of an object up to its closing brace. -/
def readFields (mode : Mode) :
    Nat → List Char → List (String × Value) → Except Stop (Value × List Char)
  | 0, cs, _ => .error ⟨.value, cs⟩
  | steps + 1, cs, done =>
    match cs with
    | '"' :: rest =>
      match readString mode cs (rest.length + 1) rest [] with
      | .error stop => .error stop
      | .ok (key, rest) =>
        match skipSpace rest with
        | ':' :: after =>
          match readValue mode steps (skipSpace after) with
          | .error stop => .error stop
          | .ok (v, rest) =>
            let fields := setField (String.ofList key) v done
            match skipSpace rest with
            | '\x7d' :: after => .ok (.object fields, after)
            | ',' :: after => readFields mode steps (skipSpace after) fields
            | other => .error ⟨.comma, other⟩
        | other => .error ⟨.colon, other⟩
    | _ => .error ⟨.name, cs⟩

end

/-- The one value of a text. -/
def readChars (mode : Mode) (cs : List Char) : Except Stop Value :=
  match readValue mode (2 * cs.length + 2) (skipSpace cs) with
  | .error stop => .error stop
  | .ok (v, rest) =>
    match skipSpace rest with
    | [] => .ok v
    | extra => .error ⟨.extra, extra⟩

/-! ## Faults with their place -/

/-- Why a text could not be read, and at which character. -/
structure ReadError where
  reason : Reason
  text : String
  offset : Nat
deriving Repr

namespace ReadError

/-- The line of the offending character, counted from one. -/
def line (e : ReadError) : Nat :=
  ((e.text.toList.take e.offset).filter (· == '\n')).length + 1

/-- The column of the offending character, counted from one. -/
def column (e : ReadError) : Nat :=
  ((e.text.toList.take e.offset).reverse.takeWhile (· != '\n')).length + 1

/-- The wording of a fault; a number that is too long is reported without its place. -/
def message (e : ReadError) : String :=
  match e.reason with
  | .tooManyDigits _ => e.reason.text
  | reason =>
    reason.text ++ ": line " ++ toString e.line ++ " column " ++ toString e.column
      ++ " (char " ++ toString e.offset ++ ")"

end ReadError

/-- The one value of a text. -/
def read (mode : Mode) (s : String) : Except ReadError Value :=
  let cs := s.toList
  match cs with
  | '\ufeff' :: _ => .error ⟨.byteOrderMark, s, 0⟩
  | _ =>
    match readChars mode cs with
    | .ok v => .ok v
    | .error stop => .error ⟨stop.reason, s, cs.length - stop.rest.length⟩

end SolidityAudit.Json
