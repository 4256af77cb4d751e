import SolidityAudit.Text.Quoted

/-!
# Text from octets

Strict UTF-8: no overlong forms, no surrogates, nothing beyond the last code point, and no sequence
that the end cuts off. Latin-1 gives every octet the character of its number.
-/

namespace SolidityAudit.Text

/-- Why octets are no UTF-8. -/
inductive Utf8Fault
  | opening | continuation | unfinished
  /-- nor anything else that could be read -/
  | unsupported
deriving DecidableEq, Repr

/-- The wording of a cause. -/
def Utf8Fault.text : Utf8Fault → String
  | opening => "invalid start byte"
  | continuation => "invalid continuation byte"
  | unfinished => "unexpected end of data"
  | unsupported => "Unable to decode file with any supported encoding"

/-- Octets that are no UTF-8, and the place of the first of them. -/
structure Undecodable where
  octets : List UInt8
  place : Nat
  cause : Utf8Fault
deriving DecidableEq, Repr

/-- The wording of a fault. -/
def Undecodable.message (u : Undecodable) : String :=
  let which :=
    match u.octets with
    | [b] => "byte 0x" ++ hexDigits 2 b.toNat ++ " in position " ++ toString u.place
    | _ =>
      "bytes in position " ++ toString u.place ++ "-"
        ++ toString (((u.place + u.octets.length : Nat) : Int) - 1)
  "'utf-8' codec can't decode " ++ which ++ ": " ++ u.cause.text

namespace Utf8

/-- A sequence that has begun: the octets still to come, the bounds of the next one, the value so
far, and the octets so far. -/
structure Begun where
  missing : Nat
  low : Nat
  high : Nat
  value : Nat
  octets : List UInt8
deriving DecidableEq, Repr

/-- The sequence that an octet beyond ASCII begins. -/
def begin? (b : UInt8) : Option Begun :=
  let n := b.toNat
  if 0xC2 ≤ n ∧ n ≤ 0xDF then some ⟨1, 0x80, 0xBF, n - 0xC0, [b]⟩
  else if n = 0xE0 then some ⟨2, 0xA0, 0xBF, n - 0xE0, [b]⟩
  else if n = 0xED then some ⟨2, 0x80, 0x9F, n - 0xE0, [b]⟩
  else if 0xE1 ≤ n ∧ n ≤ 0xEF then some ⟨2, 0x80, 0xBF, n - 0xE0, [b]⟩
  else if n = 0xF0 then some ⟨3, 0x90, 0xBF, n - 0xF0, [b]⟩
  else if 0xF1 ≤ n ∧ n ≤ 0xF3 then some ⟨3, 0x80, 0xBF, n - 0xF0, [b]⟩
  else if n = 0xF4 then some ⟨3, 0x80, 0x8F, n - 0xF0, [b]⟩
  else none

/-- The characters of octets, given the place of the next octet, the sequence that has begun and
the characters before it in reverse. -/
def decodeFrom (place : Nat) (begun : Option Begun) (done : List Char) :
    List UInt8 → Except Undecodable (List Char)
  | [] =>
    match begun with
    | none => .ok done.reverse
    | some s => .error ⟨s.octets, place - s.octets.length, .unfinished⟩
  | b :: rest =>
    match begun with
    | none =>
      if b.toNat < 0x80 then decodeFrom (place + 1) none (Char.ofNat b.toNat :: done) rest
      else
        match begin? b with
        | some s => decodeFrom (place + 1) (some s) done rest
        | none => .error ⟨[b], place, .opening⟩
    | some s =>
      if s.low ≤ b.toNat ∧ b.toNat ≤ s.high then
        let value := s.value * 64 + (b.toNat - 0x80)
        if s.missing = 1 then decodeFrom (place + 1) none (Char.ofNat value :: done) rest
        else
          decodeFrom (place + 1) (some ⟨s.missing - 1, 0x80, 0xBF, value, s.octets ++ [b]⟩) done
            rest
      else .error ⟨s.octets, place - s.octets.length, .continuation⟩

/-- The characters of octets. -/
def decode (octets : List UInt8) : Except Undecodable (List Char) :=
  decodeFrom 0 none [] octets

/-- The octets of a text. -/
def encode (s : String) : List UInt8 := s.toUTF8.toList

end Utf8

/-- The characters of octets in Latin-1. -/
def latin1 (octets : List UInt8) : List Char :=
  octets.map fun b => Char.ofNat b.toNat

/-- A text with every line break, whether of one character or two, as a line feed. -/
def unifyLines : List Char → List Char
  | '\r' :: '\n' :: rest => '\n' :: unifyLines rest
  | '\r' :: rest => '\n' :: unifyLines rest
  | c :: rest => c :: unifyLines rest
  | [] => []

end SolidityAudit.Text
