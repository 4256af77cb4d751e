import SolidityAudit.Fault

/-!
# The encodings of contract files

A contract file says nothing of its encoding. Some encodings are tried one after the other, and the
first in which the octets are a text decides. A file is fed to a decoder bit by bit, which differs
from decoding the octets as a whole in one case: whether a file that ends within a byte-order mark
would have had one is never known, so nothing of it is decoded.
-/

namespace SolidityAudit.Source

open Text

/-- The octets in front of a file that say that it is UTF-8. -/
def byteOrderMark : List UInt8 := [0xEF, 0xBB, 0xBF]

/-- An encoding of contract files. -/
inductive Encoding
  | utf8
  /-- UTF-8 behind a byte-order mark, or without one -/
  | markedUtf8
  | latin1
  | windows1252
deriving DecidableEq, Repr

namespace Encoding

/-- The encodings in the order in which they are tried. -/
def every : List Encoding := [utf8, markedUtf8, latin1, windows1252]

/-- The code points from octet 0x80 on in Windows-1252, where it differs from Latin-1. Five octets
stand for nothing. -/
def windowsCodes : List (Option Nat) :=
  [some 0x20AC, none, some 0x201A, some 0x0192, some 0x201E, some 0x2026, some 0x2020, some 0x2021,
   some 0x02C6, some 0x2030, some 0x0160, some 0x2039, some 0x0152, none, some 0x017D, none,
   none, some 0x2018, some 0x2019, some 0x201C, some 0x201D, some 0x2022, some 0x2013, some 0x2014,
   some 0x02DC, some 0x2122, some 0x0161, some 0x203A, some 0x0153, none, some 0x017E, some 0x0178]

/-- The character of an octet in Windows-1252. -/
def windowsChar? (b : UInt8) : Option Char :=
  if b.toNat < 0x80 then some (Char.ofNat b.toNat)
  else ((windowsCodes[b.toNat - 0x80]?).getD (some b.toNat)).map Char.ofNat

/-- The characters of octets in an encoding, taken as a whole. -/
def decode? : Encoding → List UInt8 → Option (List Char)
  | utf8, octets => (Utf8.decode octets).toOption
  | markedUtf8, octets =>
    let text := if byteOrderMark.isPrefixOf octets then octets.drop byteOrderMark.length else octets
    (Utf8.decode text).toOption
  | latin1, octets => some (Text.latin1 octets)
  | windows1252, octets => octets.mapM windowsChar?

/-- The characters of a file in an encoding. What may become a mark is held back. -/
def decodeFile? : Encoding → List UInt8 → Option (List Char)
  | markedUtf8, octets =>
    if octets.length < byteOrderMark.length ∧ octets.isPrefixOf byteOrderMark then some []
    else markedUtf8.decode? octets
  | e, octets => e.decode? octets

end Encoding

/-- No encoding reads the octets of a file. -/
def noEncoding : Undecodable := ⟨[], 0, .unsupported⟩

/-- The text of octets by the first encoding that decodes them, with line feeds between its
lines. -/
def textBy (decode? : Encoding → List UInt8 → Option (List Char)) (octets : List UInt8) :
    Except Fault String :=
  match Encoding.every.findSome? (decode? · octets) with
  | some cs => .ok (String.ofList (unifyLines cs))
  | none => .error (.undecodable noEncoding)

end SolidityAudit.Source
