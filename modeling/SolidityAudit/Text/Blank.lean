/-!
# Blank characters

The characters that separate words: the ASCII blanks with the four information separators, the
next-line and no-break spaces, and the space and line separators of the general punctuation block.
Zero-width characters and the byte-order mark are not blank.
-/

namespace SolidityAudit.Text

/-- The blank characters beyond ASCII, as closed ranges of code points. -/
def blankRanges : List (Nat × Nat) :=
  [(0x85, 0x85), (0xA0, 0xA0), (0x1680, 0x1680), (0x2000, 0x200A), (0x2028, 0x2029),
   (0x202F, 0x202F), (0x205F, 0x205F), (0x3000, 0x3000)]

/-- Whether a closed range of the list holds the code point. -/
def inRanges (ranges : List (Nat × Nat)) (n : Nat) : Bool :=
  ranges.any fun r => r.1 ≤ n && n ≤ r.2

/-- A character that separates words. -/
def isBlank (c : Char) : Bool :=
  let n := c.toNat
  if n < 0x80 then n == 0x20 || (0x09 ≤ n && n ≤ 0x0D) || (0x1C ≤ n && n ≤ 0x1F)
  else inRanges blankRanges n

/-- The characters left when `drop` is stripped from both ends. -/
def stripBoth (drop : Char → Bool) (cs : List Char) : List Char :=
  ((cs.dropWhile drop).reverse.dropWhile drop).reverse

/-- The characters left when `drop` is stripped from the right end. -/
def stripRight (drop : Char → Bool) (cs : List Char) : List Char :=
  (cs.reverse.dropWhile drop).reverse

/-- A text without the blanks at its two ends. -/
def trim (s : String) : String :=
  String.ofList (stripBoth isBlank s.toList)

end SolidityAudit.Text
