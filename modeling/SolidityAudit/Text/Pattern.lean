import SolidityAudit.Text.Blank
import SolidityAudit.Text.Word

/-!
# Text patterns

A pattern is a choice between sequences of steps, and a step takes characters off the front of a
text. `Pattern.ends` lists what may be left of a text after the pattern, the preferred way first:
earlier alternatives before later ones, greedy steps the longest way first and lazy steps the
shortest way first. Searching tries the suffixes of a text from left to right and takes the first
way of the first suffix that has one.
-/

namespace SolidityAudit

/-- One step of a pattern: what it takes off the front of a text. -/
inductive Step
  /-- exactly one character of the class -/
  | one (accepts : Char → Bool)
  /-- any number of characters of the class, the most first -/
  | many (accepts : Char → Bool)
  /-- any number of characters of the class, the fewest first -/
  | few (accepts : Char → Bool)
  /-- the given characters, or nothing -/
  | maybe (literal : List Char)

/-- Alternatives in order of preference, each a sequence of steps. -/
abbrev Pattern := List (List Step)

namespace Step

/-- What may be left after a run of characters of the class, the shortest run first. -/
def shortestFirst (accepts : Char → Bool) : List Char → List (List Char)
  | [] => [[]]
  | c :: cs => (c :: cs) :: if accepts c then shortestFirst accepts cs else []

/-- What may be left after a run of characters of the class, the longest run first. -/
def longestFirst (accepts : Char → Bool) (cs : List Char) : List (List Char) :=
  (shortestFirst accepts cs).reverse

/-- What is left after the literal, if the text starts with it. -/
def afterLiteral : List Char → List Char → Option (List Char)
  | [], cs => some cs
  | _ :: _, [] => none
  | l :: ls, c :: cs => if l = c then afterLiteral ls cs else none

/-- What may be left of a text after the step, the preferred way first. -/
def ends : Step → List Char → List (List Char)
  | one accepts, c :: cs => if accepts c then [cs] else []
  | one _, [] => []
  | many accepts, cs => longestFirst accepts cs
  | few accepts, cs => shortestFirst accepts cs
  | maybe literal, cs => (afterLiteral literal cs).toList ++ [cs]

end Step

namespace Pattern

/-! ## Building patterns -/

/-- The characters of a text, one step each. -/
def literal (s : String) : List Step :=
  s.toList.map fun l => .one (· == l)

/-- Whether a character stands for an ASCII small letter when case is ignored: besides the capital,
the long s stands for s, the kelvin sign for k, and the dotted capital and the dotless small i for
i. -/
def sameLetter (letter c : Char) : Bool :=
  c.toLower == letter
    || (letter == 's' && c == '\u017f')
    || (letter == 'k' && c == '\u212a')
    || (letter == 'i' && (c == '\u0131' || c == '\u0130'))

/-- The characters of a text in small letters, in either case. -/
def anyCase (s : String) : List Step :=
  s.toList.map fun l => .one (sameLetter l)

/-- Any number of blanks. -/
def blanks : List Step := [.many Text.isBlank]

/-- At least one blank. -/
def blanks1 : List Step := [.one Text.isBlank, .many Text.isBlank]

/-- At least one word character. -/
def word1 : List Step := [.one Text.isWord, .many Text.isWord]

/-- Any number of characters other than the given one. -/
def noneOf (stop : Char) : List Step := [.many (· != stop)]

/-- Any characters up to the end of the line. -/
def onLine : List Step := noneOf '\n'

/-! ## Matching -/

/-- What may be left of a text after the steps, the preferred way first. -/
def endsOfSteps : List Step → List Char → List (List Char)
  | [], cs => [cs]
  | step :: steps, cs => (step.ends cs).flatMap (endsOfSteps steps)

/-- What may be left of a text after the pattern, the preferred way first. -/
def ends (p : Pattern) (cs : List Char) : List (List Char) :=
  p.flatMap fun steps => endsOfSteps steps cs

/-- What is left of a text after the pattern taken the preferred way. -/
def rest? (p : Pattern) (cs : List Char) : Option (List Char) :=
  (p.ends cs).head?

/-- Whether the pattern occurs somewhere in the text. -/
def occurs (p : Pattern) : List Char → Bool
  | [] => (p.rest? []).isSome
  | c :: cs => (p.rest? (c :: cs)).isSome || occurs p cs

/-- The occurrences in a text whose first `skip` characters belong to an occurrence already
counted. -/
def countAfter (p : Pattern) : Nat → List Char → Nat
  | _, [] => 0
  | skip + 1, _ :: cs => countAfter p skip cs
  | 0, c :: cs =>
    match p.rest? (c :: cs) with
    | none => countAfter p 0 cs
    | some rest => 1 + countAfter p (cs.length - rest.length) cs

/-- How often the pattern occurs when each search goes on where the last occurrence ended. -/
def count (p : Pattern) (cs : List Char) : Nat :=
  countAfter p 0 cs

/-- The part of the text that was taken on the way from `before` to its suffix `after`. -/
def taken (before after : List Char) : List Char :=
  before.take (before.length - after.length)

/-- The text that `inside` takes in the first occurrence of `before`, `inside` and `after` one
after the other. -/
def capture? (before inside after : Pattern) (cs : List Char) : Option (List Char) :=
  let here := (before.ends cs).findSome? fun start =>
    (inside.ends start).findSome? fun stop =>
      (after.rest? stop).map fun _ => taken start stop
  match here, cs with
  | some found, _ => some found
  | none, [] => none
  | none, _ :: cs => capture? before inside after cs

end Pattern

end SolidityAudit
