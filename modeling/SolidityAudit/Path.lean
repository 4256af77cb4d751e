/-!
# File paths

A path is a root and a list of parts. Repeated separators, parts that stay in place, and a
separator at the end do not count.
-/

namespace SolidityAudit

/-- A path to a file. The root is empty for a path from the working directory. -/
structure Path where
  root : String
  parts : List String
deriving DecidableEq, Repr

namespace Path

/-- The path that a text writes. -/
def ofText (s : String) : Path :=
  let slashes := (s.toList.takeWhile (· == '/')).length
  let root := if slashes = 0 then "" else if slashes = 2 then "//" else "/"
  let parts := (s.toList.splitOn '/').map String.ofList
  ⟨root, parts.filter fun part => part ≠ "" && part ≠ "."⟩

/-- A path as text. -/
def text (p : Path) : String :=
  if p.root = "" ∧ p.parts = [] then "." else p.root ++ "/".intercalate p.parts

/-- The path without its last part. -/
def parent (p : Path) : Path := { p with parts := p.parts.dropLast }

/-- The path in a directory. -/
def inside (folder p : Path) : Path :=
  if p.root = "" then { folder with parts := folder.parts ++ p.parts } else p

/-- The last part of a path. -/
def name (p : Path) : String := p.parts.getLast?.getD ""

/-- The end of the name from its last dot on; a dot at either end of the name opens none. -/
def suffix (p : Path) : String :=
  let cs := p.name.toList
  let after := cs.reverse.takeWhile (· != '.')
  let before := cs.length - after.length - 1
  if after = [] ∨ cs.length ≤ after.length + 1 then "" else String.ofList (cs.drop before)

end Path

end SolidityAudit
