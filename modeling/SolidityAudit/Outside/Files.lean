import SolidityAudit.Outside.Request
import SolidityAudit.Text.Utf8

/-!
# Files

The files of a machine as a value. A path with a root leads to a place from the root on, and any
other path from the working directory on.
-/

namespace SolidityAudit.Outside

/-- Files with their octets, and folders, each at its place from the root on. The folders on the way
to an entry are there as well, and so is the working directory. -/
structure Files where
  entries : List (List String × Option (List UInt8))
  working : List String := []
deriving Repr

namespace Files

/-- The entry at a place. The working directory and what stands above it are folders. -/
def entryAt (f : Files) (place : List String) : Option (Option (List UInt8)) :=
  if place.isPrefixOf f.working then some none else f.entries.lookup place

/-- What stands at a place. -/
def kindAt (f : Files) (place : List String) : Option FileKind :=
  match f.entryAt place with
  | some (some _) => some .file
  | some none => some .folder
  | none => if f.entries.any (place.isPrefixOf ·.1) then some .folder else none

/-- The place to which a path leads. Everything on the way must be a folder; nothing is above the
root. -/
def resolve (f : Files) (here : List String) : List String → Option (List String)
  | [] => some here
  | part :: rest =>
    if f.kindAt here ≠ some .folder then none
    else if part = ".." then f.resolve here.dropLast rest
    else f.resolve (here ++ [part]) rest

/-- Where a path begins. -/
def startOf (f : Files) (p : Path) : List String :=
  if p.root = "" then f.working else []

/-- The place of a path. -/
def place? (f : Files) (p : Path) : Option (List String) :=
  f.resolve (f.startOf p) p.parts

/-- What stands at a path. -/
def kindOf (f : Files) (p : Path) : Option FileKind :=
  f.place? p >>= f.kindAt

/-- The octets of the file at a path. -/
def read (f : Files) (p : Path) : Option (List UInt8) := do
  let place ← f.place? p
  let content ← f.entryAt place
  content

/-- The files with an entry at a place. -/
def put (f : Files) (place : List String) (content : Option (List UInt8)) : Files :=
  { f with entries := f.entries.filter (·.1 ≠ place) ++ [(place, content)] }

/-- The files with a text written to a path; `none` if no file can be there. -/
def write? (f : Files) (p : Path) (content : String) : Option Files := do
  let place ← f.place? p
  if f.kindAt place = some .folder then none
  else if f.kindAt place.dropLast = some .folder then
    some (f.put place (some (Text.Utf8.encode content)))
  else none

/-- The files with the folders on a path, and whether all of them could be made. -/
def makeAlong (f : Files) (here : List String) : List String → Files × Bool
  | [] => (f, f.kindAt here = some .folder)
  | part :: rest =>
    if part = ".." then f.makeAlong here.dropLast rest
    else
      let next := here ++ [part]
      match f.kindAt next with
      | some .folder => f.makeAlong next rest
      | some .file => (f, false)
      | none => (f.put next none).makeAlong next rest

/-- The files with a folder at a path and with those above it, and whether it could be made. -/
def makeFolder (f : Files) (p : Path) : Files × Bool :=
  f.makeAlong (f.startOf p) p.parts

end Files

end SolidityAudit.Outside
