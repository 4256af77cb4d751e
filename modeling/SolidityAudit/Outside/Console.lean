import SolidityAudit.Outside.Request

/-!
# The console

What is shown on a console without colours: lines of text, with the markup left out.
-/

namespace SolidityAudit.Outside

/-- The text behind an opening bracket: without the tag that it begins, if it begins one. -/
def behindBracket (s : String) : String :=
  let cs := s.toList
  let opensTag := cs.head?.any fun c => c.isLower || c == '/'
  if opensTag && cs.contains ']' then String.ofList ((cs.dropWhile (· != ']')).drop 1)
  else "[" ++ s

/-- A text without its markup. -/
def withoutMarkup (s : String) : String :=
  match s.splitOn "[" with
  | [] => ""
  | first :: rest => first ++ String.join (rest.map behindBracket)

/-- The cells of a row side by side. -/
def rowText (cells : List String) : String :=
  "  ".intercalate (cells.map withoutMarkup)

/-- The lines of what is shown. -/
def Shown.lines : Shown → List String
  | .text s => [withoutMarkup s]
  | .table title columns rows => title :: rowText columns :: rows.map rowText
  | .panel s title => [title, withoutMarkup s]

end SolidityAudit.Outside
