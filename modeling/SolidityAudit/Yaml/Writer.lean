import SolidityAudit.Value.Sorted
import SolidityAudit.Yaml.Scalar

/-!
# Writing YAML

A document is written in block style with its keys in order, in ASCII. A text stands without quotes
where it would be read back as itself, in single quotes where it holds no special characters, and in
double quotes otherwise. Lines are folded at blanks beyond the column of the width.
-/

namespace SolidityAudit.Yaml

/-- The column beyond which a line is folded. -/
def foldWidth : Nat := 80

/-- Text that has been written, in reverse, and the column after it. -/
structure Written where
  done : List Char
  column : Nat

namespace Written

/-- More characters on the line. -/
def add (w : Written) (cs : List Char) : Written :=
  ⟨cs.reverse ++ w.done, w.column + cs.length⟩

/-- Line breaks, and the blanks of the next line. -/
def breakLine (w : Written) (count indent : Nat) : Written :=
  ⟨List.replicate indent ' ' ++ (List.replicate count '\n' ++ w.done), indent⟩

end Written

/-! ## Styles -/

/-- A character that needs an escape. -/
def isSpecial (c : Char) : Bool :=
  c != '\n' && !(0x20 ≤ c.toNat && c.toNat ≤ 0x7E)

/-- A blank or a line break, as long as there are no special characters. -/
def isGap (c : Char) : Bool := c == ' ' || c == '\n'

/-- Whether two characters of the classes follow each other. -/
def hasPair (first second : Char → Bool) : List Char → Bool
  | a :: b :: rest => (first a && second b) || hasPair first second (b :: rest)
  | _ => false

/-- Whether a text can stand in single quotes. -/
def fitsSingle (cs : List Char) : Bool :=
  !cs.any isSpecial && !hasPair (· == ' ') (· == '\n') cs && !hasPair (· == '\n') (· == ' ') cs

/-- Whether a text begins with a mark of YAML. -/
def beginsWithMark (cs : List Char) : Bool :=
  "---".toList.isPrefixOf cs || "...".toList.isPrefixOf cs
    || match cs with
      | c :: rest =>
        "#,[]\x7b\x7d&*!|>'\"%@\x60".toList.contains c
          || ("?:-".toList.contains c && rest.head?.all isGap)
      | [] => false

/-- Whether a text holds a mark of YAML after its beginning. -/
def holdsMark (cs : List Char) : Bool :=
  hasPair (· == ':') isGap cs || cs.getLast? == some ':' || hasPair isGap (· == '#') cs

/-- Whether a text can stand without quotes. -/
def fitsPlain (cs : List Char) : Bool :=
  !cs.any isSpecial && !cs.contains '\n' && cs.head? != some ' ' && cs.getLast? != some ' '
    && !beginsWithMark cs && !holdsMark cs && standsForItself (String.ofList cs)

/-! ## Scalars -/

/-- The runs of a text: characters that go together by the test stand in one list. -/
def runs (together : Char → Char → Bool) : List Char → List (List Char)
  | [] => []
  | c :: rest =>
    match runs together rest with
    | (d :: run) :: more =>
      if together c d then (c :: d :: run) :: more else [c] :: (d :: run) :: more
    | _ => [[c]]

/-- Blanks, line breaks and other characters each go with their like. -/
def alike (c d : Char) : Bool :=
  (c == ' ') == (d == ' ') && (c == '\n') == (d == '\n')

/-- A text without quotes, with the blanks of lines after the first. -/
def addPlain (indent : Nat) (w : Written) (cs : List Char) : Written :=
  (runs alike cs).foldl (fun w run =>
    if run == [' '] && foldWidth < w.column then w.breakLine 1 indent else w.add run) w

/-- The runs of a text in single quotes; `first` says that none stands before. -/
def addSingleRuns (indent : Nat) (first : Bool) (w : Written) : List (List Char) → Written
  | [] => w
  | run :: rest =>
    let w :=
      if run.head? == some '\n' then w.breakLine (run.length + 1) indent
      else if run == [' '] && foldWidth < w.column && !first && !rest.isEmpty then
        w.breakLine 1 indent
      else w.add (run.flatMap fun c => if c = '\'' then ['\'', '\''] else [c])
    addSingleRuns indent false w rest

/-- A text in single quotes. -/
def addSingle (indent : Nat) (w : Written) (cs : List Char) : Written :=
  (addSingleRuns indent true (w.add ['\'']) (runs alike cs)).add ['\'']

/-- The escapes of one letter. -/
def letterEscapes : List (Char × Char) :=
  [('\x00', '0'), ('\x07', 'a'), ('\x08', 'b'), ('\t', 't'), ('\n', 'n'), ('\x0b', 'v'),
   ('\x0c', 'f'), ('\r', 'r'), ('\x1b', 'e'), ('"', '"'), ('\\', '\\'), ('\x85', 'N'),
   ('\xa0', '_'), ('\u2028', 'L'), ('\u2029', 'P')]

/-- The escape of a character. -/
def escapeOf (c : Char) : List Char :=
  let digits (count : Nat) : List Char :=
    (Text.hexDigits count c.toNat).toList.map Char.toUpper
  match letterEscapes.lookup c with
  | some letter => ['\\', letter]
  | none =>
    if c.toNat ≤ 0xFF then '\\' :: 'x' :: digits 2
    else if c.toNat ≤ 0xFFFF then '\\' :: 'u' :: digits 4
    else '\\' :: 'U' :: digits 8

/-- A text in double quotes from after its opening quote on. A line is folded behind a backslash,
and a blank that begins a line stands behind another. `pending` holds what has not been written of
the text, and `first` says that nothing of it has been passed. -/
def addDoubleFrom (indent : Nat) (first : Bool) (pending : List Char) (w : Written) :
    List Char → Written
  | [] => w.add pending
  | c :: rest =>
    let inner := !first && !rest.isEmpty
    let fold (w : Written) (next : Option Char) : Written :=
      let w := (w.add ['\\']).breakLine 1 indent
      if next == some ' ' then w.add ['\\'] else w
    if isSpecial c || c == '\n' || c == '"' || c == '\\' then
      let w := (w.add pending).add (escapeOf c)
      let w := if inner && foldWidth + 1 < w.column then fold w rest.head? else w
      addDoubleFrom indent false [] w rest
    else if inner && (c == ' ' || pending.isEmpty) && foldWidth < w.column + pending.length then
      addDoubleFrom indent false [c] (fold (w.add pending) (some c)) rest
    else addDoubleFrom indent false (pending ++ [c]) w rest

/-- A text in double quotes. -/
def addDouble (indent : Nat) (w : Written) (cs : List Char) : Written :=
  (addDoubleFrom indent true [] (w.add ['"']) cs).add ['"']

/-- A text as a scalar. -/
def addText (indent : Nat) (w : Written) (s : String) : Written :=
  let cs := s.toList
  if fitsPlain cs then addPlain indent w cs
  else if fitsSingle cs then addSingle indent w cs
  else addDouble indent w cs

/-- The names of the numbers without digits. -/
def floatNames : Double.SpecialNames := ⟨".inf", "-.inf", ".nan"⟩

/-- A fraction; one that is written with an exponent has a point. -/
def floatText (x : Double) : String :=
  let cs := (x.text floatNames).toList
  if cs.contains '.' || !cs.contains 'e' then String.ofList cs
  else
    String.ofList
      (cs.takeWhile (· != 'e') ++ ['.', '0'] ++ cs.dropWhile (· != 'e'))

/-- A value that is no collection with items. -/
def addScalar (indent : Nat) (w : Written) : Value → Written
  | .null => w.add "null".toList
  | .bool b => w.add (if b then "true" else "false").toList
  | .int n => w.add (toString n).toList
  | .float x => w.add (floatText x).toList
  | .str s => addText indent w s
  | .list _ => w.add "[]".toList
  | .object _ => w.add "\x7b\x7d".toList

/-! ## Collections -/

/-- How many columns a collection in another one stands further in. -/
def step : Nat := 2

mutual

/-- The fields of a mapping, each on lines of its own at the given column. The first one goes on
with the line that has begun. -/
def addFields (indent : Nat) (w : Written) : List (String × Value) → Written
  | [] => w
  | [(k, v)] => addField indent w k v
  | (k, v) :: rest => addFields indent ((addField indent w k v).breakLine 1 indent) rest

/-- A field of a mapping. A list in a mapping stands at the column of its key. -/
def addField (indent : Nat) (w : Written) (k : String) : Value → Written
  | .list (v :: rest) =>
    addItems indent (((addText indent w k).add [':']).breakLine 1 indent) (v :: rest)
  | .object (f :: rest) =>
    addFields (indent + step) (((addText indent w k).add [':']).breakLine 1 (indent + step))
      (f :: rest)
  | v => addScalar (indent + step) ((addText indent w k).add [':', ' ']) v

/-- The items of a list, each on lines of its own at the given column. -/
def addItems (indent : Nat) (w : Written) : List Value → Written
  | [] => w
  | [v] => addItem indent (w.add ['-', ' ']) v
  | v :: rest =>
    addItems indent ((addItem indent (w.add ['-', ' ']) v).breakLine 1 indent) rest

/-- An item of a list. -/
def addItem (indent : Nat) (w : Written) : Value → Written
  | .list (v :: rest) => addItems (indent + step) w (v :: rest)
  | .object (f :: rest) => addFields (indent + step) w (f :: rest)
  | v => addScalar (indent + step) w v

end

/-- A value as a document, with its keys in order. -/
def write (v : Value) : String :=
  let start : Written := ⟨[], 0⟩
  let w :=
    match v.sortKeys with
    | .list (v :: rest) => addItems 0 start (v :: rest)
    | .object (f :: rest) => addFields 0 start (f :: rest)
    | v => addScalar 0 start v
  String.ofList ('\n' :: w.done).reverse

end SolidityAudit.Yaml
