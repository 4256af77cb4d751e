import SolidityAudit.Yaml.Scalar

/-!
# Reading YAML

`Yaml.read` reads one document of block and flow collections, plain and quoted scalars and comments.
Anchors, tags, block scalars and directives are not part of what it reads. A block is held together
by the column of its items, so a cursor knows its column and whether its line has just begun.
-/

namespace SolidityAudit.Yaml

/-- Why a text is no document. -/
inductive Cause
  | character | unclosed | misplaced | reserved | badEscape | badKey | secondDocument
deriving DecidableEq, Repr

/-- The wording of a cause. -/
def Cause.text : Cause → String
  | character => "found a character that cannot be there"
  | unclosed => "a bracket or a quote is not closed"
  | misplaced => "found something where it cannot be"
  | reserved => "found a text that stands for no value"
  | badEscape => "found an unknown escape"
  | badKey => "a list or a mapping cannot be a key"
  | secondDocument => "found another document"

/-- A part of a document. -/
inductive Node
  | scalar (v : Value)
  | list (items : List Node)
  | mapping (fields : List (Node × Node))
deriving Repr, Inhabited

/-- The rest of a text, the column at which it stands, and whether nothing but blanks stands before
it on its line. -/
structure Cursor where
  rest : List Char
  column : Nat
  fresh : Bool
deriving Repr

/-! ## Characters -/

/-- A character that ends a line. -/
def isBreak (c : Char) : Bool :=
  c == '\n' || c == '\x85' || c == '\u2028' || c == '\u2029'

/-- Whether a token ends here: at a blank, a line break or the end of the text. -/
def atGap : List Char → Bool
  | [] => true
  | c :: _ => c == ' ' || c == '\t' || isBreak c

/-- A character that a text may hold. -/
def isPrintable (c : Char) : Bool :=
  let n := c.toNat
  n == 0x09 || n == 0x0A || n == 0x0D || (0x20 ≤ n && n ≤ 0x7E) || n == 0x85
    || (0xA0 ≤ n && n ≤ 0xD7FF) || (0xE000 ≤ n && n ≤ 0xFFFD) || 0x10000 ≤ n

/-- The brackets, braces and commas that end a scalar inside a flow collection. -/
def isFlowMark (c : Char) : Bool := ",[]\x7b\x7d".toList.contains c

/-- Whether a mark between documents stands here. -/
def isMark (mark : String) (c : Cursor) : Bool :=
  c.fresh && c.column == 0 && mark.toList.isPrefixOf c.rest && atGap (c.rest.drop 3)

/-- Whether there is no more of the document. -/
def atEnd (c : Cursor) : Bool :=
  c.rest.isEmpty || isMark "---" c || isMark "..." c

namespace Cursor

/-- The cursor some characters later on the same line. -/
def advance (c : Cursor) (n : Nat) : Cursor :=
  ⟨c.rest.drop n, c.column + n, false⟩

/-- The next token after blanks, comments and line breaks. -/
def skipFrom (column : Nat) (fresh comment : Bool) : List Char → Cursor
  | [] => ⟨[], column, fresh⟩
  | c :: rest =>
    if isBreak c then skipFrom 0 true false rest
    else if comment || c == ' ' then skipFrom (column + 1) fresh comment rest
    else if c = '#' then skipFrom (column + 1) fresh true rest
    else ⟨c :: rest, column, fresh⟩

/-- The next token. -/
def skip (c : Cursor) : Cursor := skipFrom c.column c.fresh false c.rest

/-- The cursor after the blanks of the line. -/
def skipBlanks (c : Cursor) : Cursor :=
  let n := (c.rest.takeWhile (· == ' ')).length
  { c with rest := c.rest.drop n, column := c.column + n }

end Cursor

/-! ## Folded lines -/

/-- The first thing on the lines after a line break, how many more lines end before it, and whether
a mark between documents stands at the start of one. -/
def foldLines (column more : Nat) (isBlank : Char → Bool) : List Char → Nat × Bool × Cursor
  | [] => (more, false, ⟨[], column, true⟩)
  | c :: rest =>
    let here : Cursor := ⟨c :: rest, column, true⟩
    if isMark "---" here || isMark "..." here then (more, true, here)
    else if isBreak c then foldLines 0 (more + 1) isBlank rest
    else if isBlank c then foldLines (column + 1) more isBlank rest
    else (more, false, here)

/-- The text that a gap between words stands for, whether it holds a mark between documents, and
where it ends. Blanks stand for themselves, one line break for a blank, and more of them for as many
line breaks as there are empty lines. -/
def foldGap (isBlank : Char → Bool) (c : Cursor) : List Char × Bool × Cursor :=
  let blanks := c.rest.takeWhile isBlank
  match c.rest.drop blanks.length with
  | b :: rest =>
    if isBreak b then
      let (more, marked, after) := foldLines 0 0 isBlank rest
      (if more = 0 then [' '] else List.replicate more '\n', marked, after)
    else (blanks, false, { c with rest := b :: rest, column := c.column + blanks.length })
  | [] => (blanks, false, { c with rest := [], column := c.column + blanks.length })

/-! ## Plain scalars -/

/-- Whether a plain scalar ends here. -/
def endsPlain (flow : Bool) : List Char → Bool
  | [] => true
  | ':' :: rest => atGap rest || (flow && rest.head?.any isFlowMark)
  | c :: rest => atGap (c :: rest) || (flow && (isFlowMark c || c == '?'))

/-- The characters of a plain scalar up to the next gap. -/
def plainRun (flow : Bool) : List Char → List Char
  | [] => []
  | c :: rest => if endsPlain flow (c :: rest) then [] else c :: plainRun flow rest

/-- A plain scalar in reverse, with what has been read of it and the gap after that. Its lines after
the first stand at the given column or further in. -/
def plainFrom (flow : Bool) (indent : Nat) :
    Nat → List Char → List Char → Cursor → List Char × Cursor
  | 0, done, _, c => (done, c)
  | steps + 1, done, gap, c =>
    let run := plainRun flow c.rest
    if run.isEmpty || c.rest.head? == some '#' then (done, c)
    else
      let done := run.reverse ++ gap.reverse ++ done
      let (gap, marked, after) := foldGap (· == ' ') (c.advance run.length)
      if gap.isEmpty || marked || (!flow && after.column < indent) then (done, after)
      else plainFrom flow indent steps done gap after

/-- Whether a plain scalar can begin here. -/
def beginsPlain (flow : Bool) : List Char → Bool
  | [] => false
  | c :: rest =>
    if c == '-' then !atGap rest
    else if c == '?' || c == ':' then !flow && !atGap rest
    else
      !atGap (c :: rest) && !isFlowMark c && !"#&*!|>'\"%@\x60".toList.contains c

/-- A plain scalar. -/
def readPlain (flow : Bool) (indent : Nat) (c : Cursor) : Except Cause (Node × Cursor) :=
  if beginsPlain flow c.rest then
    let (done, after) := plainFrom flow indent (c.rest.length + 1) [] [] c
    match plainValue? (String.ofList done.reverse) with
    | some v => .ok (.scalar v, after)
    | none => .error .reserved
  else .error .character

/-! ## Quoted scalars -/

/-- The blanks inside quotes. -/
def isQuotedBlank (c : Char) : Bool := c == ' ' || c == '\t'

/-- What a single character after a backslash stands for. -/
def escapes : List (Char × Char) :=
  [('0', '\x00'), ('a', '\x07'), ('b', '\x08'), ('t', '\t'), ('\t', '\t'), ('n', '\n'),
   ('v', '\x0b'), ('f', '\x0c'), ('r', '\r'), ('e', '\x1b'), (' ', ' '), ('"', '"'),
   ('\\', '\\'), ('/', '/'), ('N', '\x85'), ('_', '\xa0'), ('L', '\u2028'), ('P', '\u2029')]

/-- How many digits follow an escape by number. -/
def escapeDigits : List (Char × Nat) := [('x', 2), ('u', 4), ('U', 8)]

/-- The character after a backslash, and how many characters write it. -/
def escape? : List Char → Option (Char × Nat)
  | [] => none
  | c :: rest =>
    match escapes.lookup c, escapeDigits.lookup c with
    | some e, _ => some (e, 1)
    | none, some count =>
      let digits := rest.take count
      if digits.length = count ∧ digits.all fun d => (Json.hexValue? d).isSome then
        some (Json.charOf (valueIn 16 digits), count + 1)
      else none
    | none, none => none

/-- The text of a scalar in double quotes in reverse, from after its opening quote on. -/
def doubleFrom : Nat → List Char → Cursor → Except Cause (List Char × Cursor)
  | 0, _, _ => .error .unclosed
  | steps + 1, done, c =>
    match c.rest with
    | [] => .error .unclosed
    | '"' :: _ => .ok (done, c.advance 1)
    | '\\' :: rest =>
      match rest with
      | b :: _ =>
        if isBreak b then
          let (more, marked, after) := foldLines 0 0 isQuotedBlank (rest.drop 1)
          if marked then .error .misplaced
          else doubleFrom steps (List.replicate more '\n' ++ done) after
        else
          match escape? rest with
          | some (e, length) => doubleFrom steps (e :: done) (c.advance (length + 1))
          | none => .error .badEscape
      | [] => .error .unclosed
    | x :: _ =>
      if isQuotedBlank x || isBreak x then
        let (gap, marked, after) := foldGap isQuotedBlank c
        if marked then .error .misplaced else doubleFrom steps (gap.reverse ++ done) after
      else doubleFrom steps (x :: done) (c.advance 1)

/-- The text of a scalar in single quotes in reverse, from after its opening quote on. -/
def singleFrom : Nat → List Char → Cursor → Except Cause (List Char × Cursor)
  | 0, _, _ => .error .unclosed
  | steps + 1, done, c =>
    match c.rest with
    | [] => .error .unclosed
    | '\'' :: '\'' :: _ => singleFrom steps ('\'' :: done) (c.advance 2)
    | '\'' :: _ => .ok (done, c.advance 1)
    | x :: _ =>
      if isQuotedBlank x || isBreak x then
        let (gap, marked, after) := foldGap isQuotedBlank c
        if marked then .error .misplaced else singleFrom steps (gap.reverse ++ done) after
      else singleFrom steps (x :: done) (c.advance 1)

/-- A scalar in quotes, with the reader for its inside. -/
def readQuoted (inside : Nat → List Char → Cursor → Except Cause (List Char × Cursor))
    (c : Cursor) : Except Cause (Node × Cursor) := do
  let (done, after) ← inside (c.rest.length + 1) [] (c.advance 1)
  return (.scalar (.str (String.ofList done.reverse)), after)

/-! ## Flow collections -/

/-- The null scalar. -/
def nothing : Node := .scalar .null

mutual

/-- A scalar or a flow collection. -/
def readInline (flow : Bool) (indent : Nat) : Nat → Cursor → Except Cause (Node × Cursor)
  | 0, _ => .error .unclosed
  | steps + 1, c =>
    match c.rest with
    | '"' :: _ => readQuoted doubleFrom c
    | '\'' :: _ => readQuoted singleFrom c
    | '[' :: _ => readItems steps [] (c.advance 1).skip
    | '\x7b' :: _ => readFields steps [] (c.advance 1).skip
    | _ => readPlain flow indent c

/-- The items of a list up to its closing bracket. -/
def readItems : Nat → List Node → Cursor → Except Cause (Node × Cursor)
  | 0, _, _ => .error .unclosed
  | steps + 1, done, c =>
    if c.rest.isEmpty then .error .unclosed
    else if isMark "---" c || isMark "..." c then .error .misplaced
    else
      match c.rest with
      | ']' :: _ => .ok (.list done.reverse, c.advance 1)
      | _ => do
        let (key, after) ← readInline true 0 steps c
        let (item, after) ←
          match after.skip.rest with
          | ':' :: _ => do
            let (v, after) ← readFlowValue steps (after.skip.advance 1).skip
            pure (Node.mapping [(key, v)], after)
          | _ => pure (key, after)
        match after.skip.rest with
        | ',' :: _ => readItems steps (item :: done) (after.skip.advance 1).skip
        | ']' :: _ => .ok (.list (item :: done).reverse, after.skip.advance 1)
        | [] => .error .unclosed
        | _ => .error .misplaced

/-- The value after the colon of a flow collection; it may be left out. -/
def readFlowValue : Nat → Cursor → Except Cause (Node × Cursor)
  | 0, _ => .error .unclosed
  | steps + 1, c =>
    match c.rest with
    | [] => .error .unclosed
    | x :: _ =>
      if x == ',' || x == ']' || x == '\x7d' then .ok (nothing, c)
      else readInline true 0 steps c

/-- The fields of a mapping up to its closing brace. -/
def readFields : Nat → List (Node × Node) → Cursor → Except Cause (Node × Cursor)
  | 0, _, _ => .error .unclosed
  | steps + 1, done, c =>
    if c.rest.isEmpty then .error .unclosed
    else if isMark "---" c || isMark "..." c then .error .misplaced
    else
      match c.rest with
      | '\x7d' :: _ => .ok (.mapping done.reverse, c.advance 1)
      | _ => do
        let (key, after) ←
          match c.rest with
          | ':' :: _ => pure (nothing, c)
          | _ => readInline true 0 steps c
        let (v, after) ←
          match after.skip.rest with
          | ':' :: _ => readFlowValue steps (after.skip.advance 1).skip
          | _ => pure (nothing, after)
        match after.skip.rest with
        | ',' :: _ => readFields steps ((key, v) :: done) (after.skip.advance 1).skip
        | '\x7d' :: _ => .ok (.mapping ((key, v) :: done).reverse, after.skip.advance 1)
        | [] => .error .unclosed
        | _ => .error .misplaced

end

/-! ## Block collections -/

/-- Whether a mark of one character stands here alone. -/
def isAlone (mark : Char) (c : Cursor) : Bool :=
  match c.rest with
  | x :: rest => x == mark && atGap rest
  | [] => false

/-- Whether an item of a block list begins here. -/
def isDash (c : Cursor) : Bool := isAlone '-' c

/-- Whether a key with a mark of its own begins here. -/
def isQuestion (c : Cursor) : Bool := isAlone '?' c

/-- How long a key without a mark of its own can be. -/
def keyLimit : Nat := 1024

/-- The cursor after the colon that makes what stands before it a key; both must stand on one
line. -/
def afterColon? (start afterKey : Cursor) : Option Cursor :=
  let c := afterKey.skipBlanks
  if isAlone ':' c && !afterKey.fresh && start.column < c.column
      && c.column ≤ start.column + keyLimit then
    some (c.advance 1)
  else none

/-- The number of spare steps that a text of the length needs. -/
def flowSteps (c : Cursor) : Nat := 2 * c.rest.length + 2

mutual

/-- What stands deeper than the given depth, which counts columns from one; nothing if the block
ends. A list as the value of a key may stand at the column of the key. `inline` says that what
comes stands behind a key or a mark on the same line. -/
def readBlock (depth : Nat) (ofKey inline : Bool) : Nat → Cursor → Except Cause (Node × Cursor)
  | 0, _ => .error .unclosed
  | steps + 1, c =>
    if atEnd c then .ok (nothing, c)
    else if inline && !c.fresh then do
      let (node, after) ← readInline false depth (flowSteps c) c
      if (afterColon? c after).isSome then .error .misplaced else .ok (node, after)
    else if c.fresh && c.column < depth && !(ofKey && isDash c && c.column + 1 = depth) then
      .ok (nothing, c)
    else if isDash c then readList c.column (c.column + 1 = depth) steps [] c
    else if isQuestion c then readMapping c.column steps [] c
    else do
      let (node, after) ← readInline false depth (flowSteps c) c
      match afterColon? c after with
      | none => .ok (node, after)
      | some colon => do
        let (v, after) ← readBlock (c.column + 1) true true steps colon.skip
        readMapping c.column steps [(node, v)] after.skip

/-- The items of a list at a column; `ofKey` says that the key of the list stands there as well. -/
def readList (column : Nat) (ofKey : Bool) :
    Nat → List Node → Cursor → Except Cause (Node × Cursor)
  | 0, _, _ => .error .unclosed
  | steps + 1, done, c =>
    if atEnd c || (c.fresh && c.column < column) then .ok (.list done.reverse, c)
    else if c.column ≠ column || (!c.fresh && !done.isEmpty) then .error .misplaced
    else if isDash c then do
      let (item, after) ← readBlock (column + 1) false false steps (c.advance 1).skip
      readList column ofKey steps (item :: done) after.skip
    else if ofKey then .ok (.list done.reverse, c)
    else .error .misplaced

/-- The fields of a mapping at a column, after those that are done. Only the first one may stand
behind a mark on its line, if it has a mark of its own. -/
def readMapping (column : Nat) :
    Nat → List (Node × Node) → Cursor → Except Cause (Node × Cursor)
  | 0, _, _ => .error .unclosed
  | steps + 1, done, c =>
    if atEnd c || (c.fresh && c.column < column) then .ok (.mapping done.reverse, c)
    else if c.column ≠ column || (!c.fresh && !done.isEmpty) || isDash c then .error .misplaced
    else if isQuestion c then do
      let (key, after) ← readBlock (column + 1) true false steps (c.advance 1).skip
      let colon := after.skip
      if isAlone ':' colon && colon.fresh && colon.column = column then do
        let (v, after) ← readBlock (column + 1) true false steps (colon.advance 1).skip
        readMapping column steps ((key, v) :: done) after.skip
      else readMapping column steps ((key, nothing) :: done) colon
    else do
      let (key, after) ← readInline false (column + 1) (flowSteps c) c
      match afterColon? c after with
      | none => .error .misplaced
      | some colon => do
        let (v, after) ← readBlock (column + 1) true true steps colon.skip
        readMapping column steps ((key, v) :: done) after.skip

end

/-! ## Documents -/

/-- A document: a mapping with its keys, or something else. -/
inductive Document
  | mapping (fields : List (Value × Value))
  | other (v : Value)
deriving Repr

/-- Fields with a value under a key: in its old place if it was there, else at the end. -/
def setKey (key v : Value) : List (Value × Value) → List (Value × Value)
  | [] => [(key, v)]
  | (k, w) :: rest => if k.same key then (k, v) :: rest else (k, w) :: setKey key v rest

/-- The key that a node is; a collection is none. -/
def keyOf : Node → Except Cause Value
  | .scalar v => .ok v
  | _ => .error .badKey

mutual

/-- A node as a value. Keys that are no texts are shown as such. -/
def toValue : Node → Except Cause Value
  | .scalar v => .ok v
  | .list items => return .list (← toValues items)
  | .mapping fields => return .object (← toObject fields [])

/-- Nodes as values, one by one. -/
def toValues : List Node → Except Cause (List Value)
  | [] => .ok []
  | node :: rest => return (← toValue node) :: (← toValues rest)

/-- Fields as those of an object; the last of several with one key counts. -/
def toObject :
    List (Node × Node) → List (String × Value) → Except Cause (List (String × Value))
  | [], done => .ok done
  | (key, node) :: rest, done => do
    let k ← keyOf key
    let v ← toValue node
    toObject rest (setField k.display v done)

end

/-- The fields of a document; the last of several with one key counts. -/
def toFields :
    List (Node × Node) → List (Value × Value) → Except Cause (List (Value × Value))
  | [], done => .ok done
  | (key, node) :: rest, done => do
    let k ← keyOf key
    let v ← toValue node
    toFields rest (setKey k v done)

/-- The document that a node is. -/
def Document.ofNode : Node → Except Cause Document
  | .mapping fields => return .mapping (← toFields fields [])
  | node => return .other (← toValue node)

/-- Where a document begins, and whether it follows a mark on its line. -/
def documentStart (cs : List Char) : Cursor × Bool :=
  let start := Cursor.skipFrom 0 true false cs
  if isMark "---" start then ((start.advance 3).skip, true) else (start, false)

/-- The one document of a text, given its characters. -/
def readChars (all : List Char) : Except Cause Document := do
  let cs :=
    match all with
    | '\ufeff' :: rest => rest
    | cs => cs
  if !all.all isPrintable then throw .character
  let (start, inline) := documentStart cs
  let (node, after) ← readBlock 0 false inline (2 * cs.length + 2) start
  let after := after.skip
  let after := if isMark "..." after then (after.advance 3).skip else after
  if !after.rest.isEmpty then
    throw (if isMark "---" after then .secondDocument else .misplaced)
  Document.ofNode node

/-- The one document of a text. -/
def read (s : String) : Except Cause Document := readChars s.toList

end SolidityAudit.Yaml
