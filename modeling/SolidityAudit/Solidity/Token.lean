/-!
# Solidity tokens

A token is a piece of source text with its kind. Words and marks that the grammar spells
out are literals and are told apart by their text; the other kinds are classes of texts.
-/

namespace SolidityAudit.Solidity

/-- The kinds of tokens. -/
inductive TokenKind
  | literal
  | intType | uintType | bytesType | fixedType | ufixedType
  | boolean | decimalNumber | hexNumber | numberUnit | hexString
  | reserved | identifier | string | version
deriving DecidableEq, Repr, Inhabited

/-- A place in a text: the line counted from one, and the characters before it on that line. -/
structure Place where
  line : Nat
  column : Nat
deriving DecidableEq, Repr, Inhabited

namespace Place

/-- The place of the first character. -/
def start : Place := ⟨1, 0⟩

/-- The place after a character. -/
def after (p : Place) (c : Char) : Place :=
  if c = '\n' then ⟨p.line + 1, 0⟩ else ⟨p.line, p.column + 1⟩

/-- The place after a run of characters. -/
def advance (p : Place) (cs : List Char) : Place :=
  cs.foldl after p

end Place

/-- A token of the source. -/
structure Token where
  kind : TokenKind
  text : String
deriving DecidableEq, Repr, Inhabited

/-! ## Words -/

/-- The words that the grammar spells out. -/
def keywords : List String :=
  ["pragma", "as", "import", "from", "abstract", "contract", "interface", "library", "is", "error",
   "using", "for", "struct", "modifier", "function", "returns", "event", "enum", "address",
   "mapping", "memory", "storage", "calldata", "if", "else", "try", "catch", "while", "unchecked",
   "assembly", "do", "return", "throw", "emit", "revert", "var", "bool", "string", "byte", "new",
   "after", "delete", "let", "switch", "case", "default", "callback", "override",
   "anonymous", "break", "constant", "immutable", "continue", "leave", "external", "indexed",
   "internal", "payable", "private", "public", "virtual", "pure", "type", "view", "constructor",
   "fallback", "receive"]

/-- The words that are set aside and stand in no rule of the grammar. -/
def reservedWords : List String :=
  ["final", "in", "inline", "match", "null", "of", "relocatable", "static", "typeof"]

/-- The units of numbers. -/
def numberUnits : List String :=
  ["wei", "gwei", "szabo", "finney", "ether", "seconds", "minutes", "hours", "days", "weeks",
   "years"]

/-- The numbers from `step` to `last` in steps, as the texts that end sized type names. -/
def sizes (step count : Nat) : List String :=
  (List.range count).map fun k => toString (step * (k + 1))

/-- The type names that consist of a word and a size, or of the word alone. -/
def sizedNames (word : String) (step count : Nat) : List String :=
  word :: (sizes step count).map (word ++ ·)

/-- The signed integer types. -/
def intTypes : List String := sizedNames "int" 8 32

/-- The unsigned integer types. -/
def uintTypes : List String := sizedNames "uint" 8 32

/-- The byte array types. -/
def bytesTypes : List String := sizedNames "bytes" 1 32

/-- Whether a text is two runs of digits with an `x` between them. -/
def isFixedSize (cs : List Char) : Bool :=
  let places := cs.dropWhile Char.isDigit
  match places with
  | 'x' :: rest => places.length < cs.length && !rest.isEmpty && rest.all Char.isDigit
  | _ => false

/-- Whether a text is a fixed-point type that starts with the given word. -/
def isFixedType (word : String) (s : String) : Bool :=
  s == word ||
    (word.toList.isPrefixOf s.toList && isFixedSize (s.toList.drop word.toList.length))

/-- The kind of a word. -/
def wordKind (s : String) : TokenKind :=
  if keywords.contains s then .literal
  else if intTypes.contains s then .intType
  else if uintTypes.contains s then .uintType
  else if bytesTypes.contains s then .bytesType
  else if isFixedType "fixed" s then .fixedType
  else if isFixedType "ufixed" s then .ufixedType
  else if s == "true" || s == "false" then .boolean
  else if numberUnits.contains s then .numberUnit
  else if reservedWords.contains s then .reserved
  else .identifier

/-- The marks that the grammar spells out, longer ones before their beginnings. -/
def marks : List (List Char) :=
  ["<<=", ">>=", "||", ">=", "<=", "=>", "++", "--", "**", "<<", ">>", "==", "!=", "&&", "|=", "^=",
   "&=", "+=", "-=", "*=", "/=", "%=", ":=", "=:", "->",
   ";", "*", "^", "~", ">", "<", "=", "\x7b", ",", "\x7d", "(", ")", "[", "]", ".", "+", "-", "!",
   "/", "%", "&", "|", "?", ":"].map String.toList

end SolidityAudit.Solidity
