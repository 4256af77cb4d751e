import SolidityAudit.Solidity.Chart
import SolidityAudit.Solidity.Lexer

/-!
# Reading a source file

`readSource` gives the preferred tree of a source, or the place of the first fault: the first token
that no sentence of the grammar can go on with, or the place where no token can start, whichever
comes first. The end of the text counts as a token.
-/

namespace SolidityAudit.Solidity

namespace Tree

mutual

/-- The tokens of a tree. -/
def tokens : Tree → List Token
  | leaf t => [t]
  | node _ children => tokensIn children

/-- The tokens of a list of trees. -/
def tokensIn : List Tree → List Token
  | [] => []
  | t :: ts => tokens t ++ tokensIn ts

end

/-- The text of the tokens of a tree, without what stood between them. -/
def text (t : Tree) : String :=
  String.join (t.tokens.map (·.text))

/-- The phrases inside a tree. -/
def children : Tree → List Tree
  | leaf _ => []
  | node _ children => children

/-- Whether a tree is a phrase of the category. -/
def isA (c : Category) : Tree → Bool
  | leaf _ => false
  | node d _ => c = d

/-- The first part of the category. -/
def part? (c : Category) (t : Tree) : Option Tree :=
  t.children.find? (·.isA c)

/-- The first token among the parts. -/
def word? (t : Tree) : Option Token :=
  t.children.findSome? fun
    | leaf found => some found
    | node .. => none

mutual

/-- The outermost phrases of a category in a tree. -/
def outermost (c : Category) : Tree → List Tree
  | leaf _ => []
  | node d children => if c = d then [node d children] else outermostIn c children

/-- The outermost phrases of a category in a list of trees. -/
def outermostIn (c : Category) : List Tree → List Tree
  | [] => []
  | t :: ts => outermost c t ++ outermostIn c ts

end

end Tree

/-- The items of a file, or the number of tokens before the first one that does not fit. -/
def readTokens (tokens : List Token) : Except Nat (List Tree) :=
  let found := fileReadings tokens
  match found.readings.find? (·.taken == tokens.length) with
  | some r => .ok r.trees
  | none => .error found.reach

/-- The items of a source file, or the place of its first fault. -/
def readSource (source : String) : Except Place (List Tree) :=
  let s := scan source
  match readTokens (s.tokens.map (·.1)), s.complete with
  | .ok items, true => .ok items
  | .ok _, false => .error s.stop
  | .error reach, _ =>
    match s.tokens[reach]? with
    | some (_, place) => .error place
    | none => .error s.stop

end SolidityAudit.Solidity
