import SolidityAudit.Contract.Collect
import SolidityAudit.Solidity.Outline
import SolidityAudit.Text.Pattern

/-!
# Facts from a source text

`ContractFacts.parse` reads a source with the grammar. Where that fails, `ContractFacts.fallback`
gives a cautious record instead: the name is the word after the first `contract`, nothing else is
known, and the complexity is high. The parser catches what goes wrong with the shape of an outline;
any other fault in the collection escapes from it.
-/

namespace SolidityAudit

/-- Why a source has no facts. -/
inductive ParseFault
  | noSource
  | syntaxAt (place : Solidity.Place)
  | defect (d : Solidity.Defect)
  | shape (f : Fault)
  /-- a fault that the parser does not catch -/
  | escaped (f : Fault)
deriving Repr

namespace ParseFault

/-- The wording of a fault. -/
def message : ParseFault → String
  | noSource => "TypeError: 'NoneType' object is not iterable"
  | syntaxAt place =>
    "SoliditySyntaxError: line " ++ toString place.line ++ ":" ++ toString place.column
  | defect d => d.message
  | shape f => "Unexpected AST shape: " ++ f.message
  | escaped f => f.message

/-- The faults that the parser catches: an attribute or a key is missing, or a value is of the wrong
kind. -/
def catches : Fault → Bool
  | .noAttribute .. | .noField .. | .missingKey _ => true
  | .notIterable _ | .notIndexable _ | .badPlace .. | .noLength _ | .unhashable _ => true
  | .noOperator .. | .noOrder .. | .notText .. | .notNumber _ | .noDecimal _ => true
  | .badSlice | .noSlice | .notAdded .. => true
  | .missingArguments .. | .unknownArgument .. | .tooManyArguments .. => true
  | .outside .badKind _ => true
  | _ => false

/-- What becomes of a fault in the collection. -/
def ofFault (f : Fault) : ParseFault :=
  if catches f then shape f else escaped f

end ParseFault

namespace ContractFacts

/-- The facts of an outline. -/
def ofOutline (tree : Value) : Except ParseFault ContractFacts :=
  (Collect.facts tree).mapError .ofFault

/-- The outline of a source. -/
def outline (source : String) : Except ParseFault Value :=
  match Solidity.readSource source with
  | .error place => .error (.syntaxAt place)
  | .ok items =>
    match (Solidity.Defect.findIn items).findSome? (·.2) with
    | some d => .error (.defect d)
    | none => .ok (Solidity.outline items)

/-- The outline of a source by the grammar; there must be a source. -/
def grammarOutline : Option String → Except ParseFault Value
  | none => .error .noSource
  | some s => outline s

/-- The facts of a source whose outline is drawn in the given way. -/
def parseBy (draw : Option String → Except ParseFault Value) (source : Option String) :
    Except ParseFault ContractFacts :=
  draw source >>= ofOutline

/-- The facts of a source. -/
def parse (source : Option String) : Except ParseFault ContractFacts :=
  parseBy grammarOutline source

/-- What stands before the name of a contract. -/
def contractWord : Pattern := [Pattern.literal "contract" ++ Pattern.blanks1]

/-- The name of a source that names no contract. -/
def fallbackName : String := "UnknownContract"

/-- The record of a source that the grammar does not accept. -/
def fallback (source : Option String) : ContractFacts :=
  let name := Pattern.capture? contractWord [Pattern.word1] [[]] (source.getD "").toList
  { empty with
    name := .str ((name.map String.ofList).getD fallbackName)
    complexity := .high }

/-- The facts of a source whose outline is drawn in the given way, or the cautious record in their
place. A fault that has escaped from the parser ends this as well. -/
def parseOrFallbackBy (draw : Option String → Except ParseFault Value) (source : Option String) :
    Except Fault ContractFacts :=
  match parseBy draw source with
  | .ok facts => .ok facts
  | .error (.escaped f) => .error f
  | .error _ => .ok (fallback source)

/-- The facts of a source, or the cautious record in their place. No fault escapes from the parser
of a source. -/
def parseOrFallback (source : Option String) : ContractFacts :=
  match parse source with
  | .ok facts => facts
  | .error _ => fallback source

/-- What is noted about a source without facts of its own. -/
def parseNotice (source : Option String) : Option String :=
  match parse source with
  | .ok _ => none
  | .error f => some ("Contract parsing failed, using fallback: " ++ f.message)

end ContractFacts

end SolidityAudit
