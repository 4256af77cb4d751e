import SolidityAudit.Outside.Request
import SolidityAudit.Source.Encoding
import SolidityAudit.Text.Pattern

/-!
# Contract files

A contract is read from a file with the suffix of Solidity, in the first encoding that fits. A text
that does not look like Solidity is read as well, with a warning.
-/

namespace SolidityAudit.Source

open Pattern

/-- The suffix of the files that hold contracts, in either case. -/
def suffix : String := ".sol"

/-- Whether a path names a file that holds a contract. -/
def isContractFile (path : Path) : Bool :=
  path.suffix.toLower == suffix

/-- What a Solidity text holds: a pragma, or the head of a contract, an interface or a library. -/
def signs : Pattern :=
  [anyCase "pragma" ++ blanks1 ++ anyCase "solidity" ++ blanks1 ++ [.one (· != ';')] ++ noneOf ';'
     ++ literal ";",
   anyCase "contract" ++ blanks1 ++ word1,
   anyCase "interface" ++ blanks1 ++ word1,
   anyCase "library" ++ blanks1 ++ word1]

/-- Whether a text may be Solidity. -/
def looksLikeSolidity (s : String) : Bool :=
  Text.trim s != "" && signs.occurs s.toList

/-- The text of the contract file at a path. -/
def read (path : String) : Action String := do
  let target := Path.ofText path
  if (← Action.ask (.kindOf target)) ≠ some .file then throw (.noFile path)
  if !isContractFile target then
    throw (.report (.invalid "Only .sol files are allowed" "path" (.str path)))
  match ← Action.ask (.fileContent target) with
  | none => throw (.noFile path)
  | some octets =>
    let s ← Action.settle (textBy Encoding.decodeFile? octets)
    if !looksLikeSolidity s then
      Action.log .warning (target.text ++ " doesn't appear to be a valid Solidity file")
    return s

end SolidityAudit.Source
