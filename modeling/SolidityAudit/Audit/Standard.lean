import SolidityAudit.Audit.Rule

/-!
# The standard rules

Eight rules in the order in which a report lists them. They are coarse: what belongs together is
judged over the whole file, or over a line, and never over a function.
-/

namespace SolidityAudit.Rule

open Pattern

/-- No condition on the facts. -/
def anyContract (_ : ContractFacts) : Bool := true

/-- Money leaves by a call, and something is assigned after the call's block closes. -/
def reentrancy : Rule where
  id := "reentrancy"
  type := "Reentrancy"
  severity := .high
  description := "Potential reentrancy vulnerability detected"
  recommendation := "Use the checks-effects-interactions pattern or reentrancy guards"
  passedCheck := "Reentrancy protection"
  required :=
    [[literal ".call(", literal ".transfer(", literal ".send("],
     [literal ".call(" ++ noneOf '\x7d' ++ literal "\x7d" ++ noneOf '\x7d' ++ literal "=" ++ blanks
        ++ word1]]
  forbidden := []
  condition := anyContract

/-- The sender is told by the origin of the transaction. -/
def txOrigin : Rule where
  id := "tx-origin"
  type := "tx.origin Usage"
  severity := .medium
  description := "Use of tx.origin for authorization"
  recommendation := "Use msg.sender instead of tx.origin for authorization"
  passedCheck := "No tx.origin usage"
  required := [[literal "tx.origin"]]
  forbidden := []
  condition := anyContract

/-- A call whose result is dropped. -/
def uncheckedCall : Rule where
  id := "unchecked-call"
  type := "Unchecked Call"
  severity := .medium
  description := "External calls without return value checking"
  recommendation := "Always check return values of external calls"
  passedCheck := "External call return values checked"
  required := [[literal ".call(" ++ noneOf ')' ++ literal ")" ++ blanks ++ literal ";"]]
  forbidden := []
  condition := anyContract

/-- Arithmetic without a guard against overflow. -/
def overflow : Rule where
  id := "overflow"
  type := "Integer Overflow/Underflow"
  severity := .high
  description := "Arithmetic operations without overflow protection"
  recommendation := "Use SafeMath library or Solidity 0.8+ with built-in checks"
  passedCheck := "Overflow protection implemented"
  required := [[[.one fun c => c == '+' || c == '-' || c == '*' || c == '/']]]
  forbidden :=
    [[literal "SafeMath",
      literal "using" ++ onLine ++ literal "for" ++ onLine ++ literal "uint"],
     [literal "pragma solidity" ++ onLine ++ literal "0.8"]]
  condition := anyContract

/-- Public functions, and no owner. -/
def accessControl : Rule where
  id := "access-control"
  type := "Access Control"
  severity := .medium
  description := "Public functions without proper access control"
  recommendation := "Implement proper access control modifiers for sensitive functions"
  passedCheck := "Access control implemented"
  required := []
  forbidden := [[literal "onlyOwner", literal "onlyAdmin"]]
  condition := ContractFacts.hasPublicFunction

/-- Randomness from the block. -/
def weakRandomness : Rule where
  id := "weak-randomness"
  type := "Weak Randomness"
  severity := .medium
  description := "Use of predictable randomness sources"
  recommendation := "Use commit-reveal schemes or oracle-based randomness"
  passedCheck := "No weak randomness detected"
  required :=
    [[anyCase "block.timestamp", anyCase "block.difficulty",
      anyCase "block.number" ++ onLine ++ anyCase "random"]]
  forbidden := []
  condition := anyContract

/-- Loops, and no way out of them anywhere. -/
def denialOfService : Rule where
  id := "denial-of-service"
  type := "Denial of Service"
  severity := .medium
  description := "Unbounded loops that could cause gas limit DoS"
  recommendation := "Implement pagination or limit loop iterations"
  passedCheck := "No unbounded loops detected"
  required :=
    [[literal "for" ++ blanks ++ literal "(" ++ noneOf '\x7d' ++ literal "\x7b" ++ noneOf '\x7d'
        ++ literal "\x7d"]]
  forbidden := [[literal "break;", literal "return;"]]
  condition := anyContract

/-- A requirement on the time of the block. -/
def timeDependence : Rule where
  id := "time-dependence"
  type := "Time Dependence"
  severity := .low
  description := "Logic depends on block timestamp which can be manipulated"
  recommendation := "Avoid strict timestamp requirements or use time ranges"
  passedCheck := "No critical time dependencies"
  required :=
    [[anyCase "block.timestamp" ++ onLine ++ anyCase "require",
      anyCase "block.number" ++ onLine ++ anyCase "require"]]
  forbidden := []
  condition := anyContract

/-- The rules of an audit. -/
def standard : RuleTable :=
  [reentrancy, txOrigin, uncheckedCall, overflow, accessControl, weakRandomness, denialOfService,
   timeDependence]

end SolidityAudit.Rule
