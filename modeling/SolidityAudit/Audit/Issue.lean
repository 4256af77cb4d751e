import SolidityAudit.Value.Access

/-!
# Security issues

An issue is one finding of an audit. Its texts are values, since a report that comes back from
outside may hold anything in their place.
-/

namespace SolidityAudit

/-- How severe a finding is. -/
inductive Severity
  | low | medium | high | critical
deriving DecidableEq, Repr, Inhabited

namespace Severity

/-- The name of a severity. -/
def name : Severity → String
  | low => "LOW"
  | medium => "MEDIUM"
  | high => "HIGH"
  | critical => "CRITICAL"

/-- The severities in ascending order. -/
def every : List Severity := [low, medium, high, critical]

/-- The severity of a name. -/
def ofName? (s : String) : Option Severity :=
  every.find? (·.name == s)

/-- The severity that a value names. -/
def ofValue (v : Value) : Except Fault Severity :=
  match v.text?.bind ofName? with
  | some s => .ok s
  | none => .error (.notMember v "Severity")

/-- What a finding adds to the risk score. -/
def weight : Severity → Nat
  | critical => 25
  | high => 15
  | medium => 8
  | low => 3

end Severity

/-- One finding. -/
structure Issue where
  severity : Severity
  type : Value
  description : Value
  recommendation : Value
  /-- null if the place is not known -/
  location : Value
deriving Repr, Inhabited

namespace Issue

/-- A finding as data; a place that is not known is left out. -/
def toValue (i : Issue) : Value :=
  let location :=
    match i.location with
    | .null => []
    | place => [("location", place)]
  .object <|
    [("severity", .str i.severity.name), ("type", i.type), ("description", i.description),
     ("recommendation", i.recommendation)] ++ location

/-- The finding that data describes. -/
def ofValue (v : Value) : Except Fault Issue := do
  let severity ← Severity.ofValue (← v.item "severity")
  let type ← v.item "type"
  let description ← v.item "description"
  let recommendation ← v.item "recommendation"
  let location ← v.get "location"
  return { severity, type, description, recommendation, location }

end Issue

end SolidityAudit
