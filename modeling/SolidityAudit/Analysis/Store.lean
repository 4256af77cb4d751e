import SolidityAudit.Value.Access

/-!
# Stored analyses

The store keeps the analyses of a session in the order in which they came, each under its id. An
analysis starts as analyzed and may become deployed and verified.
-/

namespace SolidityAudit

/-- How far an analyzed contract has come. -/
inductive Status
  | analyzed | deployed | verified
deriving DecidableEq, Repr, Inhabited

namespace Status

/-- The name of a status. -/
def name : Status → String
  | analyzed => "analyzed"
  | deployed => "deployed"
  | verified => "verified"

/-- The statuses in the order of a contract's life. -/
def every : List Status := [analyzed, deployed, verified]

/-- The status that a value names. -/
def ofValue (v : Value) : Except Fault Status :=
  match v.text?.bind fun s => every.find? (·.name == s) with
  | some s => .ok s
  | none => .error (.notMember v "AnalysisStatus")

end Status

/-- The record of one analysis. -/
structure StoredAnalysis where
  id : String
  contractName : Value
  filename : Value
  riskScore : Value
  timestamp : Value
  status : Status
  fileId : Value
  contractId : Value
  transactionId : Value
  summary : Value
  securityReport : Value
deriving Repr, Inhabited

namespace StoredAnalysis

/-- The name under which messages speak of the record. -/
def recordName : String := "StoredAnalysis"

/-- The fields without a default. -/
def requiredFields : List String :=
  ["id", "contract_name", "original_filename", "risk_score", "timestamp"]

/-- The fields with a default. -/
def optionalFields : List String :=
  ["status", "file_id", "contract_id", "transaction_id", "summary", "security_report"]

/-- A record as data. -/
def toValue (a : StoredAnalysis) : Value :=
  .object
    [("id", .str a.id), ("contractName", a.contractName),
     ("originalFilename", a.filename), ("riskScore", a.riskScore),
     ("timestamp", a.timestamp), ("status", .str a.status.name), ("fileId", a.fileId),
     ("contractId", a.contractId), ("transactionId", a.transactionId), ("summary", a.summary),
     ("securityReport", a.securityReport)]

/-- The record with the given fields; the status is given by its name. -/
def ofFields (fields : List (String × Value)) : Except Fault StoredAnalysis := do
  let field (key : String) (default : Value) : Value := (fieldOf key fields).getD default
  let status ← Status.ofValue (field "status" (.str Status.analyzed.name))
  checkNames recordName requiredFields optionalFields (fields.map (·.1))
  return {
    id := (field "id" .null).display
    contractName := field "contract_name" .null
    filename := field "original_filename" .null
    riskScore := field "risk_score" .null
    timestamp := field "timestamp" .null
    status
    fileId := field "file_id" .null
    contractId := field "contract_id" .null
    transactionId := field "transaction_id" .null
    summary := field "summary" (.object [])
    securityReport := field "security_report" (.object []) }

/-- The record with one field set; `none` if there is no such field. -/
def set? (a : StoredAnalysis) (key : String) (v : Value) : Option StoredAnalysis :=
  match key with
  | "id" => some { a with id := v.display }
  | "contract_name" => some { a with contractName := v }
  | "original_filename" => some { a with filename := v }
  | "risk_score" => some { a with riskScore := v }
  | "timestamp" => some { a with timestamp := v }
  | "file_id" => some { a with fileId := v }
  | "contract_id" => some { a with contractId := v }
  | "transaction_id" => some { a with transactionId := v }
  | "summary" => some { a with summary := v }
  | "security_report" => some { a with securityReport := v }
  | _ => none

/-- The record with fields set one after the other, up to the first that does not exist. -/
def setAll (a : StoredAnalysis) : List (String × Value) → StoredAnalysis × Option Fault
  | [] => (a, none)
  | (key, v) :: rest =>
    match a.set? key v with
    | some b => b.setAll rest
    | none => (a, some (.noField recordName key))

end StoredAnalysis

/-- The analyses of a session in the order in which they were first stored, each with the id under
which it was stored. -/
structure Store where
  entries : List (String × StoredAnalysis)
deriving Repr, Inhabited

namespace Store

/-- A store without analyses. -/
def empty : Store := ⟨[]⟩

/-- The score from which on an analysis counts as one of high risk. -/
def highRisk : Int := 70

/-- Entries with a new record: in the place of the old one under the id, or at the end. -/
def putIn (id : String) (a : StoredAnalysis) :
    List (String × StoredAnalysis) → List (String × StoredAnalysis)
  | [] => [(id, a)]
  | (k, b) :: rest => if k = id then (k, a) :: rest else (k, b) :: putIn id a rest

/-- The store with a record under an id. -/
def put (s : Store) (id : String) (a : StoredAnalysis) : Store :=
  ⟨putIn id a s.entries⟩

/-- The store with one more analysis under its own id. -/
def insert (s : Store) (a : StoredAnalysis) : Store :=
  s.put a.id a

/-- The analysis under an id. -/
def find? (s : Store) (id : String) : Option StoredAnalysis :=
  s.entries.lookup id

/-- The analysis under an id that may be no text; a list or an object cannot be looked up. -/
def lookUp (s : Store) (id : Value) : Except Fault (Option StoredAnalysis) :=
  match id with
  | .list _ | .object _ => .error (.unhashable id.kind)
  | _ => .ok (id.text?.bind s.find?)

/-- The analysis under an id, which must be there. -/
def get (s : Store) (id : Value) : Except Fault StoredAnalysis :=
  match s.lookUp id with
  | .error f => .error f
  | .ok (some a) => .ok a
  | .ok none => .error (.report (.notFound id))

/-- Whether there is an analysis under an id. -/
def contains (s : Store) (id : String) : Bool :=
  (s.find? id).isSome

/-- The analyses in the order in which they came. -/
def all (s : Store) : List StoredAnalysis :=
  s.entries.map (·.2)

/-- The number of analyses. -/
def count (s : Store) : Nat :=
  s.entries.length

/-- The first analysis with the contract id. -/
def findByContract (s : Store) (contractId : Value) : Option StoredAnalysis :=
  s.all.find? (·.contractId.same contractId)

/-- The store after the status of an analysis and some of its fields have been set. What was set
before a field that does not exist stays set. -/
def updateStatus (s : Store) (id : Value) (status : Status) (extra : List (String × Value)) :
    Store × Except Fault StoredAnalysis :=
  match id, s.get id with
  | .str key, .ok a =>
    let (b, fault) := { a with status }.setAll extra
    (s.put key b, match fault with
      | none => .ok b
      | some f => .error f)
  | _, .error f => (s, .error f)
  | _, .ok a => (s, .ok a)

/-- The last analyses, newest first; none for a negative limit. -/
def recent (s : Store) (limit : Int) : List StoredAnalysis :=
  s.all.reverse.take limit.toNat

/-- How many analyses have come beyond the first status. -/
def deployedCount (s : Store) : Nat :=
  (s.all.filter (·.status ≠ .analyzed)).length

/-- The sum of two numbers; integers stay exact. -/
def addScores (x y : Value) : Except Fault Value :=
  match x.integer?, y.integer?, x, y with
  | some a, some b, _, _ => .ok (.int (a + b))
  | some a, none, _, .float y => .ok (.float ((Double.ofInt a).add y))
  | none, some b, .float x, _ => .ok (.float (x.add (.ofInt b)))
  | none, none, .float x, .float y => .ok (.float (x.add y))
  | _, _, _, _ => .error (.noOperator "+" x.kind y.kind)

/-- A number divided by a positive count. -/
def divideScore (v : Value) (n : Nat) : Except Fault Double :=
  match v.integer?, v with
  | some a, _ =>
    match Double.ofRatio a n with
    | .infinite _ => .error .tooLargeQuotient
    | q => .ok q
  | none, .float x => .ok (x.divide n)
  | none, _ => .error (.noOperator "/" v.kind .int)

/-- One half. -/
def half : Double := Double.ofRatio 1 2

/-- The integer part of a number. -/
def integerPart (x : Double) : Except Fault Int :=
  match x, x.truncate? with
  | _, some n => .ok n
  | .undefined, none => .error .undefinedInteger
  | _, none => .error .infiniteInteger

/-- The mean risk score, rounded to the nearest integer with halves going up; zero for no
analyses. -/
def averageRiskScore (s : Store) : Except Fault Int := do
  if s.entries.isEmpty then return 0
  let sum ← (s.all.map (·.riskScore)).foldlM addScores (.int 0)
  let mean ← divideScore sum s.count
  integerPart (mean.add half)

/-- How many analyses are of high risk. -/
def highRiskCount (s : Store) : Except Fault Nat := do
  let high ← s.all.filterM fun a => a.riskScore.atLeast highRisk
  return high.length

end Store

end SolidityAudit
