import SolidityAudit.Json.Reader
import SolidityAudit.Text.Utf8
import SolidityAudit.Value.Display

/-!
# Faults

Why an operation on data from outside fails, each with its cause. `Fault.message` is the wording.
-/

namespace SolidityAudit

/-- The parts of the program that name their own failures. -/
inductive Family
  | general | configuration | validation | compilation | ledger | analysisNotFound
deriving DecidableEq, Repr

/-- A failure that the program reports itself: what went wrong in which part, and what is known
about it. -/
structure Report where
  family : Family
  message : Value
  details : Value
  attributes : List (String × Value)
deriving Repr

/-- The kinds of trouble that come from outside. The first four end an exchange with a server. -/
inductive Trouble
  | connection | timeout | http | unreadableAnswer
  | brokenLink | broken | badValue | badKind
deriving DecidableEq, Repr

/-- Why a decimal number cannot be had. -/
inductive DecimalFault
  /-- the text writes no number -/
  | unreadable
  /-- the number lies outside the arithmetic -/
  | invalid
  /-- the result is too large -/
  | overflow
deriving DecidableEq, Repr

/-- The name that messages give to the cause. -/
def DecimalFault.name : DecimalFault → String
  | unreadable => "ConversionSyntax"
  | invalid => "InvalidOperation"
  | overflow => "Overflow"

/-- The parts of a list that writes a decimal number. -/
inductive DecimalPart
  | sign | digits | exponent
  /-- a text in the place of the exponent -/
  | mark
deriving DecidableEq, Repr

/-- What messages say about a part that is not as it should be. -/
def DecimalPart.expected : DecimalPart → String
  | sign => "sign must be an integer with the value 0 or 1"
  | digits => "coefficient must be a tuple of digits"
  | exponent => "exponent must be an integer"
  | mark => "string argument in the third position must be 'F', 'n' or 'N'"

/-- The kind of machine words that an integer in a part must fit into. -/
def DecimalPart.machineWord : DecimalPart → String
  | exponent => "ssize_t"
  | _ => "long"

/-- Why an operation fails. -/
inductive Fault
  /-- an object lacks a key, or a list a place -/
  | missingKey (key : Value)
  /-- a value has no such part -/
  | noAttribute (kind : Kind) (name : String)
  /-- a record has no such field -/
  | noField (record field : String)
  | notIterable (kind : Kind)
  | notIndexable (kind : Kind)
  /-- a list or a text is asked for a place by something else than a number -/
  | badPlace (container place : Kind)
  | noLength (kind : Kind)
  | unhashable (kind : Kind)
  /-- an operator has no meaning for two kinds -/
  | noOperator (symbol : String) (left right : Kind)
  | noOrder (symbol : String) (left right : Kind)
  /-- a text is joined from something that is no text -/
  | notText (place : Nat) (kind : Kind)
  /-- a value is none of the members of a set of names -/
  | notMember (v : Value) (set : String)
  | badInteger (text : String)
  | notNumber (kind : Kind)
  | undefinedInteger
  | infiniteInteger
  | tooLargeQuotient
  | integerTooLong (digits : Nat)
  /-- an integer has too many digits to be written -/
  | unwritableInteger
  | decimal (cause : DecimalFault)
  | noDecimal (kind : Kind)
  /-- a list that writes no decimal number has not three parts -/
  | noDecimalParts
  /-- a part of a list that writes no decimal number -/
  | badDecimalPart (part : DecimalPart)
  /-- an integer does not fit into a word of the machine -/
  | integerTooLarge (word : String)
  | badSlice
  /-- an object has no places to take a part of -/
  | noSlice
  /-- a text cannot be added to a list -/
  | notAdded (left right : Kind)
  /-- a record is built without some of its fields -/
  | missingArguments (record : String) (names : List String)
  | unknownArgument (record name : String)
  | tooManyArguments (record : String) (least most given : Nat)
  | unreadable (e : Json.ReadError)
  | noFile (path : String)
  /-- the language model gave no text -/
  | noReply
  | undecodable (u : Text.Undecodable)
  | outside (kind : Trouble) (text : String)
  | report (r : Report)
deriving Repr

namespace Report

/-- A failure with details. -/
def make (family : Family) (message : String) (details : List (String × Value)) : Report :=
  ⟨family, .str message, .object details, []⟩

/-- A request that is not valid: the field that is wrong, and its value. -/
def invalid (message field : String) (value : Value) : Report :=
  ⟨.validation, .str message,
    .object [("field", .str field), ("value", .str value.display)],
    [("field", .str field), ("value", value)]⟩

/-- No analysis is stored under the id. -/
def notFound (id : Value) : Report :=
  ⟨.analysisNotFound, .str ("Analysis not found: " ++ id.display),
    .object [("analysis_id", id)], [("analysis_id", id)]⟩

end Report

namespace Family

/-- The record that builds the failures of a family. -/
def record : Family → String
  | validation => "ValidationError"
  | analysisNotFound => "AnalysisNotFoundError"
  | _ => "LexAuditError"

/-- The arguments that a failure of the family must have, and those that it may have. -/
def arguments : Family → List String × List String
  | validation => (["message", "field"], ["value"])
  | analysisNotFound => (["analysis_id"], [])
  | _ => (["message"], ["details"])

end Family

/-- Names as a list in running text. -/
def spelledOut (names : List String) : String :=
  match names.map (fun n => "'" ++ n ++ "'") with
  | [] => ""
  | [a] => a
  | [a, b] => a ++ " and " ++ b
  | all => ", ".intercalate all.dropLast ++ ", and " ++ all.getLast?.getD ""

namespace Fault

/-- The part of the program that reports the fault, if it is one of its own. -/
def family? : Fault → Option Family
  | report r => some r.family
  | _ => none

/-- The wording of a fault. -/
def message : Fault → String
  | missingKey key => key.literal
  | noAttribute kind name => "'" ++ kind.name ++ "' object has no attribute '" ++ name ++ "'"
  | noField record field => record ++ " has no field " ++ Text.quoted field
  | notIterable kind => "'" ++ kind.name ++ "' object is not iterable"
  | notIndexable kind => "'" ++ kind.name ++ "' object is not subscriptable"
  | badPlace container place =>
    match container with
    | .str => "string indices must be integers, not '" ++ place.name ++ "'"
    | _ => container.name ++ " indices must be integers or slices, not " ++ place.name
  | noLength kind => "object of type '" ++ kind.name ++ "' has no len()"
  | unhashable kind => "unhashable type: '" ++ kind.name ++ "'"
  | noOperator symbol left right =>
    "unsupported operand type(s) for " ++ symbol ++ ": '" ++ left.name ++ "' and '" ++ right.name
      ++ "'"
  | noOrder symbol left right =>
    "'" ++ symbol ++ "' not supported between instances of '" ++ left.name ++ "' and '"
      ++ right.name ++ "'"
  | notText place kind =>
    "sequence item " ++ toString place ++ ": expected str instance, " ++ kind.name ++ " found"
  | notMember v set => v.literal ++ " is not a valid " ++ set
  | badInteger text =>
    "invalid literal for int() with base 10: "
      ++ String.ofList ((Text.quoted text).toList.take 200)
  | notNumber kind =>
    "int() argument must be a string, a bytes-like object or a real number, not '" ++ kind.name
      ++ "'"
  | undefinedInteger => "cannot convert float NaN to integer"
  | infiniteInteger => "cannot convert float infinity to integer"
  | tooLargeQuotient => "integer division result too large for a float"
  | integerTooLong digits => (Json.Reason.tooManyDigits digits).text
  | unwritableInteger =>
    "Exceeds the limit (" ++ toString digitLimit ++ " digits) for integer string conversion; "
      ++ "use sys.set_int_max_str_digits() to increase the limit"
  | decimal cause => "[<class 'decimal." ++ cause.name ++ "'>]"
  | noDecimal kind => "conversion from " ++ kind.name ++ " to Decimal is not supported"
  | noDecimalParts => "argument must be a sequence of length 3"
  | badDecimalPart part => part.expected
  | integerTooLarge word => "int too large to convert to C " ++ word
  | badSlice => "slice indices must be integers or None or have an __index__ method"
  | noSlice => "unhashable type: 'slice'"
  | notAdded left right =>
    "can only concatenate " ++ left.name ++ " (not \"" ++ right.name ++ "\") to " ++ left.name
  | missingArguments record names =>
    record ++ ".__init__() missing " ++ toString names.length ++ " required positional argument"
      ++ (if names.length = 1 then "" else "s") ++ ": " ++ spelledOut names
  | unknownArgument record name =>
    record ++ ".__init__() got an unexpected keyword argument '" ++ name ++ "'"
  | tooManyArguments record least most given =>
    record ++ ".__init__() takes " ++
      (if least = most then toString most else "from " ++ toString least ++ " to " ++ toString most)
      ++ " positional arguments but " ++ toString given ++ " were given"
  | unreadable e => e.message
  | noFile path => "Contract file does not exist: " ++ path
  | noReply => "No response from AI service"
  | undecodable u => u.message
  | outside _ text => text
  | report r => r.message.display

end Fault

/-- The text of a value; there is none if an integer in it cannot be written. -/
def writtenText : Option String → Except Fault String
  | some text => .ok text
  | none => .error .unwritableInteger

/-- A value as shown to a reader. -/
def Value.shown (v : Value) : Except Fault String := writtenText v.shown?

namespace Report

/-- The failure of a family with the given arguments in order. -/
def ofArguments (family : Family) (args : List Value) : Except Fault Report :=
  let (required, optional) := family.arguments
  let most := required.length + optional.length
  if most < args.length then
    .error (.tooManyArguments family.record (required.length + 1) (most + 1) (args.length + 1))
  else
    match family, args with
    | .validation, message :: field :: rest => do
      let value := rest.head?.getD .null
      let valueText ← value.shown
      return ⟨family, message, .object [("field", field), ("value", .str valueText)],
        [("field", field), ("value", value)]⟩
    | .analysisNotFound, id :: _ => id.shown.map fun _ => notFound id
    | .validation, _ => .error (.missingArguments family.record (required.drop args.length))
    | _, message :: rest =>
      .ok ⟨family, message, (rest.head?.getD .null).orElse (.object []), []⟩
    | _, [] => .error (.missingArguments family.record required)

end Report

/-- Whether the given names are all known to a record and hold those that it must have. -/
def checkNames (record : String) (required optional given : List String) : Except Fault Unit :=
  match given.find? fun name => !(required ++ optional).contains name with
  | some name => .error (.unknownArgument record name)
  | none =>
    match required.filter fun name => !given.contains name with
    | [] => .ok ()
    | missing => .error (.missingArguments record missing)

end SolidityAudit
