import SolidityAudit.Fault
import SolidityAudit.Text.Pattern

/-!
# The object in a reply

A reply of a language model may hold a JSON object between other text. The object of the first
fenced block is preferred to what stands from the first opening brace to the last closing one.
-/

namespace SolidityAudit.Reply

/-- A control character other than the blanks of a text. -/
def isControl (c : Char) : Bool :=
  let n := c.toNat
  n ≤ 0x08 || n == 0x0B || n == 0x0C || (0x0E ≤ n && n ≤ 0x1F) || n == 0x7F

/-- A reply without control characters. -/
def strip (reply : String) : String :=
  String.ofList (reply.toList.filter fun c => !isControl c)

/-- The marks of a fenced block. -/
def fence : List Step := Pattern.literal "\x60\x60\x60"

/-- What stands before the object of a fenced block. -/
def fenceOpening : Pattern := [fence ++ [.maybe "json".toList] ++ Pattern.blanks]

/-- The shortest text from an opening to a closing brace. -/
def fencedObject : Pattern :=
  [Pattern.literal "\x7b" ++ [.few fun _ => true] ++ Pattern.literal "\x7d"]

/-- What stands after the object of a fenced block. -/
def fenceClosing : Pattern := [Pattern.blanks ++ fence]

/-- The longest text from an opening to a closing brace. -/
def bracedText : Pattern :=
  [Pattern.literal "\x7b" ++ [.many fun _ => true] ++ Pattern.literal "\x7d"]

/-- The text that may be an object, in a reply without control characters. -/
def candidate? (cs : List Char) : Option (List Char) :=
  match Pattern.capture? fenceOpening fencedObject fenceClosing cs with
  | some found => some found
  | none => Pattern.capture? [[]] bracedText [[]] cs

/-- The text in a reply that may be an object. -/
def extract (reply : String) : Option String :=
  (candidate? (strip reply).toList).map String.ofList

/-- A text as JSON; a text that fails is read once more with control characters allowed. -/
def readTolerant (s : String) : Except Json.ReadError Value :=
  match Json.read .strict s with
  | .ok v => .ok v
  | .error e =>
    match e.reason with
    | .tooManyDigits _ => .error e
    | _ => Json.read .lenient s

/-- Whether a text is read once more because it fails at first. -/
def needsTolerance (s : String) : Bool :=
  match Json.read .strict s with
  | .ok _ => false
  | .error e =>
    match e.reason with
    | .tooManyDigits _ => false
    | _ => true

/-- What is noted about a reply whose object is read once more. -/
def retryNotice (reply : String) : Option String :=
  (extract reply).bind fun s =>
    if needsTolerance s then
      some ("Strict JSON decode failed, retrying lenient (first 200 chars): "
        ++ String.ofList (s.toList.take 200))
    else none

/-- The object in a reply, or `none` if the reply holds no braces. -/
def parse (reply : String) : Except Fault (Option Value) :=
  match extract reply with
  | none => .ok none
  | some s =>
    match readTolerant s with
    | .ok (.object fields) => .ok (some (.object fields))
    | .ok _ => .error (.unreadable ⟨.notObject, s, 0⟩)
    | .error e => .error (.unreadable e)

end SolidityAudit.Reply
