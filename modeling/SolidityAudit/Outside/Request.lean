import SolidityAudit.Fault
import SolidityAudit.Path
import SolidityAudit.Script
import SolidityAudit.Time.Instant

/-!
# The outside world

All that the program asks of the world around it: the log, the console, the clock, files, the
language model, the node and the mirror of the ledger, and the Solidity compiler. An exchange that
may fail answers with the fault.
-/

namespace SolidityAudit.Outside

/-- How urgent a log entry is. -/
inductive Level
  | debug | info | warning | error
deriving DecidableEq, Repr

namespace Level

/-- The name of a level. -/
def name : Level → String
  | debug => "DEBUG"
  | info => "INFO"
  | warning => "WARNING"
  | error => "ERROR"

/-- Whether entries of the level are shown; a verbose program shows all. -/
def isShown (verbose : Bool) : Level → Bool
  | debug | info => verbose
  | warning | error => true

end Level

/-- What the console shows, with its markup. -/
inductive Shown
  | text (s : String)
  | table (title : String) (columns : List String) (rows : List (List String))
  | panel (text title : String)
deriving DecidableEq, Repr

/-- A question to a language model. -/
structure ChatQuery where
  model : Value
  /-- the role and the content of each message -/
  messages : List (String × String)
  temperature : Double
  maxTokens : Nat
deriving Repr

/-- When an exchange with a server is tried once more. -/
structure RetryPolicy where
  total : Value
  backoff : Double
  statuses : List Nat
  methods : List String
deriving Repr

/-- The answer of a server. -/
structure ServerReply where
  status : Int
  reason : String
  body : String
deriving Repr

/-- What stands at a path. -/
inductive FileKind
  | file | folder
deriving DecidableEq, Repr

/-- What the program asks of the outside. -/
inductive Request
  | log (level : Level) (text : String)
  | print (shown : Shown)
  /-- a text written as it is -/
  | write (text : String)
  | clock
  | environment (name : String)
  | kindOf (path : Path)
  | fileContent (path : Path)
  | makeFolder (path : Path)
  | saveFile (path : Path) (content : String)
  | openChat (key timeout retries : Value)
  | chat (query : ChatQuery)
  | openNode (url timeout : Value)
  | retry (scheme : String) (policy : RetryPolicy)
  | useKey (privateKey : Value)
  | fetch (url : String) (parameters : Option (List (String × Value))) (timeout : Value)
  | transactionCount (address : String)
  | gasPrice
  | construct (interface bytecode : Value) (arguments : List Value)
  | sign (transaction privateKey : Value)
  | send (signed : Value)
  | awaitReceipt (hash : Value) (timeout : Nat)
  | compilers
  | installCompiler (version : Value)
  | selectCompiler (version : Value)
  | compile (input : Value) (allowEmpty : Bool)
deriving Repr

/-- The type of the answer to a request. -/
@[reducible] def Answer : Request → Type
  | .log .. | .print .. | .write .. => Unit
  | .clock => Instant
  | .environment _ => Option String
  | .kindOf _ => Option FileKind
  | .fileContent _ => Option (List UInt8)
  | .makeFolder _ => Bool
  | .saveFile .. => Bool
  | .openChat .. => Except Fault Unit
  -- the content of the first choice, if there is one
  | .chat _ => Except Fault Value
  | .openNode .. => Except Fault Unit
  | .retry .. => Except Fault Unit
  | .useKey _ => Except Fault String
  | .fetch .. => Except Fault ServerReply
  | .transactionCount _ => Except Fault Int
  | .gasPrice => Except Fault Int
  | .construct .. => Except Fault Unit
  | .sign .. => Except Fault Value
  | .send _ => Except Fault Value
  | .awaitReceipt .. => Except Fault Value
  | .compilers => Except Fault (List String)
  | .installCompiler _ => Except Fault Unit
  | .selectCompiler _ => Except Fault Unit
  | .compile .. => Except Fault Value

end Outside

/-- A program that deals with the outside and may fail. -/
abbrev Action := ExceptT Fault (Script Outside.Request Outside.Answer)

namespace Action

open Outside

/-- The answer to a request. -/
def ask (r : Request) : Action (Answer r) := ExceptT.lift (Script.request r)

/-- The result of an exchange, or its fault. -/
def settle {α : Type} (r : Except Fault α) : Action α := ExceptT.mk (pure r)

/-- The outcome of a program, which itself does not fail. -/
def attempt {α : Type} (x : Action α) : Action (Except Fault α) := ExceptT.lift x.run

/-- An entry in the log. -/
def log (level : Level) (text : String) : Action Unit := ask (.log level text)

/-- A line on the console. -/
def say (text : String) : Action Unit := ask (.print (.text text))

end Action

end SolidityAudit
