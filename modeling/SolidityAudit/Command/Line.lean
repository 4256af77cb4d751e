import SolidityAudit.Command.Word

/-!
# Command lines

A command line names a command, with options of the program before it and the words of the command
behind it. All words are first read with the options of the program; those behind the command are
then read again with the options of the command.
-/

namespace SolidityAudit

/-- What the program is told to do. -/
inductive Command
  | audit (path : String) (asJson withSummary : Bool)
  | gas (path : String) (asJson : Bool)
  | analyze (path : String)
  /-- without an id the contract is analyzed first -/
  | deploy (path : String) (analysisId : Option String) (arguments : List String)
  | verify (contractId : String)
  | status
  /-- without a key the settings are shown -/
  | config (newKey : Option String)
  | version
deriving DecidableEq, Repr

namespace CommandLine

/-- A command line that has been understood; `none` stands for no command. -/
structure Invocation where
  verbose : Bool
  command : Option Command
deriving DecidableEq, Repr

/-- Why there is nothing to run. -/
inductive Refusal
  /-- the use of the program, or of one of its commands, is asked for -/
  | help (command : Option String)
  | misuse (command : Option String) (m : Misuse)
deriving DecidableEq, Repr

/-- The name of the program. -/
def programName : String := "lexaudit"

/-- What is told about a refused command line. -/
def Refusal.message : Refusal → String
  | help _ => ""
  | misuse command m =>
    programName ++ (command.map (" " ++ ·)).getD "" ++ ": error: " ++ m.message

/-! ## Forms -/

/-- The option that every command line may hold. -/
def helpOption : OptionForm := ⟨["-h", "--help"], .help⟩

/-- The options of the program. -/
def programOptions : List OptionForm := [helpOption, ⟨["--verbose", "-v"], .flag⟩]

/-- The words that a command takes. -/
structure CommandForm where
  name : String
  operand : Option String
  options : List OptionForm
deriving DecidableEq, Repr

/-- The commands in the order in which they are listed. -/
def forms : List CommandForm :=
  [⟨"audit", some "contract", [⟨["--json"], .flag⟩, ⟨["--with-summary"], .flag⟩]⟩,
   ⟨"gas", some "contract", [⟨["--json"], .flag⟩]⟩,
   ⟨"analyze", some "contract", []⟩,
   ⟨"deploy", some "contract", [⟨["--analysis-id"], .setting⟩, ⟨["--param"], .setting⟩]⟩,
   ⟨"verify", some "contract_id", []⟩,
   ⟨"status", none, []⟩,
   ⟨"config", none, [⟨["--show"], .flag⟩, ⟨["--set-openai-key"], .setting⟩]⟩,
   ⟨"version", none, []⟩]

/-! ## Taking items in -/

/-- What has been read of a command line. -/
structure Taken where
  uses : List (OptionForm × Option String) := []
  operand : Option String := none
  /-- the words that nothing takes -/
  leftOver : List String := []
deriving DecidableEq, Repr

namespace Taken

/-- Whether an option of the name is used. -/
def has (t : Taken) (name : String) : Bool :=
  t.uses.any (·.1.names.contains name)

/-- The values that an option is given, in order. -/
def values (t : Taken) (name : String) : List String :=
  (t.uses.filter (·.1.names.contains name)).filterMap (·.2)

/-- The last value that an option is given; an empty one is as good as none. -/
def value? (t : Taken) (name : String) : Option String :=
  (t.values name).getLast?.filter (· ≠ "")

/-- One more word that nothing takes. -/
def leave (t : Taken) (word : String) : Taken := { t with leftOver := t.leftOver ++ [word] }

/-- One more use of an option. -/
def use (t : Taken) (o : OptionForm) (value : Option String) : Taken :=
  { t with uses := t.uses ++ [(o, value)] }

end Taken

/-- Items are taken in one by one. An operand is taken where one is `wanted` and not yet there; a
separator on either side goes with it. -/
def take (command : Option String) (wanted : Bool) : Taken → List Item → Except Refusal Taken
  | t, [] => .ok t
  | t, .unknown word :: rest => take command wanted (t.leave word) rest
  | _, .misused m :: _ => .error (.misuse command m)
  | t, .use o (some v) :: rest =>
    if o.effect = .help then .error (.help command)
    else take command wanted (t.use o (some v)) rest
  | t, .use o none :: .operand v :: rest =>
    match o.effect with
    | .help => .error (.help command)
    | .flag => take command wanted (t.use o none) (.operand v :: rest)
    | .setting => take command wanted (t.use o (some v)) rest
  | t, .use o none :: rest =>
    match o.effect with
    | .help => .error (.help command)
    | .flag => take command wanted (t.use o none) rest
    | .setting => .error (.misuse command (.missingValue o))
  | t, .operand word :: .separator :: rest =>
    if wanted && t.operand.isNone then take command wanted { t with operand := some word } rest
    else take command wanted (t.leave word) (.separator :: rest)
  | t, .operand word :: rest =>
    if wanted && t.operand.isNone then take command wanted { t with operand := some word } rest
    else take command wanted (t.leave word) rest
  | t, .separator :: .operand word :: rest =>
    if wanted && t.operand.isNone then take command wanted { t with operand := some word } rest
    else take command wanted (t.leave separatorWord) (.operand word :: rest)
  | t, .separator :: rest => take command wanted (t.leave separatorWord) rest

/-- The words of a command, read with its form. -/
def CommandForm.take (f : CommandForm) (words : List String) : Except Refusal Taken := do
  let options := helpOption :: f.options
  match items options words with
  | .error m => .error (.misuse f.name m)
  | .ok items =>
    let t ← CommandLine.take f.name f.operand.isSome {} items
    match f.operand, t.operand with
    | some name, none => .error (.misuse f.name (.missingOperands [name]))
    | _, _ => .ok t

/-- The command of a name with what has been read behind it. -/
def commandOf (name : String) (t : Taken) : Command :=
  let operand := t.operand.getD ""
  match name with
  | "audit" => .audit operand (t.has "--json") (t.has "--with-summary")
  | "gas" => .gas operand (t.has "--json")
  | "analyze" => .analyze operand
  | "deploy" => .deploy operand (t.value? "--analysis-id") (t.values "--param")
  | "verify" => .verify operand
  | "status" => .status
  | "config" => .config (t.value? "--set-openai-key")
  | _ => .version

/-! ## Whole lines -/

/-- Whether a word uses options of the program, or looks as if it did. -/
def isOptionWord (word : String) : Bool :=
  word != separatorWord &&
    match itemsOfWord programOptions word with
    | .ok [.operand _] => false
    | _ => true

/-- The command that words spell, and what is left over. -/
def readCommand (words : List String) : Except Refusal (Option Command × List String) :=
  match words with
  | [] => .ok (none, [])
  | name :: rest =>
    if words = [separatorWord] then .ok (none, words)
    else
      match forms.find? (·.name == name) with
      | none => .error (.misuse none (.unknownCommand name (forms.map CommandForm.name)))
      | some f => do
        let t ← f.take rest
        return (some (commandOf name t), t.leftOver)

/-- The words of a command line, understood. -/
def read (words : List String) : Except Refusal Invocation := do
  match items programOptions words, items programOptions (words.takeWhile isOptionWord) with
  | .error m, _ | _, .error m => .error (.misuse none m)
  | .ok _, .ok items =>
    let t ← take none false {} items
    let (command, leftOver) ← readCommand (words.dropWhile isOptionWord)
    match t.leftOver ++ leftOver with
    | [] => return ⟨t.has "--verbose", command⟩
    | leftOver => .error (.misuse none (.leftOver leftOver))

end CommandLine

end SolidityAudit
