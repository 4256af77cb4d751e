import SolidityAudit.Text.Digit
import SolidityAudit.Text.Quoted

/-!
# Words of a command line

The words behind the name of a program are operands and uses of options. A long option may be cut
short as long as it stays the only one, and takes a value behind an equals sign or in the next
word. Short options may share one dash. Behind a separator all words are operands.
-/

namespace SolidityAudit.CommandLine

/-- What an option does. -/
inductive Effect
  /-- tells how the program is used, and ends it -/
  | help
  | flag
  /-- takes a value -/
  | setting
deriving DecidableEq, Repr

/-- An option with all of its names. -/
structure OptionForm where
  names : List String
  effect : Effect
deriving DecidableEq, Repr

/-- Why a command line is refused. -/
inductive Misuse
  | ambiguous (word : String) (names : List String)
  /-- an option that takes no value is given one -/
  | needlessValue (option : OptionForm) (value : String)
  | missingValue (option : OptionForm)
  | missingOperands (names : List String)
  | unknownCommand (word : String) (known : List String)
  | leftOver (words : List String)
deriving DecidableEq, Repr

/-- The names of an option as one. -/
def OptionForm.label (o : OptionForm) : String := "/".intercalate o.names

/-- The wording of a misuse. -/
def Misuse.message : Misuse → String
  | ambiguous word names =>
    "ambiguous option: " ++ word ++ " could match " ++ ", ".intercalate names
  | needlessValue o value =>
    "argument " ++ o.label ++ ": ignored explicit argument " ++ Text.quoted value
  | missingValue o => "argument " ++ o.label ++ ": expected one argument"
  | missingOperands names =>
    "the following arguments are required: " ++ ", ".intercalate names
  | unknownCommand word known =>
    "argument command: invalid choice: " ++ Text.quoted word ++ " (choose from "
      ++ ", ".intercalate (known.map Text.quoted) ++ ")"
  | leftOver words => "unrecognized arguments: " ++ " ".intercalate words

/-- What stands on a command line. -/
inductive Item
  | operand (word : String)
  | separator
  | use (o : OptionForm) (value : Option String)
  /-- looks like an option, but is none -/
  | unknown (word : String)
  | misused (m : Misuse)
deriving DecidableEq, Repr

/-! ## Reading words -/

/-- The word before which no options stand any more. -/
def separatorWord : String := "--"

/-- The option of a name. -/
def optionOf (options : List OptionForm) (name : String) : Option OptionForm :=
  options.find? (·.names.contains name)

/-- Whether characters are one or more digits; a line feed may end them. -/
def areDigits (cs : List Char) : Bool :=
  let digits := if cs.getLast? = some '\n' then cs.dropLast else cs
  digits != [] && digits.all fun c => (Text.digitValue? c).isSome

/-- Whether the characters behind a dash make it a negative number. -/
def isMagnitude (cs : List Char) : Bool :=
  let whole := cs.takeWhile (· != '.')
  match cs.dropWhile (· != '.') with
  | [] => areDigits cs
  | _ :: decimals => (whole.all fun c => (Text.digitValue? c).isSome) && areDigits decimals

/-- The uses of short options that share a dash. The characters behind an option that takes a value
are the value; `joined` tells that an equals sign stands before them. -/
def cluster (options : List OptionForm) (o : OptionForm) (joined : Bool) :
    List Char → Except Misuse (List Item)
  | [] => .error (.needlessValue o "")
  | c :: rest =>
    let value := String.ofList (c :: rest)
    if o.effect = .setting then .ok [.use o (some value)]
    else if joined || c = '-' then .error (.needlessValue o value)
    else
      match optionOf options (String.ofList ['-', c]), rest with
      | none, _ => .ok [.use o none, .unknown ("-" ++ value)]
      | some next, [] => .ok [.use o none, .use next none]
      | some next, '=' :: attached =>
        if next.effect = .setting then
          .ok [.use o none, .use next (some (String.ofList attached))]
        else .error (.needlessValue next (String.ofList attached))
      | some next, rest => do return .use o none :: (← cluster options next false rest)

/-- The use of an option with a value attached to its name. -/
def useWith (options : List OptionForm) (o : OptionForm) (name value : String) (joined : Bool) :
    List Item :=
  if o.effect = .setting then [.use o (some value)]
  else if name.startsWith "--" then [.misused (.needlessValue o value)]
  else
    match cluster options o joined value.toList with
    | .ok items => items
    | .error m => [.misused m]

/-- A word that is no option and is not cut short from one. -/
def otherWord (word : String) : Item :=
  if isMagnitude (word.toList.drop 1) || word.contains ' ' then .operand word else .unknown word

/-- The items of a word that starts with a dash and does not name an option in full. -/
def shortened (options : List OptionForm) (word : String) (name : String)
    (value : Option String) : Except Misuse (List Item) :=
  if name.startsWith "--" then
    let found := options.flatMap fun o => (o.names.filter (·.startsWith name)).map ((o, ·))
    match found with
    | [] => .ok [otherWord word]
    | [(o, full)] =>
      match value with
      | none => .ok [.use o none]
      | some v => .ok (useWith options o full v true)
    | _ => .error (.ambiguous word (found.map (·.2)))
  else
    let short := String.ofList (word.toList.take 2)
    match optionOf options short with
    | none => .ok [otherWord word]
    | some o => .ok (useWith options o short (String.ofList (word.toList.drop 2)) false)

/-- The items of one word. -/
def itemsOfWord (options : List OptionForm) (word : String) : Except Misuse (List Item) :=
  if !word.startsWith "-" then .ok [.operand word]
  else
    match optionOf options word with
    | some o => .ok [.use o none]
    | none =>
      if word = "-" then .ok [.operand word]
      else
        let cs := word.toList
        let name := String.ofList (cs.takeWhile (· != '='))
        let value :=
          match cs.dropWhile (· != '=') with
          | [] => none
          | _ :: rest => some (String.ofList rest)
        match optionOf options name, value with
        | some o, some v => .ok (useWith options o name v true)
        | _, _ => shortened options word name value

/-- The items of a command line. -/
def items (options : List OptionForm) : List String → Except Misuse (List Item)
  | [] => .ok []
  | word :: rest =>
    if word = separatorWord then .ok (.separator :: rest.map .operand)
    else do
      let here ← itemsOfWord options word
      return here ++ (← items options rest)

end SolidityAudit.CommandLine
