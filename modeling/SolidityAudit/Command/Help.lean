import SolidityAudit.Command.Line

/-!
# How the program is used

The text that tells how the program, or one of its commands, is used.
-/

namespace SolidityAudit.CommandLine

/-- How an option is written. -/
def OptionForm.usage (o : OptionForm) : String :=
  let name := o.names.head?.getD ""
  "[" ++ name ++ (if o.effect = .setting then " VALUE" else "") ++ "]"

/-- What a command does. -/
def purpose : String → String
  | "audit" => "Run the heuristic security audit"
  | "gas" => "Run the gas-usage heuristic"
  | "analyze" => "Full analysis with provenance on Hedera"
  | "deploy" => "Compile and deploy a contract to Hedera"
  | "verify" => "Check a deployed contract on the mirror node"
  | "status" => "Show Hedera and OpenAI connectivity"
  | "config" => "Show or update configuration"
  | "version" => "Show version information"
  | _ => ""

/-- A row of the list of commands. -/
def CommandForm.row (f : CommandForm) : String :=
  "  " ++ f.name ++ String.ofList (List.replicate (10 - f.name.length) ' ') ++ purpose f.name

/-- The words of a command with its options. -/
def CommandForm.usage (f : CommandForm) : String :=
  " ".intercalate
    ([programName, f.name] ++ (helpOption :: f.options).map OptionForm.usage ++ f.operand.toList)

/-- How the program or a command is used. -/
def helpText (command : Option String) : String :=
  match command.bind fun name => forms.find? (·.name == name) with
  | some f => "usage: " ++ f.usage ++ "\n\n" ++ purpose f.name ++ "\n"
  | none =>
    "usage: " ++ " ".intercalate (programName :: programOptions.map OptionForm.usage)
      ++ " command ...\n\n"
      ++ "LexAudit: Solidity security audit, legal summary and Hedera deployment\n\ncommands:\n"
      ++ String.join (forms.map fun f => f.row ++ "\n")

end SolidityAudit.CommandLine
