import SolidityAudit.Command.Run
import SolidityAudit.Outside.Console
import Std.Time.DateTime.Timestamp

/-!
# The program

The command line of the program. Files, environment, clock and console are those of the machine. The
program has no link to a language model, a node, a mirror or a compiler: each contact with one of
them ends with a fault.
-/

namespace SolidityAudit.Outside

/-- The fault of every contact with a service. -/
def noLink : Fault := .outside .connection "no connection to the service"

/-- The result of an action on files, if it succeeds. -/
def whenPossible {α : Type} (x : IO α) : IO (Option α) := do
  try return some (← x) catch _ => return none

/-- What stands at a path of the machine. -/
def kindOfPath (path : Path) : IO (Option FileKind) := do
  let kind ← whenPossible do
    let place ← IO.FS.realPath path.text
    return (← place.isDir, ← place.pathExists)
  return match kind with
    | some (true, _) => some .folder
    | some (false, true) => some .file
    | _ => none

/-- The answer of the machine to a request. -/
def machineAnswer (verbose : Bool) : (r : Request) → IO (Answer r)
  | .log level text => do
    if level.isShown verbose then IO.eprintln (level.name ++ " " ++ text)
  | .print shown => shown.lines.forM IO.println
  | .write text => IO.print text
  | .clock => do
    let now ← Std.Time.Timestamp.now
    return now.toMillisecondsSinceUnixEpoch.val
  | .environment name => IO.getEnv name
  | .kindOf path => kindOfPath path
  | .fileContent path => do
    return (← whenPossible (IO.FS.readBinFile path.text)).map fun bytes => bytes.toList
  | .makeFolder path => do
    return (← whenPossible (IO.FS.createDirAll path.text)).isSome
  | .saveFile path content => do
    return (← whenPossible (IO.FS.writeFile path.text content)).isSome
  | .openChat .. | .openNode .. | .retry .. => return .ok ()
  | .chat _ => return .error noLink
  | .useKey _ => return .error noLink
  | .fetch .. => return .error noLink
  | .transactionCount _ => return .error noLink
  | .gasPrice => return .error noLink
  | .construct .. => return .error noLink
  | .sign .. => return .error noLink
  | .send _ => return .error noLink
  | .awaitReceipt .. => return .error noLink
  | .compilers => return .error noLink
  | .installCompiler _ => return .error noLink
  | .selectCompiler _ => return .error noLink
  | .compile .. => return .error noLink

end SolidityAudit.Outside

namespace SolidityAudit

/-- A command line is read and run on the machine; the result is the exit code. -/
def runOnMachine (words : List String) : IO UInt32 := do
  match CommandLine.read words with
  | .error (.help command) =>
    IO.print (CommandLine.helpText command)
    return 0
  | .error refusal =>
    IO.eprintln refusal.message
    return 2
  | .ok invocation =>
    match ← Script.run (Outside.machineAnswer invocation.verbose) invocation.run.run with
    | .ok code => return code.toUInt32
    | .error f =>
      IO.eprintln f.message
      return 1

end SolidityAudit

/-- The program. -/
def main (args : List String) : IO UInt32 :=
  SolidityAudit.runOnMachine args
