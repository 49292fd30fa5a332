import BankAsm.CommandLine.Run
import BankAsm.Journal

/-!
# The command

Assembles a source file. The output goes to a file or to standard output, events and
faults go to standard error.
-/

namespace BankAsm

/-- The text of a file, if it can be read. -/
def readFile? (path : String) : IO (Option String) := do
  match ← (IO.FS.readFile path).toBaseIO with
  | .ok text => return some text
  | .error _ => return none

/-- Writes bytes to a file or to standard output. -/
def writeOutput (path : Option String) (bytes : ByteArray) : IO Unit := do
  match path with
  | some path => IO.FS.writeBinFile path bytes
  | none =>
    let output ← IO.getStdout
    output.write bytes
    output.flush

/-- Tells a fault or an event of a level. -/
def tell (level : Level) (text : String) : IO Unit := IO.eprintln (level.name ++ " " ++ text)

/-- Tells the events of a run that matter enough to the command. -/
def Command.report (command : Command) (settings : Settings) (source : String) : IO Unit := do
  let events := Journal.assembling source settings.banks settings.labels.entries
    [settings.format] settings.fill
  for event in Journal.atLeast command.level events do
    tell event.level event.text

/-- Runs a command and gives its exit code. -/
def Command.execute (command : Command) : IO UInt32 := do
  match ← (command.inputs readFile?).run with
  | .error fault =>
    tell .error fault.message
    return 1
  | .ok (settings, source) =>
    command.report settings source
    match command.outcome settings source with
    | .error fault =>
      tell .error fault.message
      return 1
    | .ok bytes =>
      writeOutput command.output (ByteArray.mk bytes.toArray)
      return 0

end BankAsm

/-- Reads the arguments and runs the command that they ask for. -/
def main (arguments : List String) : IO UInt32 := do
  match BankAsm.Command.read arguments with
  | some command => command.execute
  | none =>
    IO.eprintln BankAsm.Command.usage
    return 2
