import BankAsm.Assembly
import BankAsm.CommandLine
import BankAsm.Program.Image
import BankAsm.Program.Stream
import BankAsm.Settings.File

/-!
# Running a command

A run reads the configuration, then the source, and gives the bytes of the output.
Files are what a reading action finds at a path, so a run says nothing about where
they are kept. The first thing that goes wrong decides the fault.
-/

namespace BankAsm

/-- Why a run has no output. -/
inductive RunFault where
  | unreadable (path : String)
  | config (fault : ConfigFault)
  | settings (fault : BankCountFault)
  | source (path : String) (failure : Failure)
deriving DecidableEq

/-- The wording of a fault. -/
def RunFault.message : RunFault → String
  | .unreadable path => "cant open file: " ++ path
  | .config fault => fault.message
  | .settings fault => fault.message
  | .source path (.reported diagnostic) => path ++ ":" ++ diagnostic.message
  | .source path .stuck => path ++ ": not encodable"

/-- The bytes of a program in a format: its flat bytes, if every octet has one, or
its bank images one behind the other. -/
def Program.output (program : Program) (format : OutputFormat) (fill : UInt8) :
    Except Failure (List UInt8) :=
  match format with
  | .flat =>
    match program.flat with
    | ⟨bytes, none⟩ => .ok bytes
    | ⟨_, some failure⟩ => .error failure
  | .banks => (program.images fill).map List.flatten

/-- The output of a source with settings. -/
def Settings.assemble (settings : Settings) (source : String) : Except Failure (List UInt8) := do
  let program ← BankAsm.assemble source settings.banks settings.labels.entries
  program.output settings.format settings.fill

namespace Command

variable [Monad m]

/-- The text of a file. -/
def contents (readFile : String → m (Option String)) (path : String) :
    ExceptT RunFault m String := do
  match ← readFile path with
  | some text => return text
  | none => throw (.unreadable path)

/-- The settings of a command. -/
def settings (readFile : String → m (Option String)) (command : Command) :
    ExceptT RunFault m Settings := do
  let config ← match command.config with
    | none => pure .empty
    | some path => .mk (pure ((Config.ofText (← contents readFile path)).mapError .config))
  .mk (pure ((config.override command.overrides).mapError .settings))

/-- The settings of a command and its source. -/
def inputs (readFile : String → m (Option String)) (command : Command) :
    ExceptT RunFault m (Settings × String) := do
  let settings ← command.settings readFile
  let source ← contents readFile command.source
  return (settings, source)

/-- The bytes of the output of a command with its settings and its source. -/
def outcome (command : Command) (settings : Settings) (source : String) :
    Except RunFault (List UInt8) :=
  (settings.assemble source).mapError (.source command.source)

/-- The bytes of the output of a command. -/
def run (readFile : String → m (Option String)) (command : Command) :
    ExceptT RunFault m (List UInt8) := do
  let (settings, source) ← command.inputs readFile
  .mk (pure (command.outcome settings source))

end Command

end BankAsm
