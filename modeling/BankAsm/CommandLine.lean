import BankAsm.CommandLine.Argument
import BankAsm.Event
import BankAsm.Settings
import BankAsm.Settings.ByteValue

/-!
# The command line

What a command asks for: the source to assemble, where the output goes, and what it
says about the settings. Each option but a definition is given at most once.
-/

namespace BankAsm

/-- What a command asks for. -/
structure Command where
  source : String
  output : Option String
  config : Option String
  level : Level
  overrides : Overrides
deriving DecidableEq

namespace Command

/-- A path, which is not empty. -/
def path? (text : String) : Option String := if text.isEmpty then none else some text

/-- The number that decimal digits denote, with or without a plus sign. -/
def number? (text : String) : Option Nat :=
  match text.toList with
  | '+' :: digits => Text.Numeral.unsigned? digits
  | digits => Text.Numeral.unsigned? digits

/-- A bank count in its range. -/
def banks? (text : String) : Option Nat := (number? text).filter fun n => 1 ≤ n ∧ n ≤ maxBanks

/-- A level, by its name in either case or by a number that counts from the most
important one. -/
def level? (text : String) : Option Level :=
  match number? text with
  | some n => Level.all.find? fun level => level.rank + n = 6
  | none => Level.all.find? fun level => level.name.toList = text.toList.map Char.toUpper

/-- A definition. -/
def definition? (text : String) : Option (String × UInt8) := (Definition.read text).toOption

/-- What an option that is given at most once says. -/
def atMostOnce (read : String → Option α) : List String → Option (Option α)
  | [] => some none
  | [text] => (read text).map some
  | _ => none

/-- What the parts of the arguments ask for. -/
def ofArguments (arguments : List Argument) : Option Command := do
  let [source] := Argument.operands arguments | none
  let source ← path? source
  let output ← atMostOnce path? (Argument.texts .output arguments)
  let config ← atMostOnce path? (Argument.texts .config arguments)
  let level ← atMostOnce level? (Argument.texts .logLevel arguments)
  let banks ← atMostOnce banks? (Argument.texts .banks arguments)
  let format ← atMostOnce OutputFormat.ofName? (Argument.texts .format arguments)
  let definitions ← (Argument.texts .define arguments).mapM definition?
  return ⟨source, output, config, level.getD .info, ⟨banks, format, definitions⟩⟩

/-- What arguments ask for, unless they are to be refused. -/
def read (arguments : List String) : Option Command :=
  (Argument.parts arguments).bind ofArguments

/-- What the command expects. -/
def usage : String :=
  "Usage: <SOURCE> [-o FILE] [-b BANKS] [-c FILE] [-D NAME=val]... [-f flat|banks] [-l LEVEL]"

end Command

end BankAsm
