import BankAsm.LabelTable

/-!
# Settings

What an assembly runs with. A configuration may leave everything open, and what the
command line says goes before it: a bank count or a format replaces that of the
configuration, and definitions are inserted behind its labels. Only the bank count
that is in effect has to lie in its range.
-/

namespace BankAsm

/-- The layout of the output: the bytes in the order of the statements, or one
image for each bank. -/
inductive OutputFormat where
  | flat
  | banks
deriving DecidableEq

namespace OutputFormat

/-- The written name. -/
def name : OutputFormat → String
  | .flat => "flat"
  | .banks => "banks"

/-- The formats. -/
def all : List OutputFormat := [.flat, .banks]

/-- The format of a written name. -/
def ofName? (written : String) : Option OutputFormat :=
  all.find? fun format => format.name = written

end OutputFormat

/-- What a configuration says. -/
structure Config where
  banks : Option Nat
  format : Option OutputFormat
  fill : Option UInt8
  labels : LabelTable
deriving DecidableEq

/-- The configuration that says nothing. -/
def Config.empty : Config := ⟨none, none, none, .empty⟩

/-- What the command line says about the settings. -/
structure Overrides where
  banks : Option Nat
  format : Option OutputFormat
  definitions : List (String × UInt8)
deriving DecidableEq

/-- The most banks there may be. -/
def maxBanks : Nat := 256

/-- A bank count that is out of range. -/
structure BankCountFault where
  banks : Nat
deriving DecidableEq

/-- The wording of the fault. -/
def BankCountFault.message (f : BankCountFault) : String :=
  "bank count " ++ toString f.banks ++ " is not in 1..=" ++ toString maxBanks

/-- What an assembly runs with. -/
structure Settings where
  banks : Nat
  format : OutputFormat
  fill : UInt8
  labels : LabelTable
deriving DecidableEq

/-- The settings of a configuration with what the command line says laid over it. -/
def Config.override (config : Config) (overrides : Overrides) : Except BankCountFault Settings :=
  let banks := (overrides.banks.or config.banks).getD 1
  if 1 ≤ banks ∧ banks ≤ maxBanks then
    .ok {
      banks
      format := (overrides.format.or config.format).getD .flat
      fill := config.fill.getD 0
      labels := config.labels.insertAll overrides.definitions }
  else .error ⟨banks⟩

end BankAsm
