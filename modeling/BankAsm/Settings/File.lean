import BankAsm.Settings
import BankAsm.Settings.ByteValue
import BankAsm.Toml.Document

/-!
# Configuration files

The configuration that a document says. Its keys are read in order, and the first
that does not say what it should decides the fault. Other keys say nothing.
-/

namespace BankAsm

/-- Why a text is no configuration: it is no document, a value is of another type than
expected, the bank count is negative, the format has an unknown name or is no name at
all, or the fill or a label is no byte. -/
inductive ConfigFault where
  | malformed (fault : Toml.Fault)
  | mistyped (found expected : String)
  | negativeBanks (value : Int)
  | unknownFormat (name : String)
  | unnamedFormat
  | badFill (fault : ByteValueFault)
  | badLabel (name : String) (fault : ByteValueFault)
deriving DecidableEq

/-- The wording of a fault. -/
def ConfigFault.message : ConfigFault → String
  | .malformed fault => fault.text
  | .mistyped found expected => "invalid type: " ++ found ++ ", expected " ++ expected
  | .negativeBanks value =>
    "invalid value: " ++ (Toml.Value.integer value).noun ++ ", expected usize"
  | .unknownFormat name => "unknown variant `" ++ name ++ "`, expected `flat` or `banks`"
  | .unnamedFormat => "wanted string or table"
  | .badFill fault => fault.message
  | .badLabel name fault => "label `" ++ name ++ "`: " ++ fault.message

namespace Config

/-- What a value says that is asked for as one of a type. -/
def asked {α : Type} (expected : String) (content? : Toml.Value → Option α)
    (value : Toml.Value) : Except ConfigFault α :=
  match content? value with
  | some content => .ok content
  | none => .error (.mistyped value.noun expected)

/-- The bank count that a value says. -/
def bankCount (value : Toml.Value) : Except ConfigFault Nat := do
  let count ← asked "usize" Toml.Value.integer? value
  if 0 ≤ count then return count.toNat else .error (.negativeBanks count)

/-- The format of a name. -/
def formatNamed (name : String) : Except ConfigFault OutputFormat :=
  match OutputFormat.ofName? name with
  | some format => .ok format
  | none => .error (.unknownFormat name)

/-- The format that a value says: its name as a string, or as the only key of a table
in which it stands for nothing. -/
def formatOf : Toml.Value → Except ConfigFault OutputFormat
  | .string name => formatNamed name
  | .table _ [(name, content)] => do
    let format ← formatNamed name
    if content.isEmpty then return format else .error .unnamedFormat
  | _ => .error .unnamedFormat

/-- The fill byte that a value says. -/
def fillByte (value : Toml.Value) : Except ConfigFault UInt8 := do
  (ByteValue.read (← asked "a string" Toml.Value.string? value)).mapError .badFill

/-- The names and texts of labels that a value says: it counts as a table of strings. -/
def labelTexts (value : Toml.Value) : Except ConfigFault (List (String × String)) := do
  (← asked "a map" Toml.Value.entries? value).mapM fun entry =>
    (asked "a string" Toml.Value.string? entry.2).map fun text => (entry.1, text)

/-- The label that a name and a text say. -/
def label (entry : String × String) : Except ConfigFault (String × UInt8) :=
  match ByteValue.read entry.2 with
  | .ok value => .ok (entry.1, value)
  | .error fault => .error (.badLabel entry.1 fault)

/-- The configuration with what one more key says. -/
def addEntry (config : Config) (entry : String × Toml.Value) : Except ConfigFault Config :=
  match entry.1 with
  | "banks" => (bankCount entry.2).map fun count => { config with banks := count }
  | "format" => (formatOf entry.2).map fun format => { config with format := format }
  | "fill" => (fillByte entry.2).map fun byte => { config with fill := byte }
  | "labels" => do
    let labels ← (← labelTexts entry.2).mapM label
    return { config with labels := .ofList labels }
  | _ => .ok config

/-- The configuration that a text says. -/
def ofText (text : String) : Except ConfigFault Config :=
  match Toml.entriesOf text with
  | .error fault => .error (.malformed fault)
  | .ok entries => entries.foldlM addEntry .empty

end Config

end BankAsm
