import BankAsm.Text.Quote
import BankAsm.Toml.Moment

/-!
# Values of configuration documents

The values of the TOML format. A table knows how it came to be, since that decides
what a document may still add to it. Keys stand in the order in which a document
first names them. Numbers with a fraction keep their spelling.
-/

namespace BankAsm.Toml

/-- How a table came to be: under a header of its own, on the way to the table of a
longer header, on the way along a dotted key, or between braces. -/
inductive Origin where
  | header
  | implied
  | dotted
  | braces
deriving DecidableEq

/-- A value of a document. -/
inductive Value where
  | string (text : String)
  | integer (value : Int)
  | float (spelling : String)
  | boolean (value : Bool)
  | moment (point : Moment)
  | array (items : List Value)
  | table (origin : Origin) (entries : List (String × Value))
  /-- The tables under a header in double brackets. -/
  | tables (elements : List (List (String × Value)))

/-- The keys of a table with their values. -/
abbrev Entries := List (String × Value)

namespace Entries

/-- The entries with another value under a key that they have. -/
def replace (entries : Entries) (key : String) (value : Value) : Entries :=
  entries.map fun entry => if entry.1 = key then (key, value) else entry

/-- The entries without a key. -/
def erase (entries : Entries) (key : String) : Entries :=
  entries.filter fun entry => entry.1 ≠ key

/-- The entries with a key behind all others. -/
def append (entries : Entries) (key : String) (value : Value) : Entries := entries ++ [(key, value)]

/-- The entries with one more, if its key is new. -/
def add? (entries : Entries) (key : String) (value : Value) : Option Entries :=
  match entries.lookup key with
  | none => some (entries.append key value)
  | some _ => none

end Entries

namespace Value

/-- Whether the value is a table or an array with nothing in it. -/
def isEmpty : Value → Bool
  | .table _ entries => entries.isEmpty
  | .array items => items.isEmpty
  | .tables elements => elements.isEmpty
  | _ => false

/-- The key that stands for a point in time where a table is asked for. -/
def momentKey : String := "$__toml_private_datetime"

/-- The entries of a value that is asked for as a table. A point in time counts as a
table too: its text is the only entry, under a key of its own. -/
def entries? : Value → Option Entries
  | .table _ entries => some entries
  | .moment point => some [(momentKey, .string point.text)]
  | _ => none

/-- The text of a string. -/
def string? : Value → Option String
  | .string text => some text
  | _ => none

/-- The number of an integer. -/
def integer? : Value → Option Int
  | .integer value => some value
  | _ => none

/-- The kind of the value, as a message names it. -/
def kind : Value → String
  | .string _ => "string"
  | .integer _ => "integer"
  | .float _ => "float"
  | .boolean _ => "boolean"
  | .moment _ => "datetime"
  | .array _ => "array"
  | .table .braces _ => "inline table"
  | .table _ _ => "table"
  | .tables _ => "array of tables"

/-- What a message calls the value where another type is expected. -/
def noun : Value → String
  | .string text => "string " ++ Text.quoted text
  | .integer value => "integer `" ++ toString value ++ "`"
  | .float spelling => "floating point `" ++ spelling ++ "`"
  | .boolean value => "boolean `" ++ toString value ++ "`"
  | .array _ | .tables _ => "sequence"
  | .table _ _ | .moment _ => "map"

end Value

end BankAsm.Toml
