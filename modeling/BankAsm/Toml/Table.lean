import BankAsm.Toml.Fault
import BankAsm.Toml.Key
import BankAsm.Toml.Value

/-!
# Growth of tables

What the lines of a document add to its tables. A key of several parts leads through
tables, and tables that are missing on the way are made. A header leads through every
table but one between braces; a dotted key leads only through tables that a header
or a dotted key implied, and ends in one that a dotted key made. Both lead through
the last table under a header in double brackets.
-/

namespace BankAsm.Toml

/-- What leads along a path: a header, or a dotted key under a header or between
braces. -/
inductive Guide where
  | header
  | dotted
  | braced
deriving DecidableEq

namespace Guide

/-- The origin of the tables that are made on the way. -/
def made : Guide → Origin
  | .header => .implied
  | .dotted | .braced => .dotted

/-- Whether the way leads through a table. -/
def passes : Guide → Origin → Bool
  | .header, origin => origin ≠ .braces
  | .dotted, origin | .braced, origin => origin = .implied ∨ origin = .dotted

/-- The clash with a value that the way does not lead through, which a path ends at.
A table is closed to the keys that it is not for; to keys from outside, one between
braces is no table at all. -/
def clash (guide : Guide) (path : List String) (key : String) (value : Value) : Clash :=
  match guide, value with
  | .braced, .table _ _ | .dotted, .table .header _ => .taken key none
  | _, value => .noTable path value.kind

end Guide

namespace Entries

/-- The entries with a change made in the table that a path leads to, behind the part
of the path that is passed. `origin` is that of the table whose entries they are, and
the change knows that of the table it is made in. -/
def changeAt (guide : Guide) (change : Origin → Entries → Except Clash Entries) :
    (passed path : List String) → Origin → Entries → Except Clash Entries
  | _, [], origin, entries => change origin entries
  | passed, key :: path, _, entries =>
    let reached := passed ++ [key]
    match entries.lookup key with
    | none =>
      (changeAt guide change reached path guide.made []).map fun inner =>
        entries.append key (.table guide.made inner)
    | some (.table origin inner) =>
      if guide.passes origin then
        (changeAt guide change reached path origin inner).map fun inner =>
          entries.replace key (.table origin inner)
      else .error (guide.clash reached key (.table origin inner))
    | some (.tables elements) =>
      (changeAt guide change reached path .header (elements.getLast?.getD [])).map fun last =>
        entries.replace key (.tables (elements.dropLast ++ [last]))
    | some value => .error (guide.clash reached key value)

/-- The entries with a value under a new name. They stand under a header, or between
braces if there is none. -/
def add (header : Option (List String)) (name : String) (value : Value) (entries : Entries) :
    Except Clash Entries :=
  match entries.add? name value with
  | some entries => .ok entries
  | none => .error (.taken name header)

/-- The entries with a value under a key of one or more parts. They stand under a
header, or between braces if there is none. -/
def assign (header : Option (List String)) (key : Key) (value : Value) (entries : Entries) :
    Except Clash Entries :=
  match key.path with
  | [] => entries.add header key.name value
  | path =>
    let guide := if header.isSome then Guide.dotted else Guide.braced
    let change (origin : Origin) (inner : Entries) : Except Clash Entries :=
      if origin = .dotted then inner.add header key.name value else .error (.taken key.name none)
    changeAt guide change [] path .header entries

/-- The entries with the empty table of a header. A table that was only implied
becomes that of the header and moves behind the others. -/
def openTable (key : Key) (entries : Entries) : Except Clash Entries :=
  let change (_ : Origin) (inner : Entries) : Except Clash Entries :=
    match inner.lookup key.name with
    | none => .ok (inner.append key.name (.table .header []))
    | some (.table .implied within) =>
      .ok ((inner.erase key.name).append key.name (.table .header within))
    | some _ => .error (.taken (Key.partText key.name) key.path)
  changeAt .header change [] key.path .header entries

/-- The entries with one more empty table under a header in double brackets. -/
def openElement (key : Key) (entries : Entries) : Except Clash Entries :=
  let change (_ : Origin) (inner : Entries) : Except Clash Entries :=
    match inner.lookup key.name with
    | none => .ok (inner.append key.name (.tables [[]]))
    | some (.tables elements) => .ok (inner.replace key.name (.tables (elements ++ [[]])))
    | some _ => .error (.taken (Key.partText key.name) key.path)
  changeAt .header change [] key.path .header entries

/-- The entries with a value under a key in the table of a header. -/
def assignIn (header : List String) (key : Key) (value : Value) (entries : Entries) :
    Except Clash Entries :=
  changeAt .header (fun _ inner => inner.assign header key value) [] header .header entries

end Entries

end BankAsm.Toml
