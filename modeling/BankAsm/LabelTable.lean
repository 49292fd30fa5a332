/-!
# Label tables

Names with their bytes, in the order in which the names were first inserted. A
name that is inserted again keeps its place and takes the new byte.
-/

namespace BankAsm

/-- Names with bytes, in order. -/
structure LabelTable where
  entries : List (String × UInt8)
deriving DecidableEq

namespace LabelTable

/-- The table without names. -/
def empty : LabelTable := ⟨[]⟩

/-- The byte of a name. -/
def find? (table : LabelTable) (name : String) : Option UInt8 := table.entries.lookup name

/-- Whether a name has a byte. -/
def contains (table : LabelTable) (name : String) : Bool := (table.find? name).isSome

/-- The names in order. -/
def names (table : LabelTable) : List String := table.entries.map (·.1)

/-- How many names have a byte. -/
def size (table : LabelTable) : Nat := table.entries.length

/-- Entries with one more: in place of the entry of the same name, or behind them all. -/
def insertEntry (name : String) (value : UInt8) : List (String × UInt8) → List (String × UInt8)
  | [] => [(name, value)]
  | entry :: entries =>
    if entry.1 = name then (name, value) :: entries
    else entry :: insertEntry name value entries

/-- The table in which a name has a byte. -/
def insert (table : LabelTable) (name : String) (value : UInt8) : LabelTable :=
  ⟨insertEntry name value table.entries⟩

/-- The table with further entries, inserted in order. -/
def insertAll (table : LabelTable) (entries : List (String × UInt8)) : LabelTable :=
  entries.foldl (fun table entry => table.insert entry.1 entry.2) table

/-- The table of entries, inserted in order. -/
def ofList (entries : List (String × UInt8)) : LabelTable := empty.insertAll entries

/-- What is looked up among entries behind an insertion. -/
theorem lookup_insertEntry (name other : String) (value : UInt8)
    (entries : List (String × UInt8)) :
    (insertEntry name value entries).lookup other
      = if other = name then some value else entries.lookup other := by
  induction entries with
  | nil =>
    by_cases equal : other = name
    · simp [insertEntry, equal]
    · have differ : (other == name) = false := by simpa using equal
      simp [insertEntry, List.lookup_cons, equal, differ]
  | cons entry entries inductionHypothesis =>
    obtain ⟨key, byte⟩ := entry
    by_cases same : key = name
    · subst same
      by_cases equal : other = key
      · simp [insertEntry, equal]
      · have differ : (other == key) = false := by simpa using equal
        simp [insertEntry, List.lookup_cons, equal, differ]
    · by_cases equal : other = key
      · simp [insertEntry, equal, same]
      · have differ : (other == key) = false := by simpa using equal
        simp [insertEntry, List.lookup_cons, same, differ, inductionHypothesis]

/-- What is looked up behind an insertion: the new byte under its name, and
everything else as before. -/
theorem find?_insert (table : LabelTable) (name other : String) (value : UInt8) :
    (table.insert name value).find? other
      = if other = name then some value else table.find? other :=
  lookup_insertEntry name other value table.entries

/-- A name without a byte is inserted behind all others. -/
theorem insertEntry_of_lookup_eq_none {name : String} {value : UInt8}
    {entries : List (String × UInt8)} (absent : entries.lookup name = none) :
    insertEntry name value entries = entries ++ [(name, value)] := by
  induction entries with
  | nil => rfl
  | cons entry entries inductionHypothesis =>
    obtain ⟨key, byte⟩ := entry
    by_cases same : key = name
    · subst same
      simp at absent
    · have differ : (name == key) = false := by simpa using fun equal => same equal.symm
      simp only [List.lookup_cons, differ] at absent
      simp [insertEntry, same, inductionHypothesis absent]

end LabelTable

end BankAsm
