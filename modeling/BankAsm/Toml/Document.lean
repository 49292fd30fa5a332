import BankAsm.Toml.Moment.Read
import BankAsm.Toml.Number
import BankAsm.Toml.Quoted
import BankAsm.Toml.Table

/-!
# Configuration documents

A document is a list of lines: headers, entries, and lines that say nothing. Each
line grows the tables of the document when it is read, so that the first fault from
the top is that of the document. Arrays and tables between braces lie less than eighty
deep in each other, and a key has less than eighty parts.
-/

namespace BankAsm.Toml

open Reader

/-- How deep arrays and tables may lie in each other, and how many parts a key may have. -/
def maxDepth : Nat := 79

namespace Key

/-- Takes one part of a key, which has quotes or is not empty. -/
def part : Reader String := do
  match ← next with
  | some '"' => settled Quoted.basic
  | some '\'' => settled Quoted.literal
  | _ => do
    let first ← one isBare
    return String.ofList (first :: (← many isBare))

/-- Takes one part of a key, with the blanks around it. -/
def spacedPart : Reader String := do
  blanks
  let text ← part
  blanks
  return text

/-- Takes a key. A text that starts with no part is refused, and so is a key of too
many parts. -/
def read : Reader Key := do
  let first ← spacedPart
  let more ← all (optional (do word ['.']; spacedPart))
  if more.length < maxDepth then return ofParts first more else failure

end Key

namespace Value

/-- Takes what a reader takes and gives its spelling. -/
def spelling (reader : Reader Unit) : Reader String := do
  let before ← get
  reader
  return String.ofList (before.take (before.length - (← get).length))

/-- Takes a value that holds no others. -/
def readAtom : Reader Value := do
  match ← next with
  | some '"' | some '\'' => .string <$> Quoted.text
  | _ =>
    (do word ['t', 'r', 'u', 'e']; return .boolean true)
      <|> (do word ['f', 'a', 'l', 's', 'e']; return .boolean false)
      <|> .moment <$> Moment.read
      <|> .float <$> spelling Number.float
      <|> .integer <$> Number.integer

/-- Takes an array with a reader of its items. A comma may stand behind the last. -/
def readArray (item : Reader Value) : Reader Value := do
  word ['[']
  let items ← all do
    gap
    if (← next) = some ']' then return none
    let value ← item
    gap
    if (← next) ≠ some ']' then word [',']
    return some value
  word [']']
  return .array items

/-- Takes an equals sign and a value behind a key, with the blanks between them. -/
def readBehind (value : Reader Value) (key : Key) : Reader (Key × Value) := do
  word ['=']
  blanks
  return (key, ← value)

/-- The table between braces that has entries. -/
def ofEntries (entries : List (Key × Value)) : Except Clash Value := do
  let grown ← entries.foldlM (fun grown entry => Entries.assign none entry.1 entry.2 grown) []
  return .table .braces grown

/-- Takes entries with commas between them, with a reader of their values. It stops in
front of a comma that no key stands behind. -/
def readEntries (value : Reader Value) : Reader (List (Key × Value)) := do
  let entry (key : Key) : Reader (Key × Value) := do
    let pair ← readBehind value key
    blanks
    return pair
  match ← optional Key.read with
  | none => return []
  | some key =>
    let first ← entry key
    let more ← all do
      match ← optional (do word [',']; Key.read) with
      | none => return none
      | some key => some <$> entry key
    return first :: more

/-- Takes a table between braces with a reader of its values. A clash of its keys is
found before the closing brace is read. -/
def readBraces (value : Reader Value) : Reader Value := do
  word ['{']
  let entries ← readEntries value
  let table ← given ((ofEntries entries).mapError .entry)
  blanks
  word ['}']
  return table

/-- Takes a value in which arrays and tables lie at most so deep in each other. -/
def read : Nat → Reader Value
  | 0 => readAtom
  | depth + 1 => do
    match ← next with
    | some '[' => readArray (read depth)
    | some '{' => readBraces (read depth)
    | _ => readAtom

end Value

/-- A line that says something. -/
inductive Line where
  | table (key : Key)
  | element (key : Key)
  | entry (key : Key) (value : Value)

namespace Line

/-- Takes a line and gives what it says, or tells that the document ends. -/
def read : Reader (Option (List Line)) := do
  blanks
  match ← get with
  | [] => return none
  | '[' :: '[' :: _ =>
    word ['[', '[']
    let key ← Key.read
    word [']', ']']
    trailing
    return some [.element key]
  | '[' :: _ =>
    word ['[']
    let key ← Key.read
    word [']']
    trailing
    return some [.table key]
  | c :: _ =>
    if c = '#' || c = '\n' || c = '\r' then
      trailing
      return some []
    else
      let (key, value) ← Value.readBehind (Value.read maxDepth) (← Key.read)
      trailing
      return some [.entry key value]

end Line

/-- The entries of a document that grows, and the path of the header it is under. -/
structure Growth where
  opened : List String
  entries : Entries

namespace Growth

/-- The document with one more line. -/
def add (growth : Growth) : Line → Except Fault Growth
  | .table key =>
    ((growth.entries.openTable key).map fun entries => ⟨key.parts, entries⟩).mapError .header
  | .element key =>
    ((growth.entries.openElement key).map fun entries => ⟨key.parts, entries⟩).mapError .header
  | .entry key value =>
    ((growth.entries.assignIn growth.opened key value).map fun entries =>
      ⟨growth.opened, entries⟩).mapError .entry

/-- Takes a line and gives the document with it, or tells that the document ends. -/
def read (growth : Growth) : Reader (Option Growth) := do
  match ← Line.read with
  | none => return none
  | some lines => given ((lines.foldlM add growth).map some)

end Growth

/-- Takes a document. A mark of the byte order may stand in front. -/
def readDocument : Reader Entries := do
  let _ ← optional (word ['\uFEFF'])
  return (← grow Growth.read ⟨[], []⟩).entries

/-- The entries of the document that a text writes, or why it writes none. -/
def entriesOf (text : String) : Except Fault Entries := readDocument.result text

end BankAsm.Toml
