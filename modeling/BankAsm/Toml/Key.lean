import BankAsm.Text.Numeral

/-!
# Keys

A key has one part or more. All but the last lead to a table, and the last is the
name in it. `Key.partText` is the text that a part is shown by, however a document
spells it: it depends on which characters stand for themselves with quotes (`isPlain`)
and without them (`isBare`).
-/

namespace BankAsm.Toml

/-- Whether a character may stand in comments and quoted texts: the tab, and every
character but the other controls. -/
def isPlain (c : Char) : Bool := c = '\t' || 0x20 ≤ c.toNat && c.toNat ≠ 0x7F

/-- Whether a character may stand in a key without quotes. -/
def isBare (c : Char) : Bool := c.isAlphanum || c = '-' || c = '_'

/-- A key of a document: the parts that lead to a table, and the name in it. -/
structure Key where
  path : List String
  name : String
deriving DecidableEq

namespace Key

/-- All parts of the key. -/
def parts (key : Key) : List String := key.path ++ [key.name]

/-- The key of its parts, which are a first one and those behind it. -/
def ofParts (first : String) : List String → Key
  | [] => ⟨[], first⟩
  | second :: more =>
    let rest := ofParts second more
    ⟨first :: rest.path, rest.name⟩

/-- A character as it stands between double quotes. -/
def escape (c : Char) : List Char :=
  match c with
  | '\x08' => ['\\', 'b']
  | '\t' => ['\\', 't']
  | '\n' => ['\\', 'n']
  | '\x0C' => ['\\', 'f']
  | '\r' => ['\\', 'r']
  | '"' => ['\\', '"']
  | '\\' => ['\\', '\\']
  | _ => if isPlain c then [c] else '\\' :: 'u' :: (Text.hexDigits c.toNat).leftpad 4 '0'

/-- The text of a part. It has no quotes if it needs none, single quotes if these save
it escapes, and double quotes otherwise. -/
def partText (part : String) : String :=
  let cs := part.toList
  let isLiteral := cs.any (fun c => c = '"' || c = '\\') && cs.all fun c => isPlain c && c ≠ '\''
  if !cs.isEmpty && cs.all isBare then part
  else if isLiteral then String.ofList ('\'' :: cs ++ ['\''])
  else String.ofList ('"' :: cs.flatMap escape ++ ['"'])

example : partText "a-1" = "a-1" := by decide
example : partText "" = "\"\"" := by decide
example : partText "say \"a\"" = "'say \"a\"'" := by decide
example : partText "it's\x01" = "\"it's\\u0001\"" := by decide

end Key

end BankAsm.Toml
