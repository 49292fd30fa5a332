import BankAsm.Toml.Fault
import BankAsm.Toml.Key

/-!
# Readers

A reader takes something from the front of a text, or refuses the text. The readers
here take single characters, given words, runs of a class, and what may stand
between the parts of a document: blanks, line ends and comments. Where one reader
refuses a text another may take it, but a fault that a reader finds is final.
-/

namespace BankAsm.Toml

/-- Takes something from the front of a text, or refuses the text, or finds a fault. -/
abbrev Reader := StateT (List Char) (OptionT (Except Fault))

namespace Reader

/-- Takes nothing and gives what there is, if it is not a fault. -/
def given {α : Type} (result : Except Fault α) : Reader α := liftM result

/-- What a reader gives for a text. A text that it refuses is malformed. -/
def result {α : Type} (reader : Reader α) (text : String) : Except Fault α :=
  match reader.run text.toList with
  | .ok (some (content, _)) => .ok content
  | .ok none => .error .malformed
  | .error fault => .error fault

/-- Takes what a reader takes. A text that the reader refuses is at fault, so that no
other reader takes it. -/
def settled {α : Type} (reader : Reader α) : Reader α := reader <|> given (.error .malformed)

/-- The next character, which is not taken. -/
def next : Reader (Option Char) := do return (← get).head?

/-- Takes one character of a class. -/
def one (isMember : Char → Bool) : Reader Char := do
  match ← get with
  | [] => failure
  | c :: cs =>
    if isMember c then
      set cs
      return c
    else failure

/-- Takes the characters of a class. -/
def many (isMember : Char → Bool) : Reader (List Char) := do
  let cs ← get
  set (cs.dropWhile isMember)
  return cs.takeWhile isMember

/-- Takes a word. -/
def word (expected : List Char) : Reader Unit := do
  let cs ← get
  if expected.isPrefixOf cs then set (cs.drop expected.length) else failure

/-- Takes a number of characters of a class. -/
def count (isMember : Char → Bool) : Nat → Reader (List Char)
  | 0 => pure []
  | more + 1 => do
    let c ← one isMember
    let cs ← count isMember more
    return c :: cs

/-- Takes the end of the text. -/
def atEnd : Reader Unit := do
  if !(← get).isEmpty then failure

/-- Takes items while the reader of an item takes any, at most as many as a text has
characters. -/
def repeated {α : Type} (item : Reader (Option α)) : List Char → Reader (List α)
  | [] => pure []
  | _ :: bound => do
    match ← item with
    | none => pure []
    | some a =>
      let rest ← repeated item bound
      return a :: rest

/-- Takes items while the reader of an item takes any. Every item takes a character
or more, so the text itself bounds their number. -/
def all {α : Type} (item : Reader (Option α)) : Reader (List α) := do repeated item (← get)

/-- Lets something grow while the reader of a step takes any, at most as many times as
a text has characters. -/
def grown {α : Type} (step : α → Reader (Option α)) : List Char → α → Reader α
  | [], a => pure a
  | _ :: bound, a => do
    match ← step a with
    | none => pure a
    | some larger => grown step bound larger

/-- Lets something grow while the reader of a step takes any, with the text itself as
the bound again. -/
def grow {α : Type} (step : α → Reader (Option α)) (start : α) : Reader α := do
  grown step (← get) start

/-- Whether a character is a blank within a line. -/
def isSpacing (c : Char) : Bool := c = ' ' || c = '\t'

/-- Takes spaces and tabs. -/
def blanks : Reader Unit := do
  let _ ← many isSpacing

/-- Takes the end of a line. -/
def lineEnd : Reader Unit := word ['\n'] <|> word ['\r', '\n']

/-- Takes a comment, if there is one. -/
def comment : Reader Unit := do
  if (← next) = some '#' then
    let _ ← many isPlain

/-- Takes what may stand behind a line. -/
def trailing : Reader Unit := do
  blanks
  comment
  lineEnd <|> atEnd

/-- Takes blanks, line ends and comments. -/
def gap : Reader Unit := do
  let _ ← all do
    blanks
    match ← next with
    | some '\n' | some '\r' => some <$> lineEnd
    | some '#' =>
      comment
      some <$> lineEnd
    | _ => pure none

end Reader

end BankAsm.Toml
