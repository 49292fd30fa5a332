import BankAsm.Text.Numeral
import BankAsm.Toml.Reader

/-!
# Quoted texts

Basic texts stand between double quotes and have escapes; literal texts stand between
single quotes and have none. Between three quotes a text may run over several lines
and hold up to two quotes in a row.
-/

namespace BankAsm.Toml.Quoted

open Reader

/-- Takes a character written as so many hexadecimal digits. Surrogates are no
characters. -/
def scalar (digits : Nat) : Reader Char := do
  let code := Text.Numeral.value 16 (← count (Text.Numeral.isDigit 16) digits)
  if code.isValidChar then return Char.ofNat code else failure

/-- Takes an escape and gives the character it stands for. -/
def escape : Reader Char := do
  let _ ← one (· = '\\')
  match ← one fun _ => true with
  | 'b' => return '\x08'
  | 't' => return '\t'
  | 'n' => return '\n'
  | 'f' => return '\x0C'
  | 'r' => return '\r'
  | '"' => return '"'
  | '\\' => return '\\'
  | 'u' => scalar 4
  | 'U' => scalar 8
  | _ => failure

/-- Takes a basic text on one line. -/
def basic : Reader String := do
  word ['"']
  let content ← all do
    match ← next with
    | some '"' => return none
    | some '\\' => some <$> escape
    | _ => some <$> one isPlain
  word ['"']
  return String.ofList content

/-- Takes a literal text on one line. -/
def literal : Reader String := do
  word ['\'']
  let content ← many fun c => isPlain c && c ≠ '\''
  word ['\'']
  return String.ofList content

/-- Takes a backslash at the end of a line, with the blanks and line ends behind it. -/
def continuation : Reader (List Char) := do
  word ['\\']
  blanks
  lineEnd
  let _ ← all do
    blanks
    match ← next with
    | some '\n' | some '\r' => some <$> lineEnd
    | _ => pure none
  return []

/-- Takes a piece of a text between three quotes, up to the three quotes. -/
def piece (quote : Char) (inner : Reader (List Char)) : Reader (Option (List Char)) := do
  match ← get with
  | [] => failure
  | c :: cs =>
    if c = quote then
      if 3 ≤ ((c :: cs).takeWhile (· = quote)).length then return none
      else some <$> many (· = quote)
    else if c = '\n' || c = '\r' then
      lineEnd
      return some ['\n']
    else some <$> inner

/-- Takes three quotes, and up to two more that belong to the text. -/
def close (quote : Char) : Reader (List Char) := do
  word [quote, quote, quote]
  let extra := ((← get).takeWhile (· = quote)).take 2
  word extra
  return extra

/-- Takes a text between three quotes. A line end right behind the opening quotes is
not part of it. -/
def lines (quote : Char) (inner : Reader (List Char)) : Reader String := do
  word [quote, quote, quote]
  let _ ← optional lineEnd
  let pieces ← all (piece quote inner)
  let last ← close quote
  return String.ofList (pieces.flatten ++ last)

/-- Takes a quoted text of any kind. -/
def text : Reader String := do
  match ← get with
  | '"' :: '"' :: '"' :: _ =>
    lines '"' (continuation <|> List.singleton <$> (escape <|> one fun c => isPlain c && c ≠ '\\'))
  | '"' :: _ => basic
  | '\'' :: '\'' :: '\'' :: _ => lines '\'' (List.singleton <$> one isPlain)
  | _ => literal

end BankAsm.Toml.Quoted
