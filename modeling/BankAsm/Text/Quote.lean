import BankAsm.Text.Attached
import BankAsm.Text.Unprintable

/-!
# Quoted text

A text between quotation marks, as a message shows it. Quotation marks, backslashes
and all that a reader could not make out by itself is escaped, so that the text stays
on one line and its end is plain.
-/

namespace BankAsm.Text

/-- A character by its code point: lower-case hexadecimal digits between braces. -/
def codePoint (c : Char) : List Char :=
  '\\' :: 'u' :: '{' :: Nat.toDigits 16 c.toNat ++ ['}']

/-- A character as it stands between quotation marks. -/
def escape : Char → List Char
  | '"' => ['\\', '"']
  | '\\' => ['\\', '\\']
  | '\n' => ['\\', 'n']
  | '\r' => ['\\', 'r']
  | '\t' => ['\\', 't']
  | '\x00' => ['\\', '0']
  | c => if isUnprintable c || isAttached c then codePoint c else [c]

/-- A text between quotation marks. -/
def quoted (text : String) : String :=
  String.ofList ('"' :: text.toList.flatMap escape ++ ['"'])

example : quoted "a\tb" = "\"a\\tb\"" := by decide +kernel
example : quoted "\x7f" = "\"\\u\x7b7f\x7d\"" := by decide +kernel

end BankAsm.Text
