import BankAsm.Token

/-!
# Spellings

How a token stands in a source. Its text says it all, but for what ends statements:
a terminator is a comma, a newline or the end of the source, and the end of the
source has no characters.
-/

namespace BankAsm.Token

/-- A character of a string as it stands between the quotation marks. -/
def escape : Char → List Char
  | '\n' => ['\\', 'n']
  | '\\' => ['\\', '\\']
  | '"' => ['\\', '"']
  | c => [c]

/-- All other characters stand for themselves. -/
theorem escape_eq_self {c : Char} (newline : c ≠ '\n') (backslash : c ≠ '\\') (quote : c ≠ '"') :
    escape c = [c] := by
  unfold escape
  split
  · exact absurd rfl newline
  · exact absurd rfl backslash
  · exact absurd rfl quote
  · rfl

/-- The characters of a token that does not end a statement. -/
def spelling (t : Token) : List Char :=
  match t.kind with
  | .character => '\'' :: t.text.toList ++ ['\'']
  | .string => '"' :: t.text.toList.flatMap escape ++ ['"']
  | .assignment => t.text.toList ++ [':']
  | _ => t.text.toList

/-- Whether a token ends a statement or the source. -/
def isEnding (t : Token) : Bool := t.kind == .terminator || t.kind == .eof

/-- The characters of a token, given those behind it. Only at the end of the source
does a statement end without a character. -/
inductive Written (t : Token) (behind : List Char) : List Char → Prop where
  | spelling (plain : t.isEnding = false) : Written t behind t.spelling
  | comma (kind : t.kind = .terminator) : Written t behind [',']
  | newline (kind : t.kind = .terminator) : Written t behind ['\n']
  | sourceEnd (ending : t.isEnding) (last : behind = []) : Written t behind []

end BankAsm.Token
