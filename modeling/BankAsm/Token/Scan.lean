import BankAsm.Feed
import BankAsm.Token.Lexeme

/-!
# Scanning

`Token.ofSource` reads a source into tokens. Commas and newlines end statements:
behind a lexeme either gives a terminator, further newlines give nothing, and a
comma without a statement, or a newline behind a comma, leaves a statement empty.
The end of the source acts as one more newline.
-/

namespace BankAsm

/-- What stands at the front of a source. -/
inductive Piece where
  /-- A character without meaning, and how many more belong to it. -/
  | gap (more : Nat)
  /-- A comma or a newline. -/
  | separator
  | lexeme (found : Lexeme)
  | misfit (fault : Misfit)
deriving DecidableEq

namespace Piece

/-- How many characters a comment goes on for: up to a newline, the end, or a
character that may not stand in a source. -/
def commentLength (cs : List Char) : Nat :=
  (cs.takeWhile fun c => isLegal c && c != '\n').length

/-- The piece that starts with a character and is followed by others. -/
def read (c : Char) (cs : List Char) : Piece :=
  if !isLegal c then .misfit (.illegal c [])
  else if c = ' ' then .gap 0
  else if c = '/' ∧ cs.head? = some '/' then .gap (commentLength cs)
  else if c = '\n' ∨ c = ',' then .separator
  else
    match Lexeme.read c cs with
    | .ok found => .lexeme found
    | .error fault => .misfit fault

end Piece

/-- What was last read of the current line of statements. -/
inductive Previous where
  | nothing
  | lexeme
  | comma
  | newline
deriving DecidableEq

/-- What a separator does. -/
inductive Closing where
  | terminator
  | nothing
  | empty
deriving DecidableEq

namespace Previous

/-- What a separator does behind what was read last. -/
def close (previous : Previous) (separator : Char) : Closing :=
  match previous with
  | .lexeme => .terminator
  | .nothing | .newline => if separator = '\n' then .nothing else .empty
  | .comma => .empty

/-- What was read last once a separator is read. -/
def ofSeparator (separator : Char) : Previous := if separator = ',' then .comma else .newline

end Previous

namespace Token

/-- The token that ends a statement. -/
def terminator (position : Position) : Token := ⟨.terminator, ";", position⟩

/-- The token that ends a source. -/
def eof (position : Position) : Token := ⟨.eof, ";", position⟩

/-- The tokens of the end of a source. -/
def finish (previous : Previous) (position : Position) : Feed Diagnostic Token :=
  match previous.close '\n' with
  | .terminator => ⟨[terminator position, eof position], none⟩
  | .nothing => ⟨[eof position], none⟩
  | .empty => .fail ⟨.emptyStatement, position⟩

/-- Scans a source from a position on, one character at a time: `more` characters
still belong to the piece that was read last. -/
def scan (more : Nat) (previous : Previous) (position : Position) :
    List Char → Feed Diagnostic Token
  | [] => finish previous position
  | c :: cs =>
    match more with
    | more + 1 => scan more previous (position.step c) cs
    | 0 =>
      match Piece.read c cs with
      | .gap more => scan more previous (position.step c) cs
      | .separator =>
        match previous.close c with
        | .terminator =>
          .cons (terminator position) (scan 0 (.ofSeparator c) (position.step c) cs)
        | .nothing => scan 0 (.ofSeparator c) (position.step c) cs
        | .empty => .fail ⟨.emptyStatement, position⟩
      | .lexeme found =>
        .cons ⟨found.kind, String.ofList found.text, position⟩
          (scan (found.spelling.length - 1) .lexeme (position.step c) cs)
      | .misfit fault => .fail ⟨fault.cause, position.after fault.before⟩

section Steps

variable (previous : Previous) (position : Position) (c : Char) (cs : List Char)

/-- One step of a scan inside a piece. -/
theorem scan_cons_succ (more : Nat) :
    scan (more + 1) previous position (c :: cs) = scan more previous (position.step c) cs := rfl

/-- One step of a scan in front of a piece. -/
theorem scan_cons_zero :
    scan 0 previous position (c :: cs) =
      match Piece.read c cs with
      | .gap more => scan more previous (position.step c) cs
      | .separator =>
        match previous.close c with
        | .terminator =>
          .cons (terminator position) (scan 0 (.ofSeparator c) (position.step c) cs)
        | .nothing => scan 0 (.ofSeparator c) (position.step c) cs
        | .empty => .fail ⟨.emptyStatement, position⟩
      | .lexeme found =>
        .cons ⟨found.kind, String.ofList found.text, position⟩
          (scan (found.spelling.length - 1) .lexeme (position.step c) cs)
      | .misfit fault => .fail ⟨fault.cause, position.after fault.before⟩ := rfl

end Steps

/-- The tokens of a source. -/
def ofSource (source : String) : Feed Diagnostic Token :=
  scan 0 .nothing .start source.toList

end Token

end BankAsm
