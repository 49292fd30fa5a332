/-!
# Kinds of tokens

The kinds are closed: every lexeme belongs to exactly one.
-/

namespace BankAsm

/-- What a token is. -/
inductive TokenKind where
  | mnemonic
  | index
  | status
  | pointer
  | digit
  | decimal
  | hexadecimal
  | character
  | string
  | reference
  | assignment
  | loop
  | skip
  | newline
  | opener
  | closer
  | terminator
  | eof
deriving DecidableEq

namespace TokenKind

/-- The name that diagnostics and signatures show. -/
def name : TokenKind → String
  | .mnemonic => "Mnemonic"
  | .index => "Index"
  | .status => "Status"
  | .pointer => "Pointer"
  | .digit => "Digit"
  | .decimal => "Decimal"
  | .hexadecimal => "Hexadecimal"
  | .character => "Character"
  | .string => "String"
  | .reference => "Reference"
  | .assignment => "Assignment"
  | .loop => "Loop"
  | .skip => "Skip"
  | .newline => "Newline"
  | .opener => "Opener"
  | .closer => "Closer"
  | .terminator => "Terminator"
  | .eof => "EOF"

/-- Whether the token counts steps to a neighbouring statement. -/
def isVector : TokenKind → Bool
  | .loop | .skip => true
  | _ => false

/-- Whether the token denotes a byte by itself. -/
def isConstant : TokenKind → Bool
  | .digit | .decimal | .hexadecimal | .character => true
  | _ => false

/-- The kinds that a register parameter stands for. -/
def registers : List TokenKind := [.index, .status, .pointer]

/-- The kinds that a number parameter stands for. -/
def numbers : List TokenKind :=
  [.digit, .decimal, .hexadecimal, .character, .reference, .loop, .skip]

/-- The kinds that a parameter of a written pattern may name. -/
def operands : List TokenKind :=
  [.index, .status, .pointer, .digit, .decimal, .hexadecimal, .character, .string, .reference,
   .loop, .skip, .newline]

end TokenKind

end BankAsm
