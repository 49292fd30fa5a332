import BankAsm.Diagnostic
import BankAsm.Statement

/-!
# The grammar of statements

A clause is what a source has of a statement: its tokens and the token that ends them.
`Clause.Conforms` says which clauses spell a statement, `Statement.Spelled` by which
tokens a statement is spelled, and `Clause.Refused` what is reported of a clause that
spells none.
-/

namespace BankAsm

namespace Token

/-- Whether the token opens or closes a group. -/
def isBracket (t : Token) : Bool := t.kind == .opener || t.kind == .closer

/-- Tokens among which every bracket has its counterpart. -/
inductive Balanced : List Token → Prop where
  | nil : Balanced []
  | token {t rest}
      (plain : t.isBracket = false)
      (further : Balanced rest) :
      Balanced (t :: rest)
  | group {opener inner closer rest}
      (opens : opener.kind = .opener)
      (inside : Balanced inner)
      (closes : closer.kind = .closer)
      (further : Balanced rest) :
      Balanced (opener :: inner ++ closer :: rest)

/-- The first closing bracket among tokens without an opening one. -/
inductive Stray (closer : Token) : List Token → Prop where
  | mk {front back}
      (balanced : Balanced front)
      (closes : closer.kind = .closer) :
      Stray closer (front ++ closer :: back)

end Token

/-- The token that a label was read from. -/
def Label.token (label : Label) : Token := ⟨.assignment, label.name, label.position⟩

/-- The tokens that operands are spelled by. The positions of brackets are free. -/
inductive Operand.Spelled : List Operand → List Token → Prop where
  | nil : Spelled [] []
  | token {t operands tokens}
      (plain : t.isBracket = false)
      (further : Spelled operands tokens) :
      Spelled (.token t :: operands) (t :: tokens)
  | group {inner tokens operands rest}
      (opener closer : Position)
      (inside : Spelled inner tokens)
      (further : Spelled operands rest) :
      Spelled (.group inner :: operands)
        (⟨.opener, "[", opener⟩ :: tokens ++ ⟨.closer, "]", closer⟩ :: rest)

/-- The tokens that a statement is spelled by: its label, if it has one, its mnemonic
and its operands; or, for an assignment of a constant, the label and the operands. -/
inductive Statement.Spelled (s : Statement) : List Token → Prop where
  | operation {tokens}
      (operands : Operand.Spelled s.operands tokens) :
      Spelled s ((s.label.map Label.token).toList ++ ⟨.mnemonic, s.mnemonic, s.position⟩ :: tokens)
  | assignment {label value tokens}
      (labelled : s.label = some label)
      (mnemonic : s.mnemonic = "ASSIGN")
      (constant : value.kind.isConstant)
      (position : s.position = value.position)
      (operands : Operand.Spelled s.operands (value :: tokens)) :
      Spelled s (label.token :: value :: tokens)

/-- The tokens of a statement in a source, and the one that ends them. -/
structure Clause where
  tokens : List Token
  terminator : Token

namespace Clause

/-- All tokens of a clause. -/
def all (clause : Clause) : List Token := clause.tokens ++ [clause.terminator]

/-- A clause as sources have it: some tokens that end nothing, and then a terminator. -/
structure Whole (clause : Clause) : Prop where
  filled : clause.tokens ≠ []
  plain : ∀ t ∈ clause.tokens, t.kind ≠ .terminator ∧ t.kind ≠ .eof
  terminator : clause.terminator.kind = .terminator

/-- Whether a token opens a statement behind its label, if it has one: a mnemonic, or a
constant that the label is assigned. -/
def Opens (label : Option Token) (t : Token) : Prop :=
  t.kind = .mnemonic ∨ label.isSome ∧ t.kind.isConstant

/-- What stands in a clause behind its label, if it has one. -/
inductive Labelled (tokens : List Token) : Option Token → List Token → Prop where
  | none (plain : ∀ t ∈ tokens.head?, t.kind ≠ .assignment) : Labelled tokens none tokens
  | some {label rest}
      (whole : tokens = label :: rest)
      (kind : label.kind = .assignment) :
      Labelled tokens (some label) rest

/-- A clause that spells a statement: behind the label a token that opens it, and then
arguments with balanced brackets. -/
def Conforms (clause : Clause) : Prop :=
  ∃ label opening arguments, Labelled clause.tokens label (opening :: arguments) ∧
    Opens label opening ∧ Token.Balanced arguments

/-- What is reported of a clause that spells no statement: what stands in place of the
mnemonic; else the first closing bracket without an opening one; else the end, in front
of which an opening bracket is left. -/
inductive Refused (clause : Clause) : Diagnostic → Prop where
  | mnemonic {label rest found back}
      (labelled : Labelled clause.tokens label rest)
      (here : rest ++ [clause.terminator] = found :: back)
      (other : ¬ Opens label found) :
      Refused clause ⟨.missingMnemonic found.kind, found.position⟩
  | closer {label opening arguments closer}
      (labelled : Labelled clause.tokens label (opening :: arguments))
      (opens : Opens label opening)
      (stray : Token.Stray closer arguments) :
      Refused clause ⟨.strayCloser, closer.position⟩
  | group {label opening arguments}
      (labelled : Labelled clause.tokens label (opening :: arguments))
      (opens : Opens label opening)
      (unbalanced : ¬ Token.Balanced arguments)
      (matched : ∀ closer, ¬ Token.Stray closer arguments) :
      Refused clause ⟨.unclosedGroup, clause.terminator.position⟩

end Clause

end BankAsm
