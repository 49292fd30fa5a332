import BankAsm.Statement
import BankAsm.Statement.Block

/-!
# Reading of statements

`Statement.ofSource` reads a source into statements, each from its own block. A
statement is a mnemonic and operands with balanced brackets, behind a label if
there is one; a constant behind a label stands for an assignment of it.
-/

namespace BankAsm

namespace Operand

/-- Reads operands one token at a time. `done` holds the operands of the innermost
open group backwards, and `outer` those of the groups around it. -/
def read (ending : Except Diagnostic Token) (done : List Operand) (outer : List (List Operand)) :
    List Token → Except Diagnostic (List Operand)
  | [] =>
    match ending, outer with
    | .error diagnostic, _ => .error diagnostic
    | .ok t, _ :: _ => .error ⟨.unclosedGroup, t.position⟩
    | .ok _, [] => .ok done.reverse
  | t :: ts =>
    match t.kind with
    | .opener => read ending [] (done :: outer) ts
    | .closer =>
      match outer with
      | around :: others => read ending (.group done.reverse :: around) others ts
      | [] => .error ⟨.strayCloser, t.position⟩
    | _ => read ending (.token t :: done) outer ts

end Operand

namespace Statement

/-- The diagnostic at a token that stands in place of a mnemonic. -/
def missingMnemonic (t : Token) : Diagnostic := ⟨.missingMnemonic t.kind, t.position⟩

/-- Reads a statement behind its label. -/
def readBehind (label : Option Label) (ending : Except Diagnostic Token) :
    List Token → Except Diagnostic Statement
  | [] =>
    match ending with
    | .ok t => .error (missingMnemonic t)
    | .error diagnostic => .error diagnostic
  | t :: ts =>
    if label.isSome && t.kind.isConstant then
      (Operand.read ending [.token t] [] ts).map fun operands =>
        ⟨label, "ASSIGN", t.position, operands⟩
    else if t.kind = .mnemonic then
      (Operand.read ending [] [] ts).map fun operands => ⟨label, t.text, t.position, operands⟩
    else .error (missingMnemonic t)

/-- Reads the statement of a block. A block without tokens at the end of the
source holds none. -/
def ofBlock (block : Block) : Except Diagnostic (Option Statement) :=
  match block.tokens, block.ending with
  | [], .ok ⟨.eof, _, _⟩ => .ok none
  | ⟨.assignment, name, position⟩ :: ts, ending =>
    some <$> readBehind (some ⟨name, position⟩) ending ts
  | tokens, ending => some <$> readBehind none ending tokens

/-- The statements of a source. -/
def ofSource (source : String) : Feed Diagnostic Statement :=
  Feed.ofResults ofBlock (Block.ofTokens (Token.ofSource source))

end Statement

end BankAsm
