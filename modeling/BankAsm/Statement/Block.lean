import BankAsm.Token.Scan

/-!
# Blocks

The tokens of a source fall into blocks, one for a statement: the tokens up to a
terminator. The last block is what the end of the source, or the failure of the
scan, leaves over.
-/

namespace BankAsm

/-- The tokens of a statement and what stands behind them: the token that ends the
block, or the diagnostic that ended the scan. -/
structure Block where
  tokens : List Token
  ending : Except Diagnostic Token

namespace Block

/-- A block with one more token in front. -/
def push (t : Token) (block : Block) : Block := { block with tokens := t :: block.tokens }

/-- Cuts tokens into blocks, the first one apart from the others. Tokens that
nothing ends are ended by what stands behind them all. -/
def cut (ending : Except Diagnostic Token) : List Token → Block × List Block
  | [] => (⟨[], ending⟩, [])
  | t :: ts =>
    match t.kind with
    | .eof => (⟨[], .ok t⟩, [])
    | .terminator =>
      let (first, others) := cut ending ts
      (⟨[], .ok t⟩, first :: others)
    | _ =>
      let (first, others) := cut ending ts
      (first.push t, others)

/-- The blocks of a feed of tokens. -/
def ofTokens (tokens : Feed Diagnostic Token) : List Block :=
  let ending :=
    match tokens.failure with
    | some diagnostic => .error diagnostic
    | none => .ok (Token.eof .nowhere)
  let (first, others) := cut ending tokens.items
  first :: others

end Block

end BankAsm
