import BankAsm.Proofs.Rewording.Basic
import BankAsm.Proofs.Statement.Brackets
import BankAsm.Proofs.Statement.Clauses

/-!
# Reading in other words

Reading looks at the kinds of tokens alone, so tokens in other words are read to their
statements in other words (`ofBlock_block`). A source has its end among its tokens unless it
is broken off, and then its blocks in other words are those of its tokens in other words
(`ofResults_tokens`).
-/

namespace BankAsm.Rewording

variable (w : Rewording)

/-- What ends a block, in other words. -/
def ending : Except Diagnostic Token → Except Diagnostic Token :=
  Outcome.change w.diagnostic w.token

/-- The block in other words. -/
def block (b : Block) : Block := ⟨b.tokens.map w.token, w.ending b.ending⟩

/-- The tokens of a source, in other words. -/
def tokens : Feed Diagnostic Token → Feed Diagnostic Token := Feed.change w.diagnostic w.token

section Operands

/-- Operands in other words are read to the operands in other words. -/
theorem read_tokens (ending : Except Diagnostic Token) (done : List Operand)
    (outer : List (List Operand)) (ts : List Token) :
    Operand.read (w.ending ending) (done.map w.operand) (outer.map (List.map w.operand))
        (ts.map w.token) =
      Outcome.change w.diagnostic (List.map w.operand) (Operand.read ending done outer ts) := by
  induction ts generalizing done outer with
  | nil =>
    cases ending with
    | error d => rfl
    | ok t =>
      cases outer with
      | nil => simp [Operand.read, Rewording.ending]
      | cons around others => rfl
  | cons t ts inductionHypothesis =>
    rw [List.map_cons]
    by_cases opens : t.kind = .opener
    · rw [Operand.read_opener _ _ _ _ opens, ← inductionHypothesis]
      exact Operand.read_opener (w.ending ending) _ _ _ (by rw [kind_token, opens])
    · by_cases closes : t.kind = .closer
      · cases outer with
        | nil =>
          rw [Operand.read.eq_def, Operand.read.eq_def]
          simp only [kind_token, closes]
          rfl
        | cons around others =>
          rw [Operand.read_closer _ _ _ _ _ closes, ← inductionHypothesis]
          simpa using Operand.read_closer (w.ending ending) (done.map w.operand) _ _
            (around.map w.operand) (by rw [kind_token, closes])
      · have plain : t.isBracket = false := by simp [Token.isBracket, opens, closes]
        rw [Operand.read_token _ _ _ _ plain, ← inductionHypothesis]
        simpa using Operand.read_token (w.ending ending) (done.map w.operand)
          (outer.map (List.map w.operand)) _ (by simpa [Token.isBracket] using plain)

end Operands

/-- A statement in other words is read behind its label in other words. -/
theorem readBehind_tokens (label : Option Label) (ending : Except Diagnostic Token)
    (ts : List Token) :
    Statement.readBehind (label.map w.label) (w.ending ending) (ts.map w.token) =
      Outcome.change w.diagnostic w.statement (Statement.readBehind label ending ts) := by
  cases ts with
  | nil => cases ending <;> rfl
  | cons t ts =>
    simp only [List.map_cons, Statement.readBehind, kind_token, Option.isSome_map]
    by_cases constant : label.isSome && t.kind.isConstant
    · have read := w.read_tokens ending [.token t] [] ts
      simp only [List.map_cons, operand_token, List.map_nil] at read
      simp only [constant, if_true, read]
      cases Operand.read ending [.token t] [] ts <;> rfl
    · simp only [constant, Bool.false_eq_true, if_false]
      by_cases mnemonic : t.kind = .mnemonic
      · have read := w.read_tokens ending [] [] ts
        have text := w.text_token (t := t) (by rw [mnemonic]; rfl)
        simp only [List.map_nil] at read
        simp only [mnemonic, if_true, read, text]
        cases Operand.read ending [] [] ts <;> rfl
      · simp only [mnemonic, if_false]
        rfl

/-- A block with tokens holds a statement, behind a label if the first of them is one. -/
theorem ofBlock_cons (t : Token) (ts : List Token) (ending : Except Diagnostic Token) :
    Statement.ofBlock ⟨t :: ts, ending⟩ = some <$>
      if t.kind = .assignment then Statement.readBehind (some ⟨t.text, t.position⟩) ending ts
      else Statement.readBehind none ending (t :: ts) := by
  obtain ⟨kind, text, position⟩ := t
  cases kind <;> rfl

/-- The statement of a block in other words. -/
theorem ofBlock_block (b : Block) :
    Statement.ofBlock (w.block b) =
      Outcome.change w.diagnostic (Option.map w.statement) (Statement.ofBlock b) := by
  obtain ⟨ts, ending⟩ := b
  cases ts with
  | nil =>
    cases ending with
    | error d => rfl
    | ok t =>
      obtain ⟨kind, text, position⟩ := t
      cases kind <;> rfl
  | cons t ts =>
    have block : w.block ⟨t :: ts, ending⟩ = ⟨w.token t :: ts.map w.token, w.ending ending⟩ := rfl
    rw [block, ofBlock_cons, ofBlock_cons, kind_token]
    by_cases assigns : t.kind = .assignment
    · have label : (⟨(w.token t).text, (w.token t).position⟩ : Label) =
          w.label ⟨t.text, t.position⟩ := by
        simp [token, Rewording.label, assigns, TokenKind.isName]
      have behind := w.readBehind_tokens (some ⟨t.text, t.position⟩) ending ts
      rw [Option.map_some, ← label] at behind
      simp only [assigns, if_true, behind]
      cases Statement.readBehind (some ⟨t.text, t.position⟩) ending ts <;> rfl
    · have whole := w.readBehind_tokens none ending (t :: ts)
      rw [Option.map_none, List.map_cons] at whole
      simp only [assigns, if_false, whole]
      cases Statement.readBehind none ending (t :: ts) <;> rfl

section Blocks

/-- Tokens in other words are cut into the blocks in other words. -/
theorem cut_tokens (ending : Except Diagnostic Token) (ts : List Token) :
    Block.cut (w.ending ending) (ts.map w.token) =
      Prod.map w.block (List.map w.block) (Block.cut ending ts) := by
  induction ts with
  | nil => rfl
  | cons t ts inductionHypothesis =>
    rw [List.map_cons, Block.cut.eq_def, Block.cut.eq_def]
    simp only [kind_token, inductionHypothesis]
    split
    · rfl
    · rfl
    · rfl

/-- What stands behind tokens does not matter if they end by themselves. -/
theorem cut_of_eof (ending other : Except Diagnostic Token) {ts : List Token}
    (ended : ∃ t ∈ ts, t.kind = .eof) : Block.cut ending ts = Block.cut other ts := by
  induction ts with
  | nil => simp at ended
  | cons t ts inductionHypothesis =>
    by_cases eof : t.kind = .eof
    · rw [Block.cut.eq_def, Block.cut.eq_def]
      simp only [eof]
    · have behind : ∃ t ∈ ts, t.kind = .eof := by simpa [eof] using ended
      rw [Block.cut.eq_def, Block.cut.eq_def]
      simp only [inductionHypothesis behind]

/-- Tokens in other words fall into the blocks in other words. -/
theorem ofTokens_tokens {feed : Feed Diagnostic Token}
    (ended : feed.failure = none → ∃ t ∈ feed.items, t.kind = .eof) :
    Block.ofTokens (w.tokens feed) = (Block.ofTokens feed).map w.block := by
  obtain ⟨ts, failure⟩ := feed
  have cut (ending : Except Diagnostic Token) := w.cut_tokens ending ts
  cases failure with
  | some d =>
    have here := cut (.error d)
    simp only [ending, Outcome.change_error] at here
    simp only [Block.ofTokens, tokens, Feed.change, Option.map_some, here, Prod.map]
    rfl
  | none =>
    have endedToo : ∃ t ∈ ts.map w.token, t.kind = .eof := by simpa using ended rfl
    simp only [Block.ofTokens, tokens, Feed.change, Option.map_none]
    rw [cut_of_eof _ (w.ending (.ok (Token.eof .nowhere))) endedToo, cut]
    rfl

/-- Statements are read of tokens in other words as the statements in other words. -/
theorem ofResults_tokens {feed : Feed Diagnostic Token}
    (ended : feed.failure = none → ∃ t ∈ feed.items, t.kind = .eof) :
    Feed.ofResults Statement.ofBlock (Block.ofTokens (w.tokens feed)) =
      w.statements (Feed.ofResults Statement.ofBlock (Block.ofTokens feed)) := by
  rw [ofTokens_tokens w ended]
  exact Feed.ofResults_change w.block w.diagnostic w.statement w.ofBlock_block _

end Blocks

end BankAsm.Rewording
