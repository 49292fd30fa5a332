import BankAsm.Proofs.Statement.Brackets
import BankAsm.Proofs.Token.Reading
import BankAsm.Proofs.Outcome

/-!
# Clauses are read one by one

The tokens of an accepted source are clauses, and each is cut out as a block of its own
(`Block.ofTokens_clauses`). A clause that conforms gives a statement that its tokens
spell, and any other what is refused (`Statement.ofBlock_of_conforms`,
`Statement.exists_refused_of_ofBlock`).
-/

namespace BankAsm

namespace Clause

variable {clause : Clause}

/-- The block of a clause. -/
def block (clause : Clause) : Block := ⟨clause.tokens, .ok clause.terminator⟩

/-- Tokens that fall into statements are those of clauses, and behind them the end of the
source. -/
theorem exists_of_blocks {tokens : List Token} (blocks : Token.Blocks tokens) :
    ∃ clauses : List Clause, ∃ last, tokens = clauses.flatMap all ++ [last] ∧ last.kind = .eof ∧
      ∀ clause ∈ clauses, clause.Whole := by
  induction blocks with
  | @eof t kind => exact ⟨[], t, rfl, kind, by simp⟩
  | @block front last rest filled plain kind _ inductionHypothesis =>
    obtain ⟨clauses, eof, rfl, kindEof, whole⟩ := inductionHypothesis
    have first : Whole ⟨front, last⟩ := {
      filled
      plain := fun t member => by simpa [Token.isEnding] using plain t member
      terminator := kind }
    exact ⟨⟨front, last⟩ :: clauses, eof, by simp [all], kindEof,
      List.forall_mem_cons.mpr ⟨first, whole⟩⟩

/-- A label can be told from what stands behind it. -/
theorem exists_labelled (tokens : List Token) : ∃ label rest, Labelled tokens label rest := by
  cases tokens with
  | nil => exact ⟨none, [], .none (by simp)⟩
  | cons t rest =>
    by_cases assigns : t.kind = .assignment
    · exact ⟨some t, rest, .some rfl assigns⟩
    · exact ⟨none, t :: rest, .none (by simpa using assigns)⟩

/-- The tokens of a clause are its label and what stands behind it. -/
theorem Labelled.tokens_eq {tokens rest : List Token} {label : Option Token}
    (labelled : Labelled tokens label rest) : tokens = label.toList ++ rest := by
  cases labelled with
  | none => rfl
  | some whole => exact whole

/-- The label of a clause is an assignment. -/
theorem Labelled.kind {tokens rest : List Token} {label : Option Token}
    (labelled : Labelled tokens label rest) : ∀ t ∈ label, t.kind = .assignment := by
  cases labelled with
  | none => simp
  | some _ kind => simpa using kind

end Clause

namespace Block

variable (ending : Except Diagnostic Token) {rest : List Token}

/-- Tokens that end nothing belong to the block of what stands behind them. -/
theorem cut_plain {front : List Token}
    (plain : ∀ t ∈ front, t.kind ≠ .terminator ∧ t.kind ≠ .eof) :
    cut ending (front ++ rest) =
      (⟨front ++ (cut ending rest).1.tokens, (cut ending rest).1.ending⟩, (cut ending rest).2) := by
  induction front with
  | nil => rfl
  | cons t front inductionHypothesis =>
    obtain ⟨⟨noTerminator, noEof⟩, others⟩ := List.forall_mem_cons.mp plain
    rw [List.cons_append, cut.eq_def]
    simp only [inductionHypothesis others]
    rfl

/-- A clause in front of other tokens is a block of its own. -/
theorem cut_clause {clause : Clause} (whole : clause.Whole) :
    cut ending (clause.all ++ rest) =
      (clause.block, (cut ending rest).1 :: (cut ending rest).2) := by
  have ends : cut ending (clause.terminator :: rest) =
      (⟨[], .ok clause.terminator⟩, (cut ending rest).1 :: (cut ending rest).2) := by
    rw [cut.eq_def]
    simp only [whole.terminator]
  rw [Clause.all, List.append_assoc, List.singleton_append, cut_plain ending whole.plain, ends]
  simp [Clause.block]

/-- Clauses in front of other tokens are blocks of their own. -/
theorem cut_clauses {clauses : List Clause} (whole : ∀ clause ∈ clauses, clause.Whole) :
    (cut ending (clauses.flatMap Clause.all ++ rest)).1 ::
        (cut ending (clauses.flatMap Clause.all ++ rest)).2 =
      clauses.map Clause.block ++ (cut ending rest).1 :: (cut ending rest).2 := by
  induction clauses with
  | nil => rfl
  | cons clause clauses inductionHypothesis =>
    obtain ⟨first, others⟩ := List.forall_mem_cons.mp whole
    rw [List.flatMap_cons, List.append_assoc, cut_clause ending first,
      inductionHypothesis others]
    rfl

/-- The blocks of clauses, and behind them the one of what is left. -/
theorem ofTokens_clauses {clauses : List Clause} (whole : ∀ clause ∈ clauses, clause.Whole)
    (rest : List Token) (failure : Option Diagnostic) :
    ofTokens ⟨clauses.flatMap Clause.all ++ rest, failure⟩ =
      clauses.map Clause.block ++ ofTokens ⟨rest, failure⟩ :=
  cut_clauses _ whole

end Block

namespace Statement

open Clause (Labelled Opens Conforms Refused)

variable {clause : Clause} {label : Option Token} {rest : List Token}

/-- The label that a token names. -/
def labelOf (t : Token) : Label := ⟨t.text, t.position⟩

/-- A label is the token that it was read from. -/
theorem token_labelOf {t : Token} (kind : t.kind = .assignment) : (labelOf t).token = t := by
  rw [Label.token, labelOf, ← kind]

/-- The statement of a clause is read behind its label. -/
theorem ofBlock_of_labelled (filled : clause.tokens ≠ [])
    (labelled : Labelled clause.tokens label rest) :
    ofBlock clause.block =
      some <$> readBehind (label.map labelOf) (.ok clause.terminator) rest := by
  obtain ⟨tokens, terminator⟩ := clause
  cases labelled with
  | none plain =>
    obtain ⟨⟨kind, text, position⟩, tokens, rfl⟩ := List.exists_cons_of_ne_nil filled
    have noLabel : kind ≠ .assignment := plain _ rfl
    unfold ofBlock
    simp only [Clause.block]
    split
    case h_1 none _ => cases none
    case h_2 same => simp_all
    case h_3 => rfl
  | @some first _ whole kind =>
    obtain ⟨other, text, position⟩ := first
    obtain rfl : other = .assignment := kind
    obtain rfl : tokens = _ := whole
    rfl

/-- The mnemonic of the statement that a token opens, and the operands that it gives. -/
def opened (opening : Token) : String × List Operand :=
  if opening.kind.isConstant then ("ASSIGN", [.token opening]) else (opening.text, [])

/-- Behind what opens a statement its operands are read. -/
theorem readBehind_of_opens {opening : Token} (opens : Opens label opening)
    (ending : Except Diagnostic Token) (arguments : List Token) :
    readBehind (label.map labelOf) ending (opening :: arguments) =
      (Operand.read ending (opened opening).2 [] arguments).map fun operands =>
        ⟨label.map labelOf, (opened opening).1, opening.position, operands⟩ := by
  rcases opens with mnemonic | ⟨labelled, constant⟩
  · simp [readBehind, opened, mnemonic, TokenKind.isConstant]
  · simp [readBehind, opened, labelled, constant]

/-- What does not open a statement is reported in place of its mnemonic. -/
theorem readBehind_of_not_opens {found : Token} (other : ¬ Opens label found)
    (ending : Except Diagnostic Token) (back : List Token) :
    readBehind (label.map labelOf) ending (found :: back) = .error (missingMnemonic found) := by
  obtain ⟨noMnemonic, noConstant⟩ := not_or.mp other
  simp_all [readBehind]

/-- A statement is spelled by its label, what opens it, and its arguments. -/
theorem spelled_of_opens {opening : Token} {arguments : List Token} {operands : List Operand}
    (labels : ∀ t ∈ label, t.kind = .assignment) (opens : Opens label opening)
    (spelled : Operand.Spelled operands arguments) :
    Spelled ⟨label.map labelOf, (opened opening).1, opening.position,
        (opened opening).2.reverse ++ operands⟩ (label.toList ++ opening :: arguments) := by
  have label_eq : (label.map labelOf).map Label.token = label := by
    cases label with
    | none => rfl
    | some t => exact congrArg some (token_labelOf (labels t rfl))
  rcases opens with mnemonic | ⟨labelled, constant⟩
  · have opening_eq : ⟨.mnemonic, opening.text, opening.position⟩ = opening := by
      rw [← mnemonic]
    have whole := Spelled.operation (s := ⟨label.map labelOf, opening.text, opening.position,
      operands⟩) spelled
    simpa [opened, mnemonic, TokenKind.isConstant, label_eq, opening_eq] using whole
  · obtain ⟨t, rfl⟩ := Option.isSome_iff_exists.mp labelled
    have plain : opening.isBracket = false := by
      cases opening with
      | mk kind text position => cases kind <;> simp_all [TokenKind.isConstant, Token.isBracket]
    have whole := Spelled.assignment (s := ⟨some (labelOf t), "ASSIGN", opening.position,
      .token opening :: operands⟩) rfl rfl constant rfl (.token plain spelled)
    rw [token_labelOf (labels t rfl)] at whole
    simpa [opened, constant] using whole

/-- The statement of a clause that conforms is spelled by its tokens. -/
theorem ofBlock_of_conforms (filled : clause.tokens ≠ [])
    (texts : ∀ t ∈ clause.tokens, t.HasBracketText) (conforms : clause.Conforms) :
    ∃ s, ofBlock clause.block = .ok (some s) ∧ s.Spelled clause.tokens := by
  obtain ⟨label, opening, arguments, labelled, opens, balanced⟩ := conforms
  rw [labelled.tokens_eq] at texts
  have behind := (List.forall_mem_cons.mp (List.forall_mem_append.mp texts).2).2
  obtain ⟨operands, read, spelled⟩ :=
    Operand.read_of_balanced balanced behind clause.terminator
  rw [ofBlock_of_labelled filled labelled, readBehind_of_opens opens, read, labelled.tokens_eq]
  exact ⟨_, rfl, spelled_of_opens labelled.kind opens spelled⟩

/-- A clause that does not conform is refused. -/
theorem exists_refused_of_ofBlock (whole : clause.Whole)
    (texts : ∀ t ∈ clause.tokens, t.HasBracketText) (deviates : ¬ clause.Conforms) :
    ∃ d, ofBlock clause.block = .error d ∧ clause.Refused d := by
  obtain ⟨label, rest, labelled⟩ := Clause.exists_labelled clause.tokens
  rw [ofBlock_of_labelled whole.filled labelled]
  cases rest with
  | nil =>
    have other : ¬ Opens label clause.terminator := by
      simp [Opens, whole.terminator, TokenKind.isConstant]
    exact ⟨_, rfl, .mnemonic labelled rfl other⟩
  | cons opening arguments =>
    by_cases opens : Opens label opening
    · rw [labelled.tokens_eq] at texts
      have behind := (List.forall_mem_cons.mp (List.forall_mem_append.mp texts).2).2
      rw [readBehind_of_opens opens]
      by_cases stray : ∃ closer, Token.Stray closer arguments
      · obtain ⟨closer, stray⟩ := stray
        rw [Operand.read_of_stray stray behind]
        exact ⟨_, rfl, .closer labelled opens stray⟩
      · have unbalanced : ¬ Token.Balanced arguments := fun balanced =>
          deviates ⟨label, opening, arguments, labelled, opens, balanced⟩
        have leftOpen : Token.LeftOpen arguments :=
          ((Token.balanced_or_stray_or_leftOpen arguments).resolve_left unbalanced).resolve_left
            stray
        rw [Operand.read_of_leftOpen leftOpen behind]
        exact ⟨_, rfl, .group labelled opens unbalanced (not_exists.mp stray)⟩
    · rw [readBehind_of_not_opens opens]
      exact ⟨_, rfl, .mnemonic labelled rfl opens⟩

end Statement

end BankAsm
