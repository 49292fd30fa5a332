import BankAsm.Proofs.Statement.Grammar
import BankAsm.Proofs.Statement.Leaves
import BankAsm.Proofs.Token.Misfit

/-!
# Where statements stand

Statements keep the positions of the tokens that they are read of, and so do the
diagnostics of the reading. A diagnostic of the statements of a source is therefore the
failure of the scan, or it stands at a token (`Statement.reads_ofSource`).
-/

namespace BankAsm

/-- Whether one of the tokens stands at a position. -/
def Marks (ts : List Token) (position : Position) : Prop := ∃ t ∈ ts, t.position = position

/-- A diagnostic at a token, of a kind that no scan reports. -/
structure Diagnostic.AtToken (ts : List Token) (d : Diagnostic) : Prop where
  marks : Marks ts d.position
  kind : d.kind.isOfScan = false

/-- A diagnostic that the tokens of a source account for: their scan failed with it, or it
stands at one of them. -/
def Diagnostic.Traced (tokens : Feed Diagnostic Token) (d : Diagnostic) : Prop :=
  tokens.failure = some d ∨ d.AtToken tokens.items

/-- A statement whose parts stand at tokens. -/
structure Statement.Anchored (ts : List Token) (s : Statement) : Prop where
  position : Marks ts s.position
  label : ∀ label ∈ s.label, Marks ts label.position
  leaves : ∀ operand ∈ s.operands, ∀ t ∈ operand.leaves, t ∈ ts

namespace Block

/-- What ends a block is one of the tokens that were cut, or what stands behind all of
them, and then none of them ends a source. -/
theorem ending_of_mem_cut {ending : Except Diagnostic Token} {ts : List Token} {block : Block}
    (among : block ∈ (cut ending ts).1 :: (cut ending ts).2) :
    (∃ t ∈ ts, block.ending = .ok t) ∨ block.ending = ending ∧ ∀ t ∈ ts, t.kind ≠ .eof := by
  induction ts generalizing block with
  | nil =>
    rw [List.mem_singleton.mp among]
    exact .inr ⟨rfl, by simp⟩
  | cons first rest inductionHypothesis =>
    have later {other : Block} (noEof : first.kind ≠ .eof)
        (member : other ∈ (cut ending rest).1 :: (cut ending rest).2) :
        (∃ t ∈ first :: rest, other.ending = .ok t) ∨
          other.ending = ending ∧ ∀ t ∈ first :: rest, t.kind ≠ .eof := by
      rcases inductionHypothesis member with ⟨t, inside, ends⟩ | ⟨same, none⟩
      · exact .inl ⟨t, List.mem_cons_of_mem first inside, ends⟩
      · exact .inr ⟨same, List.forall_mem_cons.mpr ⟨noEof, none⟩⟩
    unfold cut at among
    split at among
    case h_1 =>
      rw [List.mem_singleton.mp among]
      exact .inl ⟨first, List.mem_cons_self, rfl⟩
    case h_2 terminator =>
      rcases List.mem_cons.mp among with rfl | member
      · exact .inl ⟨first, List.mem_cons_self, rfl⟩
      · exact later (by simp [terminator]) member
    case h_3 noEof _ =>
      rcases List.mem_cons.mp among with rfl | member
      · have front : (cut ending rest).1 ∈ (cut ending rest).1 :: (cut ending rest).2 :=
          List.mem_cons_self
        -- The first token joins the front block and leaves its ending.
        have ends := later noEof front
        exact ends
      · exact later noEof (List.mem_cons_of_mem _ member)

/-- A block of the tokens of a source: its tokens and the token that ends it are among
them, unless the failure of the scan ends it. -/
structure Of (tokens : Feed Diagnostic Token) (block : Block) : Prop where
  inside : ∀ t ∈ block.tokens, t ∈ tokens.items
  ended : ∀ t, block.ending = .ok t → t ∈ tokens.items
  broken : ∀ d, block.ending = .error d → tokens.failure = some d

/-- The blocks of the tokens of a source. What stands behind tokens without the end of the
source is never needed. -/
theorem of_mem_ofTokens {source : String} {block : Block}
    (among : block ∈ ofTokens (Token.ofSource source)) : Of (Token.ofSource source) block := by
  have member := ending_of_mem_cut among
  refine ⟨fun t inside => mem_of_mem_cut among inside, ?_, ?_⟩
  · intro t ends
    rw [ends] at member
    rcases member with ⟨other, inside, same⟩ | ⟨fallback, none⟩
    · obtain rfl := Except.ok.inj same
      exact inside
    · cases accepted : (Token.ofSource source).failure with
      | some d =>
        rw [accepted] at fallback
        cases fallback
      | none =>
        obtain ⟨clauses, last, items, eof, _⟩ := Clause.exists_of_accepted accepted
        exact absurd eof (none last (by simp [items]))
  · intro d ends
    rw [ends] at member
    rcases member with ⟨other, _, same⟩ | ⟨fallback, _⟩
    · cases same
    · cases failed : (Token.ofSource source).failure with
      | some other =>
        rw [failed] at fallback
        obtain rfl := Except.error.inj fallback
        rfl
      | none =>
        rw [failed] at fallback
        cases fallback

end Block

section Reading

variable {all : List Token} {ending : Except Diagnostic Token} {ts : List Token} {d : Diagnostic}

/-- What stands in the way of operands is what ends the tokens, or stands at a token. -/
theorem Operand.error_of_read {done : List Operand} {outer : List (List Operand)}
    (inside : ∀ t ∈ ts, t ∈ all) (ends : ∀ t, ending = .ok t → t ∈ all)
    (fails : Operand.read ending done outer ts = .error d) :
    ending = .error d ∨ d.AtToken all := by
  induction ts generalizing done outer with
  | nil =>
    unfold Operand.read at fails
    split at fails
    case h_1 =>
      obtain rfl := Except.error.inj fails
      exact .inl rfl
    case h_2 t _ _ =>
      obtain rfl := Except.error.inj fails
      exact .inr ⟨⟨t, ends t rfl, rfl⟩, rfl⟩
    case h_3 => cases fails
  | cons t ts inductionHypothesis =>
    obtain ⟨here, later⟩ := List.forall_mem_cons.mp inside
    unfold Operand.read at fails
    split at fails
    case h_1 => exact inductionHypothesis later fails
    case h_2 =>
      split at fails
      case h_1 => exact inductionHypothesis later fails
      case h_2 =>
        obtain rfl := Except.error.inj fails
        exact .inr ⟨⟨t, here, rfl⟩, rfl⟩
    case h_3 => exact inductionHypothesis later fails

/-- A token in place of a mnemonic is reported where it stands. -/
theorem Statement.atToken_missingMnemonic {t : Token} (inside : t ∈ all) :
    (missingMnemonic t).AtToken all :=
  ⟨⟨t, inside, rfl⟩, rfl⟩

/-- What stands in the way of a statement. -/
theorem Statement.error_of_readBehind {label : Option Label}
    (inside : ∀ t ∈ ts, t ∈ all) (ends : ∀ t, ending = .ok t → t ∈ all)
    (fails : readBehind label ending ts = .error d) : ending = .error d ∨ d.AtToken all := by
  unfold readBehind at fails
  split at fails
  case h_1 =>
    split at fails
    case h_1 t =>
      obtain rfl := Except.error.inj fails
      exact .inr (atToken_missingMnemonic (ends t rfl))
    case h_2 =>
      obtain rfl := Except.error.inj fails
      exact .inl rfl
  case h_2 t ts =>
    obtain ⟨here, later⟩ := List.forall_mem_cons.mp inside
    split at fails
    case isTrue =>
      exact Operand.error_of_read later ends (Outcome.map_eq_error_iff.mp fails)
    case isFalse =>
      split at fails
      case isTrue =>
        exact Operand.error_of_read later ends (Outcome.map_eq_error_iff.mp fails)
      case isFalse =>
        obtain rfl := Except.error.inj fails
        exact .inr (atToken_missingMnemonic here)

/-- A statement stands at its first token, and keeps its label. -/
theorem Statement.of_readBehind {label : Option Label} {s : Statement}
    (inside : ∀ t ∈ ts, t ∈ all) (read : readBehind label ending ts = .ok s) :
    Marks all s.position ∧ s.label = label := by
  unfold readBehind at read
  split at read
  case h_1 =>
    split at read
    case h_1 => cases read
    case h_2 => cases read
  case h_2 t ts =>
    have here : t ∈ all := inside t List.mem_cons_self
    split at read
    case isTrue =>
      obtain ⟨_, _, rfl⟩ := Outcome.map_eq_ok_iff.mp read
      exact ⟨⟨t, here, rfl⟩, rfl⟩
    case isFalse =>
      split at read
      case isTrue =>
        obtain ⟨_, _, rfl⟩ := Outcome.map_eq_ok_iff.mp read
        exact ⟨⟨t, here, rfl⟩, rfl⟩
      case isFalse => cases read

end Reading

namespace Statement

variable {tokens : Feed Diagnostic Token} {block : Block} {d : Diagnostic} {s : Statement}

/-- What stands in the way of the statement of a block. -/
theorem traced_of_ofBlock (of : block.Of tokens) (fails : ofBlock block = .error d) :
    d.Traced tokens := by
  have traced {label : Option Label} {ts : List Token} (inside : ∀ t ∈ ts, t ∈ tokens.items)
      (broken : readBehind label block.ending ts = .error d) : d.Traced tokens :=
    (error_of_readBehind inside of.ended broken).imp_left (of.broken d)
  unfold ofBlock at fails
  split at fails
  case h_1 => cases fails
  case h_2 name position ts _ whole =>
    have inside := of.inside
    rw [whole] at inside
    exact traced (List.forall_mem_cons.mp inside).2 (Outcome.map_eq_error_iff.mp fails)
  case h_3 => exact traced of.inside (Outcome.map_eq_error_iff.mp fails)

/-- The statement of a block stands at its tokens. -/
theorem anchored_of_ofBlock (of : block.Of tokens) (read : ofBlock block = .ok (some s)) :
    s.Anchored tokens.items := by
  have leaves := fun operand member t leaf =>
    of.inside t (mem_tokens_of_ofBlock read operand member t leaf)
  unfold ofBlock at read
  split at read
  case h_1 => cases read
  case h_2 name position ts _ whole =>
    have inside := of.inside
    rw [whole] at inside
    obtain ⟨first, others⟩ := List.forall_mem_cons.mp inside
    obtain ⟨found, readFound, same⟩ := Outcome.map_eq_ok_iff.mp read
    obtain rfl := Option.some.inj same
    obtain ⟨marks, labeled⟩ := of_readBehind others readFound
    refine ⟨marks, fun label here => ?_, leaves⟩
    rw [labeled] at here
    obtain rfl := Option.some.inj here
    exact ⟨_, first, rfl⟩
  case h_3 =>
    obtain ⟨found, readFound, same⟩ := Outcome.map_eq_ok_iff.mp read
    obtain rfl := Option.some.inj same
    obtain ⟨marks, labeled⟩ := of_readBehind of.inside readFound
    exact ⟨marks, by simp [labeled], leaves⟩

/-- Statements and their failure, as the tokens of a source account for them. -/
structure Reads (tokens : Feed Diagnostic Token) (statements : Feed Diagnostic Statement) :
    Prop where
  items : ∀ s ∈ statements.items, s.Anchored tokens.items
  failure : ∀ d, statements.failure = some d → d.Traced tokens

/-- The statements of a source are accounted for by its tokens. -/
theorem reads_ofSource (source : String) :
    Reads (Token.ofSource source) (Statement.ofSource source) where
  items := by
    intro s member
    obtain ⟨block, among, read⟩ := Feed.exists_of_mem_ofResults member
    exact anchored_of_ofBlock (Block.of_mem_ofTokens among) read
  failure := by
    intro d fails
    obtain ⟨block, among, broken⟩ := Feed.exists_of_failure_ofResults fails
    exact traced_of_ofBlock (Block.of_mem_ofTokens among) broken

end Statement

end BankAsm
