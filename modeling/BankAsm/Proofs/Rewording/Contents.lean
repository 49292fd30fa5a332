import BankAsm.Proofs.Rewording.Reading
import BankAsm.Proofs.Statement.Lines
import BankAsm.Proofs.Token.Writing

/-!
# What is read, places aside

The statements of a source follow from the kinds and the texts of its tokens, but for where
they stand (`bare_statements_of_reads`). Lines below a source that is read to its end are
read as they are alone, further down (`Statement.ofSource_below`).
-/

namespace BankAsm

namespace Rewording

open Token (contents content Reads)

/-- The clause of tokens that stand nowhere. -/
def bareClause (ts : List Token) : Clause := ⟨ts.map bare.token, Token.terminator .nowhere⟩

/-- A token that stands nowhere is its content. -/
theorem bare_token (t : Token) : bare.token t = ⟨t.content.1, t.content.2, .nowhere⟩ := by
  simp [token, bare, unplaced, content]

/-- The tokens of a source whose contents are those of statements. -/
theorem bare_tokens_of_reads {feed : Feed Diagnostic Token} {statements : List (List Token)}
    (reads : Reads feed (contents statements)) :
    bare.tokens feed =
      ⟨(statements.map bareClause).flatMap Clause.all ++ [Token.eof .nowhere], none⟩ := by
  obtain ⟨items, failure⟩ := feed
  obtain rfl : failure = none := reads.unbroken
  have bare_eq : items.map bare.token =
      (items.map content).map fun c => ⟨c.1, c.2, .nowhere⟩ := by
    simp [bare_token]
  have whole : items.map content = contents statements := reads.items
  simp only [tokens, Feed.change, bare_eq, whole, contents, Option.map_none]
  simp [List.map_flatMap, List.flatMap_map, bareClause, Clause.all, Function.comp_def,
    funext bare_token, Token.terminator, Token.eof]

/-- A source that is not refused has its end among its tokens. -/
theorem exists_eof_of_accepted (source : String)
    (accepted : (Token.ofSource source).failure = none) :
    ∃ t ∈ (Token.ofSource source).items, t.kind = .eof := by
  obtain ⟨clauses, last, items, eof, _⟩ := Clause.exists_of_accepted accepted
  exact ⟨last, by simp [items], eof⟩

/-- The statements of a source whose tokens have the contents of statements, places
aside. -/
theorem bare_statements_of_reads {source : String} {statements : List (List Token)}
    {items : List Statement} (reads : Reads (Token.ofSource source) (contents statements))
    (whole : ∀ ts ∈ statements, (bareClause ts).Whole)
    (read : List.Forall₂ (fun ts s => Statement.ofBlock (bareClause ts).block = .ok (some s))
      statements items) :
    bare.statements (Statement.ofSource source) = ⟨items, none⟩ := by
  have results : List.Forall₂ (fun block s => Statement.ofBlock block = .ok (some s))
      ((statements.map bareClause).map Clause.block) items := by
    rw [List.forall₂_map_left_iff, List.forall₂_map_left_iff]
    exact read
  have clauses : ∀ clause ∈ statements.map bareClause, clause.Whole := by simpa using whole
  rw [Statement.ofSource, ← ofResults_tokens bare (exists_eof_of_accepted source),
    bare_tokens_of_reads reads, Block.ofTokens_clauses clauses, Feed.ofResults_append results]
  simp [Block.ofTokens, Block.cut, Token.eof, Feed.ofResults, Statement.ofBlock, Feed.done]

section Down

variable (lines : Nat)

theorem token_down (t : Token) : (down lines).token t = t.down lines := by
  simp [token, down, Token.down]

theorem diagnostic_down (d : Diagnostic) : (down lines).diagnostic d = d.down lines := by
  obtain ⟨cause, position⟩ := d
  cases cause <;> rfl

theorem tokens_down (feed : Feed Diagnostic Token) :
    (down lines).tokens feed = Token.feedDown lines feed := by
  simp [tokens, Feed.change, Token.feedDown, funext (token_down lines),
    funext (diagnostic_down lines)]

end Down

end Rewording

namespace Statement

/-- Lines below a source that is read to its end give their statements behind those of the
source, and what is refused of them is refused, as many lines further down as stand above
them. -/
theorem ofSource_below {upper : String} {front : List Statement}
    (accepted : (Token.ofSource upper).failure = none) (read : ofSource upper = ⟨front, none⟩)
    (lower : String) :
    ofSource (upper ++ "\n" ++ lower) =
      ⟨front ++ ((Rewording.down (Token.linesAbove upper)).statements (ofSource lower)).items,
        ((Rewording.down (Token.linesAbove upper)).statements (ofSource lower)).failure⟩ := by
  have below := (Rewording.down (Token.linesAbove upper)).ofResults_tokens
    (Rewording.exists_eof_of_accepted lower)
  rw [Rewording.tokens_down, ← ofSource] at below
  rw [← below]
  obtain ⟨clauses, last, items, eof, standing⟩ := Clause.exists_of_accepted accepted
  rw [ofSource_eq_reading accepted items standing] at read
  have conform := (Clause.follows_of_standing standing eof).accepts.mp (by rw [read])
  obtain ⟨statements, _, goesOn⟩ := Clause.reading_of_conforms standing conform
  obtain rfl : statements = front := by
    rw [goesOn, Clause.reading_ending eof] at read
    simpa [Feed.done] using read
  have continues := Token.continues_ofSource upper lower
  generalize Token.feedDown (Token.linesAbove upper) (Token.ofSource lower) = further at continues ⊢
  generalize whole : Token.ofSource (upper ++ "\n" ++ lower) = wholeTokens at continues
  generalize alone : Token.ofSource upper = tokens at continues
  cases continues with
  | broken failed =>
    rw [← alone, accepted] at failed
    cases failed
  | ended plain =>
    obtain ⟨rfl, _⟩ : plain = clauses.flatMap Clause.all ∧ _ = last :=
      List.append_singleton_inj.mp (by simpa only [alone] using items)
    rw [ofSource, whole, Block.ofTokens_clauses fun clause among => (standing clause among).whole]
    exact goesOn _

end Statement

end BankAsm
