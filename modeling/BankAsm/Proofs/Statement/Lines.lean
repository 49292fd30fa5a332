import BankAsm.Proofs.Statement.Grammar
import BankAsm.Proofs.Token.Lines

/-!
# Lines are read one after another

The end of a source is the end of a clause, and so is a newline. So the statements of a
source are those in front of what is read of the lines below it, and what is refused of
it is refused with more lines below as well (`Statement.extends_ofSource`).
-/

namespace BankAsm

/-- What is read of clauses with more behind them goes on from what is read of them at
the end of a source. -/
theorem Clause.extends_reading {clauses : List Clause}
    (standing : ∀ clause ∈ clauses, clause.Standing) {last : Token} (eof : last.kind = .eof)
    (behind : List Block) :
    (reading clauses behind).Extends (reading clauses (ending last)) := by
  by_cases conform : ∀ clause ∈ clauses, clause.Conforms
  · obtain ⟨statements, _, read⟩ := reading_of_conforms standing conform
    rw [read, read, reading_ending eof]
    simpa [Feed.done] using Feed.Extends.further statements (reading [] behind)
  · obtain ⟨front, clause, back, rfl, conforming, deviates⟩ :=
      exists_first_of_not_conforms conform
    obtain ⟨statements, d, _, _, read⟩ := reading_of_deviates standing conforming deviates
    rw [read, read]
    exact .same _

namespace Statement

/-- What is read of two texts, one above the other, goes on from what is read of the upper
one. -/
theorem extends_ofSource (upper lower : String) :
    (ofSource (upper ++ "\n" ++ lower)).Extends (ofSource upper) := by
  have continues := Token.continues_ofSource upper lower
  generalize Token.feedDown (Token.linesAbove upper) (Token.ofSource lower) = below at continues
  generalize whole : Token.ofSource (upper ++ "\n" ++ lower) = wholeTokens at continues
  generalize alone : Token.ofSource upper = tokens at continues
  cases continues with
  | broken =>
    rw [ofSource, ofSource, whole, alone]
    exact .same _
  | ended front =>
    have accepted : (Token.ofSource upper).failure = none := by rw [alone]
    obtain ⟨clauses, last, items, eof, standing⟩ := Clause.exists_of_accepted accepted
    rw [ofSource_eq_reading accepted items standing]
    obtain ⟨rfl, _⟩ : front = clauses.flatMap Clause.all ∧ _ = last :=
      List.append_singleton_inj.mp (by simpa only [alone] using items)
    rw [ofSource, whole, Block.ofTokens_clauses fun clause among => (standing clause among).whole]
    exact Clause.extends_reading standing eof (Block.ofTokens below)

end Statement

end BankAsm
