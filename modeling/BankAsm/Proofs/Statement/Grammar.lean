import BankAsm.Proofs.Feed
import BankAsm.Proofs.Statement.Clauses

/-!
# Sources follow the grammar

A source whose tokens are read without a failure is read into statements exactly if all
of its clauses conform to the grammar, and the statements are spelled by the clauses. At
the first clause that does not conform the reading breaks off behind the statements of
those in front of it (`Statement.follows_of_ofSource`).
-/

namespace BankAsm

/-- The statements of clauses: one for each, spelled by its tokens. -/
def Clause.Spell (clauses : List Clause) (statements : List Statement) : Prop :=
  List.Forall₂ (fun clause s => s.Spelled clause.tokens) clauses statements

/-- What is read of clauses by the grammar: the statement of each, or those of the clauses
in front of the first that does not conform, and what is refused of this one. -/
structure Clause.Follows (clauses : List Clause) (read : Feed Diagnostic Statement) : Prop where
  accepts : read.failure = none ↔ ∀ clause ∈ clauses, clause.Conforms
  statements : (∀ clause ∈ clauses, clause.Conforms) → Spell clauses read.items
  refusal : ∀ front clause back, clauses = front ++ clause :: back →
    (∀ earlier ∈ front, earlier.Conforms) → ¬ clause.Conforms →
    Spell front read.items ∧ ∃ d, read.failure = some d ∧ clause.Refused d
  directives : ∀ s ∈ read.items,
    s.isDirective ↔ s.mnemonic = "LOCATE" ∨ s.mnemonic = "DATA" ∨ s.mnemonic = "ASSIGN"

namespace Clause

variable {clauses : List Clause}

/-- Clauses that do not all conform have a first one that does not. -/
theorem exists_first_of_not_conforms (deviates : ¬ ∀ clause ∈ clauses, clause.Conforms) :
    ∃ front clause back, clauses = front ++ clause :: back ∧
      (∀ earlier ∈ front, earlier.Conforms) ∧ ¬ clause.Conforms := by
  induction clauses with
  | nil => simp at deviates
  | cons first rest inductionHypothesis =>
    by_cases conforms : first.Conforms
    · have later : ¬ ∀ clause ∈ rest, clause.Conforms := fun all =>
        deviates (List.forall_mem_cons.mpr ⟨conforms, all⟩)
      obtain ⟨front, clause, back, rfl, inFront, deviating⟩ := inductionHypothesis later
      exact ⟨first :: front, clause, back, rfl,
        List.forall_mem_cons.mpr ⟨conforms, inFront⟩, deviating⟩
    · exact ⟨[], first, rest, rfl, by simp, conforms⟩

/-- A clause as it stands in a source: whole, and with the brackets written as such. -/
structure Standing (clause : Clause) : Prop where
  whole : clause.Whole
  texts : ∀ t ∈ clause.tokens, t.HasBracketText

/-- Each of the clauses that conform gives a statement that its tokens spell. -/
theorem exists_spell_of_conforms (standing : ∀ clause ∈ clauses, clause.Standing)
    (conform : ∀ clause ∈ clauses, clause.Conforms) :
    ∃ statements, Spell clauses statements ∧
      List.Forall₂ (fun block s => Statement.ofBlock block = .ok (some s)) (clauses.map block)
        statements := by
  induction clauses with
  | nil => exact ⟨[], .nil, .nil⟩
  | cons clause clauses inductionHypothesis =>
    obtain ⟨here, others⟩ := List.forall_mem_cons.mp standing
    obtain ⟨first, rest⟩ := List.forall_mem_cons.mp conform
    obtain ⟨s, read, spelled⟩ :=
      Statement.ofBlock_of_conforms here.whole.filled here.texts first
    obtain ⟨statements, spell, results⟩ := inductionHypothesis others rest
    exact ⟨s :: statements, .cons spelled spell, .cons read results⟩

/-- What is read of clauses and of the blocks behind them. -/
def reading (clauses : List Clause) (behind : List Block) : Feed Diagnostic Statement :=
  Feed.ofResults Statement.ofBlock (clauses.map block ++ behind)

/-- Clauses that conform give their statements in front of what is read behind them. -/
theorem reading_of_conforms (standing : ∀ clause ∈ clauses, clause.Standing)
    (conform : ∀ clause ∈ clauses, clause.Conforms) :
    ∃ statements, Spell clauses statements ∧ ∀ behind, reading clauses behind =
      ⟨statements ++ (reading [] behind).items, (reading [] behind).failure⟩ := by
  obtain ⟨statements, spell, results⟩ := exists_spell_of_conforms standing conform
  exact ⟨statements, spell, fun behind => Feed.ofResults_append results behind⟩

/-- The reading of clauses breaks off at the first one that does not conform, whatever
stands behind them. -/
theorem reading_of_deviates {front back : List Clause} {clause : Clause}
    (standing : ∀ other ∈ front ++ clause :: back, other.Standing)
    (conform : ∀ earlier ∈ front, earlier.Conforms) (deviates : ¬ clause.Conforms) :
    ∃ statements d, Spell front statements ∧ clause.Refused d ∧
      ∀ behind, reading (front ++ clause :: back) behind = ⟨statements, some d⟩ := by
  obtain ⟨earlier, others⟩ := List.forall_mem_append.mp standing
  obtain ⟨here, _⟩ := List.forall_mem_cons.mp others
  obtain ⟨statements, spell, results⟩ := exists_spell_of_conforms earlier conform
  obtain ⟨d, fails, refused⟩ := Statement.exists_refused_of_ofBlock here.whole here.texts deviates
  refine ⟨statements, d, spell, refused, fun behind => ?_⟩
  rw [reading, List.map_append, List.append_assoc, Feed.ofResults_append results, List.map_cons,
    List.cons_append, Feed.ofResults_cons_of_error fails]
  simp [Feed.fail]

/-- The blocks of the token that ends a source. -/
def ending (last : Token) : List Block := Block.ofTokens ⟨[last], none⟩

/-- The token that ends a source gives nothing. -/
theorem reading_ending {last : Token} (eof : last.kind = .eof) :
    reading [] (ending last) = .done := by
  obtain ⟨kind, text, position⟩ := last
  obtain rfl : kind = .eof := eof
  rfl

/-- Reading clauses follows the grammar. -/
theorem follows_of_standing (standing : ∀ clause ∈ clauses, clause.Standing) {last : Token}
    (eof : last.kind = .eof) : Follows clauses (reading clauses (ending last)) where
  accepts := by
    constructor
    · intro unbroken
      by_contra deviates
      obtain ⟨front, clause, back, rfl, conform, deviating⟩ :=
        exists_first_of_not_conforms deviates
      obtain ⟨statements, d, _, _, read⟩ := reading_of_deviates standing conform deviating
      rw [read] at unbroken
      cases unbroken
    · intro conform
      obtain ⟨statements, _, read⟩ := reading_of_conforms standing conform
      rw [read, reading_ending eof]
      rfl
  statements := by
    intro conform
    obtain ⟨statements, spell, read⟩ := reading_of_conforms standing conform
    rw [read, reading_ending eof]
    simpa [Feed.done] using spell
  refusal := by
    rintro front clause back rfl conform deviates
    obtain ⟨statements, d, spell, refused, read⟩ :=
      reading_of_deviates standing conform deviates
    rw [read]
    exact ⟨spell, d, rfl, refused⟩
  directives := fun s _ => by
    simp [Statement.isDirective, Vocabulary.isDirective, Vocabulary.directives]

/-- The tokens of an accepted source are clauses as they stand in sources, and behind them
the end of the source. -/
theorem exists_of_accepted {source : String} (accepted : (Token.ofSource source).failure = none) :
    ∃ clauses : List Clause, ∃ last,
      (Token.ofSource source).items = clauses.flatMap all ++ [last] ∧ last.kind = .eof ∧
      ∀ clause ∈ clauses, clause.Standing := by
  obtain ⟨clauses, last, items, eof, whole⟩ :=
    exists_of_blocks (Token.reading_of_ofSource accepted).blocks
  refine ⟨clauses, last, items, eof, fun clause among => ⟨whole clause among, fun t member => ?_⟩⟩
  have inSource : t ∈ (Token.ofSource source).items := by
    rw [items]
    refine List.mem_append_left _ (List.mem_flatMap.mpr ⟨clause, among, ?_⟩)
    exact List.mem_append_left _ member
  exact Token.hasBracketText_of_mem_ofSource inSource

end Clause

namespace Statement

/-- The statements of an accepted source are those of its clauses. -/
theorem ofSource_eq_reading {source : String} {clauses : List Clause} {last : Token}
    (accepted : (Token.ofSource source).failure = none)
    (items : (Token.ofSource source).items = clauses.flatMap Clause.all ++ [last])
    (standing : ∀ clause ∈ clauses, clause.Standing) :
    ofSource source = Clause.reading clauses (Clause.ending last) := by
  have tokens : Token.ofSource source = ⟨clauses.flatMap Clause.all ++ [last], none⟩ := by
    rw [← items, ← accepted]
  rw [ofSource, tokens, Block.ofTokens_clauses fun clause among => (standing clause among).whole]
  rfl

/-- A source whose tokens are read without a failure is read into statements by the grammar.
Its tokens are clauses and the end of the source. It has a statement for each clause, whose
tokens it is spelled by, exactly if all of them conform; and otherwise those in front of
the first that does not conform, and the diagnostic that this one is refused by. -/
theorem follows_of_ofSource {source : String}
    (accepted : (Token.ofSource source).failure = none) :
    ∃ clauses : List Clause, ∃ last,
      (Token.ofSource source).items = clauses.flatMap Clause.all ++ [last] ∧ last.kind = .eof ∧
      (∀ clause ∈ clauses, clause.Whole) ∧ Clause.Follows clauses (ofSource source) := by
  obtain ⟨clauses, last, items, eof, standing⟩ := Clause.exists_of_accepted accepted
  refine ⟨clauses, last, items, eof, fun clause among => (standing clause among).whole, ?_⟩
  rw [ofSource_eq_reading accepted items standing]
  exact Clause.follows_of_standing standing eof

/-- A label that is assigned a character, nested groups behind a label, and a clause with a
closing bracket too many. -/
theorem follows_of_ofSource_with_groups :
    (Token.ofSource "a: ';'\nb: load [[x] 'y'], add 1] [\nhalt").failure = none ∧
      ∃ clauses : List Clause, ∃ last,
        (Token.ofSource "a: ';'\nb: load [[x] 'y'], add 1] [\nhalt").items =
          clauses.flatMap Clause.all ++ [last] ∧ last.kind = .eof ∧
        (∀ clause ∈ clauses, clause.Whole) ∧
        Clause.Follows clauses (ofSource "a: ';'\nb: load [[x] 'y'], add 1] [\nhalt") := by
  have accepted : (Token.ofSource "a: ';'\nb: load [[x] 'y'], add 1] [\nhalt").failure = none := by
    decide +kernel
  exact ⟨accepted, follows_of_ofSource accepted⟩

end Statement

end BankAsm
