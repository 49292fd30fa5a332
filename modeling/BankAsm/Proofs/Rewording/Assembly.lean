import BankAsm.Proofs.Assembly.Answers
import BankAsm.Proofs.Rewording.Placing

/-!
# Assembling in other words

Statements in other words are pulled, placed and finished as they were before, in other
words (`answer_assembly`, `finish_assembly`). So nothing that the language does depends on
what a label is called or where a statement stands in its source.
-/

namespace BankAsm.Rewording

variable (w : Rewording)

/-- An assembly in the language, in other words. -/
def assembly (a : Assembly) : Assembly :=
  ⟨instructionSet, w.layout a.layout, w.statements a.pending⟩

/-- What is pulled, in other words. -/
def outcome : Except Failure Placed → Except Failure Placed := Outcome.change w.failure w.placed

/-- A statement in other words is encoded and placed as before. -/
theorem placeNext_statement (l : Layout) (s : Statement) :
    Assembly.placeNext instructionSet (w.layout l) (w.statement s) =
      Prod.map w.layout w.outcome (Assembly.placeNext instructionSet l s) := by
  rw [Assembly.placeNext, Assembly.placeNext, encode_statement]
  cases instructionSet.encode s with
  | error f => rfl
  | ok code =>
    simp only [Outcome.change_ok, place_statement]
    obtain ⟨after, outcome⟩ := l.place s code
    cases outcome <;> rfl

/-- A pull leaves the table. -/
theorem table_pull (a : Assembly) : a.pull.2.table = a.table := by
  unfold Assembly.pull
  split
  · rfl
  · rfl
  · split <;> rfl

variable {a : Assembly}

/-- A pull in other words. -/
theorem pull_assembly (language : a.table = instructionSet) :
    (w.assembly a).pull = (a.pull.1.map w.outcome, w.assembly a.pull.2) := by
  obtain ⟨table, l, items, failure⟩ := a
  obtain rfl : table = instructionSet := language
  cases items with
  | nil => cases failure <;> rfl
  | cons s rest =>
    simp only [assembly, statements, Feed.change, List.map_cons, Assembly.pull,
      placeNext_statement]
    obtain ⟨after, outcome⟩ := Assembly.placeNext instructionSet l s
    cases outcome <;> rfl

/-- So many pulls in other words. -/
theorem behind_assembly (language : a.table = instructionSet) (count : Nat) :
    (w.assembly a).behind count = w.assembly (a.behind count) ∧
      (a.behind count).table = instructionSet := by
  induction count with
  | zero => exact ⟨rfl, language⟩
  | succ count inductionHypothesis =>
    obtain ⟨same, languageHere⟩ := inductionHypothesis
    rw [Assembly.behind, Assembly.behind, same, pull_assembly w languageHere, table_pull]
    exact ⟨rfl, languageHere⟩

/-- The answers to pulls in other words. -/
theorem answer_assembly (language : a.table = instructionSet) (count : Nat) :
    (w.assembly a).answer count = (a.answer count).map w.outcome := by
  obtain ⟨same, languageHere⟩ := w.behind_assembly language count
  rw [Assembly.answer, same, pull_assembly w languageHere, Assembly.answer]

/-- Statements in other words are placed in order as before. -/
theorem placeAll_statements (l : Layout) (items : List Statement) :
    Assembly.placeAll instructionSet (w.layout l) (items.map w.statement) =
      Outcome.change w.failure (Prod.map w.layout (List.map w.placed))
        (Assembly.placeAll instructionSet l items) := by
  induction items generalizing l with
  | nil => rfl
  | cons s rest inductionHypothesis =>
    rw [List.map_cons, Assembly.placeAll, Assembly.placeAll, placeNext_statement]
    obtain ⟨after, outcome⟩ := Assembly.placeNext instructionSet l s
    cases outcome with
    | error f => rfl
    | ok placed =>
      simp only [Prod.map, Rewording.outcome, Outcome.change_ok, inductionHypothesis]
      cases Assembly.placeAll instructionSet after rest <;> rfl

/-- Finishing in other words. -/
theorem finish_assembly (language : a.table = instructionSet) :
    (w.assembly a).finish = Outcome.change w.failure w.program a.finish := by
  obtain ⟨table, l, items, failure⟩ := a
  obtain rfl : table = instructionSet := language
  simp only [assembly, statements, Feed.change, Assembly.finish, placeAll_statements]
  cases Assembly.placeAll instructionSet l items with
  | error f => rfl
  | ok result =>
    simp only [Outcome.change_ok, Prod.map]
    cases failure <;> rfl

end BankAsm.Rewording
