import BankAsm.Feed
import BankAsm.Proofs.Outcome
import Mathlib.Data.List.Forall2

/-!
# Readings of lists

What a reading gives of a list whose front has results is the results, and then what it
gives of the rest. When more is read, a feed stays the same or is in front of what is read
then (`Feed.Extends`). The items and the failure of a feed can be changed (`Feed.change`).
-/

namespace BankAsm.Feed

variable {ε δ α β γ ζ : Type} {read : α → Except ε (Option β)}

/-- Results in front of what is read of the rest. -/
theorem ofResults_append {front : List α} {items : List β}
    (results : List.Forall₂ (fun a b => read a = .ok (some b)) front items) (rest : List α) :
    ofResults read (front ++ rest) =
      ⟨items ++ (ofResults read rest).items, (ofResults read rest).failure⟩ := by
  induction results with
  | nil => rfl
  | cons first _ inductionHypothesis =>
    rw [List.cons_append, ofResults, first]
    simp only [inductionHypothesis]
    rfl

/-- A failure in front breaks the reading off. -/
theorem ofResults_cons_of_error {a : α} {e : ε} (fails : read a = .error e) (rest : List α) :
    ofResults read (a :: rest) = .fail e := by
  rw [ofResults, fails]

/-- A feed of more than what another one was read of: the same, or the items of one that
does not break off and what is behind them. -/
inductive Extends : Feed ε α → Feed ε α → Prop where
  | same (feed : Feed ε α) : Extends feed feed
  | further (items : List α) (behind : Feed ε α) :
      Extends ⟨items ++ behind.items, behind.failure⟩ ⟨items, none⟩

/-- The feed with its failure and its items changed. -/
def change (failures : ε → δ) (items : α → β) (feed : Feed ε α) : Feed δ β :=
  ⟨feed.items.map items, feed.failure.map failures⟩

/-- What is read of changed inputs is changed if each of its results is. -/
theorem ofResults_change {readToo : γ → Except δ (Option ζ)} (inputs : α → γ) (failures : ε → δ)
    (items : β → ζ)
    (same : ∀ a, readToo (inputs a) = Outcome.change failures (Option.map items) (read a))
    (list : List α) :
    ofResults readToo (list.map inputs) = (ofResults read list).change failures items := by
  induction list with
  | nil => rfl
  | cons a rest inductionHypothesis =>
    rw [List.map_cons, ofResults, ofResults, same]
    cases read a with
    | error e => rfl
    | ok result =>
      cases result with
      | none => rfl
      | some b =>
        simp only [Outcome.change_ok, Option.map_some, inductionHypothesis]
        rfl

end BankAsm.Feed
