import BankAsm.Proofs.Program.Agreement
import Mathlib.Data.List.Forall2

/-!
# Programs with the same cells

One program mirrors another when their cells lie at the same places and have the same bytes,
and where a cell of one fails, the other one fails in a related way
(`Program.Mirrors`). Then so do their flat bytes and their images: they are the same, up
to related failures (`Mirrors.flat`, `Mirrors.images`). The bytes of vectors depend on the
statements around them, of which they see addresses and directives only (`walk_related`).
-/

namespace BankAsm

/-- Feeds of the same items with related failures, if any. -/
structure Feed.Related {ε δ α : Type} (errors : ε → δ → Prop) (feed : Feed ε α)
    (other : Feed δ α) : Prop where
  items : other.items = feed.items
  failure : Option.Rel errors feed.failure other.failure

section Answers

variable {ε δ α : Type} {errors : ε → δ → Prop}

/-- Related answers up to their first errors. -/
theorem throughFirstError_related {answers : List (Except ε α)} {others : List (Except δ α)}
    (related : List.Forall₂ (Outcome.Related Eq errors) answers others) :
    List.Forall₂ (Outcome.Related Eq errors) (throughFirstError answers)
      (throughFirstError others) := by
  induction related with
  | nil => exact .nil
  | cons here _ inductionHypothesis =>
    cases here with
    | ok same => exact .cons (.ok same) inductionHypothesis
    | error same => exact .cons (.error same) .nil

/-- Feeds are related if their answers are. -/
theorem Feed.related_of_answers {feed : Feed ε α} {other : Feed δ α}
    (related : List.Forall₂ (Outcome.Related Eq errors) feed.answers other.answers) :
    feed.Related errors other := by
  obtain ⟨items, failure⟩ := feed
  obtain ⟨othersItems, otherFailure⟩ := other
  simp only [Feed.answers] at related
  induction items generalizing othersItems with
  | nil =>
    cases failure with
    | none =>
      have nothing := List.forall₂_nil_left_iff.mp related
      obtain ⟨rfl, rfl⟩ : othersItems = [] ∧ otherFailure = none := by simpa using nothing
      exact ⟨rfl, .none⟩
    | some e =>
      cases othersItems with
      | cons first rest =>
        obtain ⟨here, _⟩ := List.forall₂_cons.mp related
        cases here
      | nil =>
        cases otherFailure with
        | none => cases related
        | some f =>
          obtain ⟨here, _⟩ := List.forall₂_cons.mp related
          cases here with
          | error same => exact ⟨rfl, .some same⟩
  | cons first rest inductionHypothesis =>
    cases othersItems with
    | nil =>
      cases otherFailure with
      | none => cases related
      | some f =>
        obtain ⟨here, _⟩ := List.forall₂_cons.mp related
        cases here
    | cons second others =>
      obtain ⟨here, behind⟩ := List.forall₂_cons.mp related
      obtain ⟨sameItems, sameFailure⟩ := inductionHypothesis others behind
      cases here with
      | ok same => exact ⟨congrArg₂ List.cons same.symm sameItems, sameFailure⟩

/-- Related feeds are equal if one of them does not break off. -/
theorem Feed.Related.eq_of_unbroken {errors : ε → ε → Prop} {feed other : Feed ε α}
    (related : feed.Related errors other)
    (unbroken : feed.failure = none ∨ other.failure = none) : other = feed := by
  have same := related.failure
  refine congrArg₂ Feed.mk related.items ?_
  generalize feed.failure = e, other.failure = f at same unbroken ⊢
  cases same with
  | none => rfl
  | some => simp at unbroken

/-- Feeds that are both related to a third one are related. -/
theorem Feed.Related.trans {ζ : Type} {others : δ → ζ → Prop} {everything : ε → ζ → Prop}
    {feed : Feed ε α} {second : Feed δ α} {third : Feed ζ α} (related : feed.Related errors second)
    (relatedToo : second.Related others third)
    (compose : ∀ e f g, errors e f → others f g → everything e g) :
    feed.Related everything third where
  items := relatedToo.items.trans related.items
  failure := by
    have first := related.failure
    have next := relatedToo.failure
    generalize feed.failure = e, second.failure = f, third.failure = g at first next ⊢
    cases first with
    | none =>
      cases next with
      | none => exact .none
    | some same =>
      cases next with
      | some sameToo => exact .some (compose _ _ _ same sameToo)

end Answers

namespace Program

/-- What a walk looks at in statements is the same in both. -/
structure AlikeForWalks (placed other : Placed) : Prop where
  isDirective : other.statement.isDirective = placed.statement.isDirective
  address : other.address = placed.address

/-- A walk among statements that are alike for it leads where it led, or is a bad step of the
same kind. -/
theorem walk_related {errors : Failure → Failure → Prop} {placed others : List Placed}
    (alike : List.Forall₂ AlikeForWalks placed others) (direction : Direction)
    {position other : Position} (stuck : errors .stuck .stuck)
    (badStep : ∀ isLast obstacle, errors (.reported ⟨.badStep isLast obstacle, position⟩)
      (.reported ⟨.badStep isLast obstacle, other⟩))
    (steps index : Nat) :
    Outcome.Related Eq errors (walk placed direction position steps index)
      (walk others direction other steps index) := by
  have length := alike.length_eq
  have beside (number : Nat) : Option.Rel AlikeForWalks placed[number]? others[number]? := by
    by_cases inside : number < placed.length
    · have insideToo : number < others.length := length ▸ inside
      rw [List.getElem?_eq_getElem inside, List.getElem?_eq_getElem insideToo]
      exact .some (alike.get inside insideToo)
    · rw [List.getElem?_eq_none (Nat.not_lt.mp inside),
        List.getElem?_eq_none (length ▸ Nat.not_lt.mp inside)]
      exact .none
  induction steps generalizing index with
  | zero =>
    have here := beside index
    rw [walk, walk]
    generalize placed[index]? = found, others[index]? = foundToo at here
    cases here with
    | none => exact .error stuck
    | some same => exact .ok (by rw [same.address])
  | succ steps inductionHypothesis =>
    rw [walk, walk, ← length]
    cases direction.next? placed.length index with
    | none => exact .error (badStep _ _)
    | some next =>
      have here := beside next
      simp only
      generalize placed[next]? = found, others[next]? = foundToo at here
      cases here with
      | none => exact .error stuck
      | @some neighbour neighbourToo same =>
        simp only [same.isDirective]
        by_cases directive : neighbour.statement.isDirective
        · simp only [directive, if_true]
          exact .error (badStep _ _)
        · simp only [directive, Bool.false_eq_true, if_false]
          exact inductionHypothesis next

variable {errors : Failure → Failure → Prop} {first second : Program}

/-- A cell of one program beside a cell of another: at the same place, with the same byte,
or with related failures. -/
structure SameCell (errors : Failure → Failure → Prop) (first second : Program)
    (cell other : Cell) : Prop where
  place : other.place = cell.place
  resolve : Outcome.Related Eq errors (first.resolveCell cell) (second.resolveCell other)
  overlap : errors (.reported (overlap cell)) (.reported (overlap other))

/-- Programs with as many banks and the same cells, up to related failures. -/
structure Mirrors (errors : Failure → Failure → Prop) (first second : Program) : Prop where
  banks : second.banks = first.banks
  cells : List.Forall₂ (SameCell errors first second) first.cells second.cells
  stuck : errors .stuck .stuck

/-- A program mirrors another one whose cells are those of the first, changed. -/
theorem mirrors_of_map (change : Cell → Cell) (banks : second.banks = first.banks)
    (cells : second.cells = first.cells.map change)
    (same : ∀ cell ∈ first.cells, SameCell errors first second cell (change cell))
    (stuck : errors .stuck .stuck) : Mirrors errors first second where
  banks := banks
  cells := by
    rw [cells, List.forall₂_map_right_iff, List.forall₂_same]
    exact same
  stuck := stuck

/-- The same flat bytes, and related failures behind them. -/
theorem Mirrors.flat (mirrors : Mirrors errors first second) :
    first.flat.Related errors second.flat := by
  apply Feed.related_of_answers
  rw [answers_flat, answers_flat]
  apply throughFirstError_related
  rw [answers, answers]
  exact List.forall₂_map_left_iff.mpr (List.forall₂_map_right_iff.mpr
    (mirrors.cells.imp fun _ _ same => same.resolve))

/-- Writing the same cells into the same memory gives the same memory, or related
failures. -/
theorem writeAll_related (stuck : errors .stuck .stuck) {cells others : List Cell}
    (same : List.Forall₂ (SameCell errors first second) cells others) (memory : Memory) :
    Outcome.Related Eq errors (first.writeAll memory cells) (second.writeAll memory others) := by
  induction same generalizing memory with
  | nil => exact .ok rfl
  | @cons cell other _ _ here _ inductionHypothesis =>
    have bank : other.owner.bank = cell.owner.bank := congrArg Place.bank here.place
    have address : other.address = cell.address := congrArg Place.address here.place
    have resolve := here.resolve
    rw [resolveCell, resolveCell] at resolve
    rw [writeAll, writeAll, bank, address]
    generalize first.resolve cell.index cell.octet = resolved at resolve
    generalize second.resolve other.index other.octet = resolvedToo at resolve
    cases resolve with
    | error failed => exact .error failed
    | @ok value _ equal =>
      subst equal
      cases memory.read? cell.owner.bank cell.address with
      | none => exact .error stuck
      | some filled =>
        cases filled with
        | none => exact inductionHypothesis _
        | some _ => exact .error here.overlap

/-- The same images, or related failures. -/
theorem Mirrors.images (mirrors : Mirrors errors first second) (fill : UInt8) :
    Outcome.Related Eq errors (first.images fill) (second.images fill) := by
  rw [Program.images, Program.images, mirrors.banks]
  exact (writeAll_related mirrors.stuck mirrors.cells _).map fun _ _ equal => by rw [equal]

end Program

end BankAsm
