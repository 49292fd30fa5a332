import BankAsm.Proofs.Outcome
import BankAsm.Proofs.Program.Mirror
import BankAsm.Proofs.Program.Reach

/-!
# Data in two parts

A walk sees the statements on its way up to the next directive and nothing behind it, so it
leads to the same address wherever these statements stand between directives
(`walk_between`). Data are a directive, and their octets are no vectors. So a program may have
the octets of data in two statements instead of one, with all its bytes at their places
(`mirrors_of_splits`).
-/

namespace BankAsm

/-- Data in two statements: the octets of a statement without vectors, in two directives at the
places that they had. -/
structure Placed.Splits (p left right : Placed) : Prop where
  directive : p.statement.isDirective
  leftDirective : left.statement.isDirective
  rightDirective : right.statement.isDirective
  start : left.start = p.start
  adjacent : right.start = left.stop
  code : p.code = left.code ++ right.code
  settled : ∀ direction steps position, .vector direction steps position ∉ p.code

namespace Program

variable {position : Position}

section Walks

/-- Where a walk from a statement leads along the statements that it meets. -/
def walkAlong (position : Position) (start : Placed) :
    Nat → List Placed → Except Failure UInt8
  | 0, _ => .ok (UInt8.ofNat start.address)
  | more + 1, [] => .error (.reported ⟨.badStep (more == 0) .emptySpace, position⟩)
  | more + 1, next :: rest =>
    if next.statement.isDirective then
      .error (.reported ⟨.badStep (more == 0) .directive, position⟩)
    else walkAlong position next more rest

/-- A walk leads along the neighbours of the statement that it starts from. -/
theorem walk_eq_walkAlong {placed : List Placed} {direction : Direction} {steps index : Nat}
    {start : Placed} (here : placed[index]? = some start) :
    walk placed direction position steps index =
      walkAlong position start steps (neighbours placed direction index) := by
  induction steps generalizing index start with
  | zero => simp [walk, walkAlong, here]
  | succ more inductionHypothesis =>
    have inside := (List.getElem?_eq_some_iff.mp here).1
    rw [walk]
    rcases neighbours_cases direction inside with ⟨step, nothing⟩ | ⟨next, p, step, found, split⟩
    · simp only [step, nothing, walkAlong]
    · simp only [step, found, split, walkAlong, inductionHypothesis found]

/-- Surroundings that no walk tells apart: nothing, or a directive and what it hides. -/
inductive Walled : List Placed → List Placed → Prop where
  | nothing : Walled [] []
  | directive {p q rest restToo}
      (left : p.statement.isDirective = true) (right : q.statement.isDirective = true) :
      Walled (p :: rest) (q :: restToo)

/-- A walk leads along statements as far as the next directive. -/
theorem walkAlong_of_walled {rest restToo : List Placed} (walled : Walled rest restToo)
    (met : List Placed) (start : Placed) (steps : Nat) :
    walkAlong position start steps (met ++ rest) =
      walkAlong position start steps (met ++ restToo) := by
  induction steps generalizing start met with
  | zero => simp [walkAlong]
  | succ more inductionHypothesis =>
    cases met with
    | nil =>
      cases walled with
      | nothing => rfl
      | directive left right => simp [walkAlong, left, right]
    | cons next met =>
      simp only [List.cons_append, walkAlong]
      rw [inductionHypothesis met next]

variable {front frontToo back backToo : List Placed}

/-- The neighbours of a statement among others: those in the middle, and those around them. -/
theorem neighbours_between (direction : Direction) (front middle back : List Placed)
    {index : Nat} (inside : index < middle.length) :
    neighbours (front ++ (middle ++ back)) direction (front.length + index) =
      neighbours middle direction index ++
        match direction with
        | .backward => front.reverse
        | .forward => back := by
  cases direction with
  | backward =>
    simp only [neighbours, List.take_length_add_append,
      List.take_append_of_le_length (Nat.le_of_lt inside), List.reverse_append]
  | forward =>
    simp only [neighbours, Nat.add_assoc, List.drop_length_add_append,
      List.drop_append_of_le_length (Nat.succ_le_of_lt inside)]

/-- A walk leads to the same address wherever its statements stand between directives. -/
theorem walk_between (before : Walled front.reverse frontToo.reverse)
    (behind : Walled back backToo) (middle : List Placed) (direction : Direction) (steps : Nat)
    {index : Nat} (inside : index < middle.length) :
    walk (front ++ (middle ++ back)) direction position steps (front.length + index) =
      walk (frontToo ++ (middle ++ backToo)) direction position steps
        (frontToo.length + index) := by
  have here (first last : List Placed) :
      (first ++ (middle ++ last))[first.length + index]? = some middle[index] := by
    rw [List.getElem?_append_right (Nat.le_add_right _ _), Nat.add_sub_cancel_left,
      List.getElem?_append_left inside, List.getElem?_eq_getElem inside]
  rw [walk_eq_walkAlong (here front back), walk_eq_walkAlong (here frontToo backToo),
    neighbours_between direction front middle back inside,
    neighbours_between direction frontToo middle backToo inside]
  cases direction with
  | backward => exact walkAlong_of_walled before _ _ _
  | forward => exact walkAlong_of_walled behind _ _ _

end Walks

section Cells

variable {first second : Program} {front frontToo middle back backToo : List Placed}

/-- An octet has the same byte wherever its statement stands between directives. -/
theorem resolve_between (labels : second.labels = first.labels)
    (whole : first.placed = front ++ (middle ++ back))
    (wholeToo : second.placed = frontToo ++ (middle ++ backToo))
    (before : Walled front.reverse frontToo.reverse) (behind : Walled back backToo) {index : Nat}
    (inside : index < middle.length) (octet : Octet) :
    second.resolve (frontToo.length + index) octet =
      first.resolve (front.length + index) octet := by
  cases octet with
  | byte value => rfl
  | label name position => simp only [resolve, labels]
  | vector direction steps position =>
    simp only [resolve, whole, wholeToo]
    exact (walk_between before behind middle direction steps inside).symm

/-- An octet that is no vector has the same byte everywhere. -/
theorem resolve_of_settled (labels : second.labels = first.labels) {octet : Octet}
    (settled : ∀ direction steps position, octet ≠ .vector direction steps position)
    (index indexToo : Nat) : second.resolve indexToo octet = first.resolve index octet := by
  cases octet with
  | byte value => rfl
  | label name position => simp only [resolve, labels]
  | vector direction steps position => exact absurd rfl (settled direction steps position)

/-- Cells at one place with an octet of the same byte are the same cell. -/
theorem sameCell_of_resolve {cell other : Cell} (place : other.place = cell.place)
    (same : second.resolveCell other = first.resolveCell cell) :
    SameCell Failure.SameKind first second cell other where
  place := place
  resolve := by
    rw [same]
    cases first.resolveCell cell with
    | ok value => exact .ok rfl
    | error failure => exact .error rfl
  overlap := rfl

/-- The cells of statements whose octets have the same bytes under other numbers. -/
theorem cellsFrom_sameCell {placed : List Placed} {index indexToo : Nat}
    (same : ∀ number < placed.length, ∀ octet,
      second.resolve (indexToo + number) octet = first.resolve (index + number) octet) :
    List.Forall₂ (SameCell Failure.SameKind first second) (cellsFrom index 0 placed)
      (cellsFrom indexToo 0 placed) := by
  induction placed generalizing index indexToo with
  | nil => exact .nil
  | cons p rest inductionHypothesis =>
    refine List.rel_append ?_ (inductionHypothesis fun number inside octet => ?_)
    · rw [List.drop_zero, List.drop_zero, Placed.cells, Placed.cells, List.forall₂_map_left_iff,
        List.forall₂_map_right_iff, List.forall₂_same]
      exact fun slot _ => sameCell_of_resolve rfl (same 0 (by simp) slot.1)
    · have later := same (number + 1) (by simpa using inside) octet
      rwa [Nat.add_right_comm, Nat.add_assoc, Nat.add_right_comm index, Nat.add_assoc index]

variable {p left right : Placed}

/-- The cells of data in two statements. -/
theorem cells_of_splits (labels : second.labels = first.labels) (splits : p.Splits left right)
    (index leftIndex rightIndex : Nat) :
    List.Forall₂ (SameCell Failure.SameKind first second) (p.cells index)
      (left.cells leftIndex ++ right.cells rightIndex) := by
  have settled : ∀ slot ∈ left.code ++ right.code, ∀ direction steps position,
      slot ≠ .vector direction steps position := by
    rintro slot member direction steps position rfl
    rw [← splits.code] at member
    exact splits.settled direction steps position member
  obtain ⟨bank, address⟩ := Place.mk.inj splits.start
  obtain ⟨rightBank, rightAddress⟩ := Place.mk.inj splits.adjacent
  rw [Placed.cells, splits.code, List.zipIdx_append, List.map_append]
  refine List.rel_append ?_ ?_
  · rw [Placed.cells, List.forall₂_map_left_iff, List.forall₂_map_right_iff, List.forall₂_same]
    intro slot member
    have among : slot.1 ∈ left.code := List.fst_mem_of_mem_zipIdx member
    refine sameCell_of_resolve (Place.ext bank ?_)
      (resolve_of_settled labels (settled _ (List.mem_append_left _ among)) _ _)
    simp only [Cell.place, address]
  · rw [Placed.cells, Nat.zero_add, List.zipIdx_eq_map_add, List.map_map,
      List.forall₂_map_left_iff, List.forall₂_map_right_iff, List.forall₂_same]
    intro slot member
    have among : slot.1 ∈ right.code := List.fst_mem_of_mem_zipIdx member
    refine sameCell_of_resolve (Place.ext (rightBank.trans bank) ?_)
      (resolve_of_settled labels (settled _ (List.mem_append_right _ among)) _ _)
    simp only [Cell.place, Function.comp_apply, rightAddress, address, Nat.add_assoc]

/-- A program has the same bytes at the same places with data in two statements. -/
theorem mirrors_of_splits (labels : second.labels = first.labels)
    (banks : second.banks = first.banks) (splits : p.Splits left right)
    (whole : first.placed = front ++ p :: back)
    (wholeToo : second.placed = front ++ left :: right :: back) :
    first.Mirrors Failure.SameKind second where
  banks := banks
  cells := by
    have inFront : ∀ number < front.length, ∀ octet,
        second.resolve (0 + number) octet = first.resolve (0 + number) octet := by
      have here : first.placed = [] ++ (front ++ p :: back) := whole
      have there : second.placed = [] ++ (front ++ left :: right :: back) := wholeToo
      exact fun number inside octet => resolve_between labels here there .nothing
        (.directive splits.directive splits.leftDirective) inside octet
    have behind : ∀ number < back.length, ∀ octet,
        second.resolve (front.length + 1 + 1 + number) octet =
          first.resolve (front.length + 1 + number) octet := by
      have here : first.placed = (front ++ [p]) ++ (back ++ []) := by simp [whole]
      have there : second.placed = (front ++ [left, right]) ++ (back ++ []) := by simp [wholeToo]
      have walled : Walled (front ++ [p]).reverse (front ++ [left, right]).reverse := by
        simp only [List.reverse_append, List.reverse_cons, List.reverse_nil, List.nil_append,
          List.cons_append]
        exact .directive splits.directive splits.rightDirective
      intro number inside octet
      have same := resolve_between labels here there walled .nothing inside octet
      simpa using same
    simp only [Program.cells, flatMap_zipIdx_cells, whole, wholeToo, cellsFrom_append,
      cellsFrom, List.drop_zero, Nat.zero_add]
    refine List.rel_append (cellsFrom_sameCell inFront) ?_
    rw [← List.append_assoc (left.cells _)]
    exact List.rel_append (cells_of_splits labels splits _ _ _) (cellsFrom_sameCell behind)
  stuck := rfl

end Cells

end Program

end BankAsm
