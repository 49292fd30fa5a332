import BankAsm.Proofs.Outcome
import BankAsm.Proofs.Program.Mirror
import BankAsm.Proofs.Program.Suffix

/-!
# Directives in front of a program

Directives without octets in front of a program shift the numbers of its statements and
nothing else (`Program.mirrors_front`). A walk that would fall off the start of the program
meets one of them instead, which is a bad step as well.
-/

namespace BankAsm

/-- The cell with a later number. -/
def Cell.later (count : Nat) (cell : Cell) : Cell := { cell with index := count + cell.index }

namespace Program

variable {placed : List Placed} {first : Nat}

/-- A walk with directives in front leads where it leads without them, or is a bad step
both ways. -/
theorem walk_behind_directives (directives : ∀ p ∈ placed.take first, p.statement.isDirective)
    (direction : Direction) (position : Position) (steps : Nat) {index : Nat}
    (inside : first + index < placed.length) :
    Outcome.Related Eq Failure.SameKind
      (walk (placed.drop first) direction position steps index)
      (walk placed direction position steps (first + index)) := by
  induction steps generalizing index with
  | zero =>
    simp only [walk, List.getElem?_drop, List.getElem?_eq_getElem inside]
    exact .ok rfl
  | succ steps inductionHypothesis =>
    rw [walk, walk]
    rcases next?_drop_cases direction inside with
      ⟨next, here, there⟩ | ⟨here, there | ⟨gone, there, atStart⟩⟩
    · have further := Direction.next?_lt inside there
      simp only [here, there, List.getElem?_drop, List.getElem?_eq_getElem further]
      split
      · exact .error rfl
      · exact inductionHypothesis further
    · rw [here, there]
      exact .error rfl
    · have found := Direction.next?_lt inside there
      have among : placed[gone] ∈ placed.take first :=
        List.mem_take_iff_getElem.mpr ⟨gone, by omega, rfl⟩
      simp only [here, there, List.getElem?_eq_getElem found, directives _ among, if_true]
      exact .error rfl

/-- The cells of statements with later numbers. -/
theorem cellsFrom_later (count index : Nat) (placed : List Placed) :
    cellsFrom (count + index) 0 placed = (cellsFrom index 0 placed).map (Cell.later count) := by
  induction placed generalizing index with
  | nil => rfl
  | cons next rest inductionHypothesis =>
    have cells : next.cells (count + index) = (next.cells index).map (Cell.later count) := by
      simp [Placed.cells, Cell.later, Function.comp_def]
    simp only [cellsFrom, List.drop_zero, List.map_append, cells, Nat.add_assoc,
      inductionHypothesis]

/-- Statements without octets have no cells. -/
theorem cellsFrom_of_empty {front : List Placed} (empty : ∀ p ∈ front, p.code = [])
    (index : Nat) : cellsFrom index 0 front = [] := by
  induction front generalizing index with
  | nil => rfl
  | cons p front inductionHypothesis =>
    obtain ⟨here, others⟩ := List.forall_mem_cons.mp empty
    have nothing : p.cells index = [] := by simp [Placed.cells, here]
    rw [cellsFrom, nothing, List.drop_nil, List.nil_append, inductionHypothesis others]

/-- Directives without octets in front of a program leave its bytes. -/
theorem mirrors_front {program : Program} {front : List Placed}
    (directives : ∀ p ∈ front, p.statement.isDirective) (empty : ∀ p ∈ front, p.code = []) :
    program.Mirrors Failure.SameKind { program with placed := front ++ program.placed } := by
  refine mirrors_of_map (Cell.later front.length) rfl ?_ ?_ rfl
  · simp only [Program.cells, flatMap_zipIdx_cells]
    rw [cellsFrom_append, cellsFrom_of_empty empty, List.nil_append, Nat.add_comm 0,
      cellsFrom_later]
  · intro cell member
    have inside := (List.getElem?_eq_some_iff.mp (mem_cells member).1).1
    have shifted : front.length + cell.index < (front ++ program.placed).length := by
      simpa using inside
    have taken : ∀ p ∈ (front ++ program.placed).take front.length, p.statement.isDirective := by
      simpa using directives
    exact {
      place := rfl
      resolve := by
        simp only [resolveCell, Cell.later]
        cases cell.octet with
        | byte value => exact .ok rfl
        | label name position =>
          simp only [resolve]
          cases program.labels.find? name with
          | none => exact .error rfl
          | some value => exact .ok rfl
        | vector direction steps position =>
          simpa [resolve] using walk_behind_directives taken direction position steps shifted
      overlap := rfl }

end Program

end BankAsm
