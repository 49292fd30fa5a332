import BankAsm.Program.Resolve

/-!
# Where walks lead

A walk that ends at a byte has stepped from statement to statement, none of them a
directive, and the byte is the address of the last one (`exists_goal_of_walk`). How far
it went in bytes is the `Program.extent` of the statements that it passed.
-/

namespace BankAsm

/-- So many steps in a direction lead from one number to another. -/
def Direction.Leads (direction : Direction) (index steps goal : Nat) : Prop :=
  match direction with
  | .backward => goal + steps = index
  | .forward => index + steps = goal

/-- The next number is one step away. -/
theorem Direction.leads_of_next? {direction : Direction} {count index next : Nat}
    (step : direction.next? count index = some next) : direction.Leads index 1 next := by
  cases direction with
  | backward =>
    simp only [next?] at step
    split at step
    · cases step
    · cases step
      simp only [Leads]
      omega
  | forward =>
    simp only [next?] at step
    split at step
    · cases step
      rfl
    · cases step

namespace Program

/-- Whether a number is that of an instruction. -/
def HasInstruction (placed : List Placed) (number : Nat) : Prop :=
  ∃ p, placed[number]? = some p ∧ p.statement.isDirective = false

/-- A walk that ends at a byte leads to the statement with this address, over
instructions only. -/
theorem exists_goal_of_walk {placed : List Placed} {direction : Direction} {position : Position}
    {steps index : Nat} {value : UInt8}
    (walked : walk placed direction position steps index = .ok value) :
    ∃ goal target, direction.Leads index steps goal ∧ placed[goal]? = some target ∧
      value = UInt8.ofNat target.address ∧
      ∀ number, number ≠ index → min index goal ≤ number → number ≤ max index goal →
        HasInstruction placed number := by
  induction steps generalizing index with
  | zero =>
    unfold walk at walked
    split at walked
    case h_2 => cases walked
    case h_1 target found =>
      cases walked
      refine ⟨index, target, ?_, found, rfl, ?_⟩
      · cases direction <;> rfl
      · intro number other low high
        omega
  | succ steps inductionHypothesis =>
    unfold walk at walked
    simp only at walked
    split at walked
    case h_1 => cases walked
    case h_2 next step =>
      split at walked
      case h_1 => cases walked
      case h_2 neighbour found =>
        split at walked
        case isTrue => cases walked
        case isFalse plain =>
          obtain ⟨goal, target, leads, foundTarget, byte, passed⟩ := inductionHypothesis walked
          have first := Direction.leads_of_next? step
          refine ⟨goal, target, ?_, foundTarget, byte, ?_⟩
          · cases direction <;> simp only [Direction.Leads] at first leads ⊢ <;> omega
          · intro number other low high
            by_cases isNext : number = next
            · rw [isNext]
              exact ⟨neighbour, found, by simpa using plain⟩
            · refine passed number isNext ?_ ?_
              all_goals
                cases direction <;> simp only [Direction.Leads] at first leads <;> omega

/-- How many octets the statements from one number up to another have, the last one not
counted. -/
def extent (placed : List Placed) (low high : Nat) : Nat :=
  (((placed.take high).drop low).flatMap fun p => p.code).length

/-- Nothing stands between a number and itself. -/
@[simp] theorem extent_self (placed : List Placed) (low : Nat) : extent placed low low = 0 := by
  simp [extent]

/-- One more statement at the end adds its own bytes. -/
theorem extent_succ {placed : List Placed} {low high : Nat} {p : Placed} (ordered : low ≤ high)
    (found : placed[high]? = some p) :
    extent placed low (high + 1) = extent placed low high + p.code.length := by
  have inside := (List.getElem?_eq_some_iff.mp found).1
  have long : low ≤ (placed.take high).length := by
    rw [List.length_take]
    omega
  unfold extent
  rw [List.take_add_one, found, List.drop_append_of_le_length long]
  simp

end Program

end BankAsm
