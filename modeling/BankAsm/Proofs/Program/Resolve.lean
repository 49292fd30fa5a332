import BankAsm.Program.Resolve

/-!
# Resolving is never stuck

A walk that starts at a statement of the program only visits statements of the
program, so an octet of one of its statements has a byte or a diagnostic.
-/

namespace BankAsm

/-- A neighbour is a statement of the program. -/
theorem Direction.next?_lt {direction : Direction} {count index next : Nat}
    (inside : index < count) (step : direction.next? count index = some next) : next < count := by
  cases direction with
  | backward =>
    simp only [next?] at step
    split at step
    · cases step
    · cases step
      omega
  | forward =>
    simp only [next?] at step
    split at step
    · cases step
      assumption
    · cases step

namespace Program

/-- A walk from a statement of the program ends at a byte or in a diagnostic. -/
theorem walk_ne_stuck {placed : List Placed} (direction : Direction) (position : Position)
    (steps : Nat) {index : Nat} (inside : index < placed.length) :
    walk placed direction position steps index ≠ .error .stuck := by
  induction steps generalizing index with
  | zero => simp [walk, List.getElem?_eq_getElem inside]
  | succ steps inductionHypothesis =>
    unfold walk
    cases step : direction.next? placed.length index with
    | none => simp
    | some next =>
      have further := Direction.next?_lt inside step
      simp only [List.getElem?_eq_getElem further]
      split
      · simp
      · exact inductionHypothesis further

/-- An octet of a statement of the program has a byte or a diagnostic. -/
theorem resolve_ne_stuck {program : Program} {index : Nat}
    (inside : index < program.placed.length) (octet : Octet) :
    program.resolve index octet ≠ .error .stuck := by
  cases octet with
  | byte value => simp [resolve]
  | label name position =>
    cases found : program.labels.find? name <;> simp [resolve, found]
  | vector direction steps position => exact walk_ne_stuck direction position steps inside

end Program

end BankAsm
