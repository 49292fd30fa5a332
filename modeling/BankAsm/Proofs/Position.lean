import BankAsm.Position
import Mathlib.Data.List.Induction

/-!
# Counting positions

A position behind some text has its line from the newlines of the text, and its
column from what stands behind the last of them (`start_after`). Text that stands
some lines further down has all its positions moved by as many lines.
-/

namespace BankAsm.Position

/-- The same column, some lines further down. -/
def down (lines : Nat) (position : Position) : Position :=
  ⟨position.line + lines, position.column⟩

theorem step_down (lines : Nat) (position : Position) (c : Char) :
    (position.down lines).step c = (position.step c).down lines := by
  by_cases newline : c = '\n'
  · simp only [step, newline, if_true, down, Position.mk.injEq, and_true]
    omega
  · simp [step, newline, down]

theorem after_down (lines : Nat) (position : Position) (passed : List Char) :
    (position.down lines).after passed = (position.after passed).down lines := by
  induction passed generalizing position with
  | nil => rfl
  | cons c passed inductionHypothesis =>
    rw [after_cons, after_cons, step_down, inductionHypothesis]

/-- The line and the column behind a text: one more than it has newlines, and one
more than it has characters behind the last of them. -/
theorem start_after (passed : List Char) :
    start.after passed =
      ⟨1 + passed.count '\n', 1 + (passed.reverse.takeWhile (· ≠ '\n')).length⟩ := by
  induction passed using List.reverseRecOn with
  | nil => rfl
  | append_singleton passed c inductionHypothesis =>
    rw [after_append, inductionHypothesis]
    by_cases newline : c = '\n'
    · subst newline
      simp [step]
      omega
    · simp [step, newline]
      omega

/-- A newline leads to the start of a line. -/
theorem step_newline_of_start_after (passed : List Char) :
    (start.after passed).step '\n' = start.down (1 + passed.count '\n') := by
  rw [start_after]
  simp only [step, if_true, down, start, Position.mk.injEq, and_true]
  omega

end BankAsm.Position
