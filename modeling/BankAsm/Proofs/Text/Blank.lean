import BankAsm.Text.Blank

/-!
# What a trim leaves

A trimmed text is empty or has no white space at its two ends (`ends_of_trim`), and a
text without white space at its ends is trimmed already (`trim_eq_self`).
-/

namespace BankAsm.Text

/-- Whether a text has no white space at its front. -/
def startsFull (cs : List Char) : Prop := ∀ c ∈ cs.head?, isBlank c = false

/-- Whether a text has no white space at its end. -/
def endsFull (cs : List Char) : Prop := ∀ c ∈ cs.getLast?, isBlank c = false

/-- Nothing is taken off a text that does not end in white space. -/
theorem trimEnd_eq_self {cs : List Char} (full : endsFull cs) : trimEnd cs = cs := by
  induction cs with
  | nil => rfl
  | cons c cs inductionHypothesis =>
    cases cs with
    | nil =>
      have ends : isBlank c = false := full c rfl
      simp [trimEnd, ends]
    | cons d ds =>
      have rest : trimEnd (d :: ds) = d :: ds := inductionHypothesis full
      rw [trimEnd, rest]

/-- What is left at the front does not end in white space. -/
theorem endsFull_trimEnd (cs : List Char) : endsFull (trimEnd cs) := by
  induction cs with
  | nil => simp [trimEnd, endsFull]
  | cons c cs inductionHypothesis =>
    unfold trimEnd
    split
    case h_1 =>
      split
      case isTrue => simp [endsFull]
      case isFalse full => simpa [endsFull] using full
    case h_2 kept something =>
      rw [endsFull, List.getLast?_cons_of_ne_nil something]
      exact inductionHypothesis

/-- The end of a text is taken off behind its first character, or all of it. -/
theorem head?_trimEnd (cs : List Char) : ∀ c ∈ (trimEnd cs).head?, c ∈ cs.head? := by
  cases cs with
  | nil => simp [trimEnd]
  | cons c cs =>
    unfold trimEnd
    split
    · split <;> simp
    · simp

theorem startsFull_dropWhile (cs : List Char) : startsFull (cs.dropWhile isBlank) := by
  intro c first
  have full := List.head?_dropWhile_not isBlank cs
  rw [Option.mem_def.mp first] at full
  simpa using full

/-- A trimmed text has no white space at its front. -/
theorem startsFull_trim (cs : List Char) : startsFull (trim cs) := by
  intro c first
  exact startsFull_dropWhile cs c (head?_trimEnd _ c first)

/-- A trimmed text has no white space at its end. -/
theorem endsFull_trim (cs : List Char) : endsFull (trim cs) := endsFull_trimEnd _

/-- A text without white space at its ends is trimmed. -/
theorem trim_eq_self {cs : List Char} (front : startsFull cs) (back : endsFull cs) :
    trim cs = cs := by
  have kept : cs.dropWhile isBlank = cs := by
    cases cs with
    | nil => rfl
    | cons c cs => rw [List.dropWhile_cons_of_neg (by simp [front c rfl])]
  rw [trim, kept, trimEnd_eq_self back]

end BankAsm.Text
