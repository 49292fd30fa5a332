import BankAsm.Proofs.Token.Sound

/-!
# Slices of words

A slice of a text stands between two byte offsets. There is one only where both
offsets lie within the text, in order, and at the borders of characters.

The name of a label is its word up to the last byte, and the text of a quoted
character is its spelling between the first byte and the last. Both slices exist:
a colon and a quote have one byte.
-/

namespace BankAsm

namespace Text

/-- How many bytes a text has in UTF-8. -/
def byteLength : List Char → Nat
  | [] => 0
  | c :: cs => c.utf8Size + byteLength cs

/-- A text cut in two at a byte offset. -/
def splitAt? : List Char → Nat → Option (List Char × List Char)
  | cs, 0 => some ([], cs)
  | [], _ + 1 => none
  | c :: cs, offset + 1 =>
    if c.utf8Size ≤ offset + 1 then
      (splitAt? cs (offset + 1 - c.utf8Size)).map fun (front, back) => (c :: front, back)
    else none

/-- The slice of a text from one byte offset to another. -/
def slice? (text : List Char) (start stop : Nat) : Option (List Char) :=
  if start ≤ stop then
    (splitAt? text start).bind fun (_, behind) => (splitAt? behind (stop - start)).map (·.1)
  else none

@[simp] theorem byteLength_append (front back : List Char) :
    byteLength (front ++ back) = byteLength front + byteLength back := by
  induction front with
  | nil => simp [byteLength]
  | cons c cs inductionHypothesis =>
    simp only [List.cons_append, byteLength, inductionHypothesis]
    omega

/-- A text can be cut behind any of its fronts. -/
theorem splitAt?_append (front back : List Char) :
    splitAt? (front ++ back) (byteLength front) = some (front, back) := by
  induction front with
  | nil => simp [byteLength, splitAt?]
  | cons c cs inductionHypothesis =>
    obtain ⟨size, positive⟩ : ∃ size, c.utf8Size = size + 1 :=
      ⟨c.utf8Size - 1, by have := c.utf8Size_pos; omega⟩
    have offset : byteLength (c :: cs) = (size + byteLength cs) + 1 := by
      simp only [byteLength, positive]
      omega
    have fits : c.utf8Size ≤ size + byteLength cs + 1 := by omega
    have rest : size + byteLength cs + 1 - c.utf8Size = byteLength cs := by omega
    rw [offset, List.cons_append, splitAt?, if_pos fits, rest, inductionHypothesis]
    rfl

/-- What stands between a front and a back of a text is its slice between them. -/
theorem slice?_append (front middle back : List Char) :
    slice? (front ++ middle ++ back) (byteLength front) (byteLength (front ++ middle)) =
      some middle := by
  have ordered : byteLength front ≤ byteLength (front ++ middle) := by simp
  have width : byteLength (front ++ middle) - byteLength front = byteLength middle := by simp
  rw [slice?, if_pos ordered, width, List.append_assoc, splitAt?_append]
  simp [splitAt?_append]

end Text

open Text (byteLength slice?)

/-- The word of a label that is assigned has a slice without its last byte. -/
theorem Word.slice?_of_assignment {word : List Char} (found : kind? word = some .assignment) :
    slice? word 0 (byteLength word - 1) = some word.dropLast := by
  obtain ⟨name, rfl⟩ : ∃ name, word = name ++ [':'] := ⟨_, eq_concat_of_assignment found⟩
  have size : byteLength (name ++ [':']) - 1 = byteLength name := by
    rw [Text.byteLength_append]
    rfl
  rw [List.dropLast_concat, size]
  exact Text.slice?_append [] name [':']

/-- A quoted text has a slice without its quotes. -/
theorem Lexeme.slice?_of_quoted (inner : List Char) :
    slice? ('\'' :: inner ++ ['\'']) 1 (byteLength ('\'' :: inner ++ ['\'']) - 1) = some inner := by
  have size : byteLength ('\'' :: inner ++ ['\'']) - 1 = byteLength (['\''] ++ inner) := by
    rw [Text.byteLength_append]
    rfl
  rw [size]
  exact Text.slice?_append ['\''] inner ['\'']

end BankAsm
