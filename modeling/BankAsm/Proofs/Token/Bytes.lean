import BankAsm.Proofs.Token.Form
import BankAsm.Proofs.Token.Slice

/-!
# Bytes of a source

Every character that may stand in a source has one byte, which is its code. So texts
of such characters are as long in bytes as in characters, and the steps of a vector
are counted by either.
-/

namespace BankAsm

variable {cs : List Char}

/-- A character that may stand in a source is a newline or ASCII from the space on. -/
theorem code_of_isLegal {c : Char} (legal : isLegal c) :
    c.toNat = 10 ∨ 32 ≤ c.toNat ∧ c.toNat ≤ 127 := by
  have bounds : c = '\n' ∨ 32 ≤ c.toNat ∧ c.toNat ≤ 127 := by
    simpa [isLegal, Char.le_def, UInt32.le_iff_toNat_le, ← Char.toNat_val] using legal
  rcases bounds with rfl | inside
  · exact .inl rfl
  · exact .inr inside

/-- A character that may stand in a source has one byte. -/
theorem utf8Size_of_isLegal {c : Char} (legal : isLegal c) : c.utf8Size = 1 := by
  have code := code_of_isLegal legal
  rw [Char.utf8Size_eq_one_iff, UInt32.le_iff_toNat_le, Char.toNat_val]
  simp only [UInt32.reduceToNat]
  omega

/-- A text of such characters has as many bytes as characters. -/
theorem byteLength_eq_length (legal : ∀ c ∈ cs, isLegal c) : Text.byteLength cs = cs.length := by
  induction cs with
  | nil => rfl
  | cons c cs inductionHypothesis =>
    have first := utf8Size_of_isLegal (legal c List.mem_cons_self)
    have rest := inductionHypothesis fun d member => legal d (List.mem_cons_of_mem c member)
    rw [Text.byteLength, List.length_cons, first, rest]
    omega

/-- The bytes of such a text are the codes of its characters. -/
theorem byte_of_legal (legal : ∀ c ∈ cs, isLegal c) {byte : UInt8}
    (member : byte ∈ cs.flatMap String.utf8EncodeChar) :
    byte = 10 ∨ 32 ≤ byte ∧ byte ≤ 127 := by
  obtain ⟨c, inside, encoded⟩ := List.mem_flatMap.mp member
  rw [String.utf8EncodeChar_eq_singleton (utf8Size_of_isLegal (legal c inside))] at encoded
  obtain rfl := List.mem_singleton.mp encoded
  have code := code_of_isLegal (legal c inside)
  have value : c.val.toUInt8.toNat = c.toNat := by
    rw [UInt32.toNat_toUInt8, Char.toNat_val]
    omega
  rw [← UInt8.toNat_inj, UInt8.le_iff_toNat_le, UInt8.le_iff_toNat_le, value]
  simpa using code

/-- How many bytes a text has does not depend on how it is stored. -/
theorem utf8ByteSize_ofList (cs : List Char) :
    (String.ofList cs).utf8ByteSize = Text.byteLength cs := by
  induction cs with
  | nil => rfl
  | cons c cs inductionHypothesis =>
    rw [String.ofList_cons, String.utf8ByteSize_append, String.utf8ByteSize_singleton,
      inductionHypothesis, Text.byteLength]

/-- A run of one character has from one to the most that it may have. -/
theorem Word.length_of_isRun {c : Char} {most : Nat} {word : List Char}
    (run : isRun c most word) : 1 ≤ word.length ∧ word.length ≤ most := by
  unfold isRun at run
  simp only [Bool.and_eq_true, decide_eq_true_eq] at run
  exact run.1

/-- A word that is a vector is a run of up to four characters. -/
theorem Word.length_of_vector {word : List Char} {kind : TokenKind}
    (found : kind? word = some kind) (vector : kind.isVector) :
    1 ≤ word.length ∧ word.length ≤ 4 := by
  cases kind <;> simp only [TokenKind.isVector, Bool.false_eq_true] at vector
  case loop =>
    have run : isRun '<' 4 word := test_of_kind? (by simp [classes]) found
    exact length_of_isRun run
  case skip =>
    have run : isRun '>' 4 word := test_of_kind? (by simp [classes]) found
    exact length_of_isRun run

/-- A vector of a source counts from one to four steps. -/
theorem Token.steps_of_mem_ofSource {source : String} {t : Token}
    (member : t ∈ (Token.ofSource source).items) (vector : t.kind.isVector) :
    1 ≤ t.steps ∧ t.steps ≤ 4 := by
  rcases cases_of_mem_scan member with ending | ⟨found, form, same⟩
  · have kinds : t.kind = .terminator ∨ t.kind = .eof := by simpa [isEnding] using ending
    rcases kinds with kind | kind
    · simp [kind, TokenKind.isVector] at vector
    · simp [kind, TokenKind.isVector] at vector
  · rw [same] at vector ⊢
    cases form with
    | word found _ _ regular =>
      have legal := fun c member => isLegal_of_isRegular (regular c member)
      simp only [steps, utf8ByteSize_ofList, byteLength_eq_length legal]
      exact Word.length_of_vector found vector
    | _ => cases vector

end BankAsm
