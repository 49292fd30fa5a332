import BankAsm.Proofs.Position
import BankAsm.Proofs.Token.Bytes
import BankAsm.Proofs.Token.Places

/-!
# Byte offsets

A byte offset into a source has a line and a column, counted from the newlines among the
bytes in front of it. Legal characters have one byte each, so where they lead is the
position of an offset (`Leads.exists_offset`), and what stands there starts with the byte
at the offset.
-/

namespace BankAsm

/-- The bytes of a source in UTF-8. -/
def sourceBytes (source : String) : List UInt8 := source.toList.flatMap String.utf8EncodeChar

/-- They are the bytes that the string is stored in. -/
theorem toByteArray_sourceBytes (source : String) :
    (sourceBytes source).toByteArray = source.toUTF8 := by
  calc (sourceBytes source).toByteArray
      = source.toList.utf8Encode := rfl
    _ = (String.ofList source.toList).toByteArray := String.toByteArray_ofList.symm
    _ = source.toUTF8 := by rw [String.ofList_toList, String.toUTF8]

/-- Whether a byte may stand in a source: a newline, or ASCII from the space on. -/
def isLegalByte (byte : UInt8) : Bool := byte == 0x0A || (0x20 ≤ byte && byte ≤ 0x7F)

namespace Position

/-- The position behind some bytes: one more line than they have newlines, and one more
column than there are bytes behind the last of them. -/
def behind (passed : List UInt8) : Position :=
  ⟨1 + passed.count 0x0A, 1 + (passed.reverse.takeWhile (· ≠ 0x0A)).length⟩

/-- The position of a byte offset. -/
def ofOffset (bytes : List UInt8) (offset : Nat) : Position := behind (bytes.take offset)

/-- The position behind one more byte. -/
theorem behind_concat (passed : List UInt8) (byte : UInt8) :
    behind (passed ++ [byte]) =
      if byte = 0x0A then ⟨(behind passed).line + 1, 1⟩
      else ⟨(behind passed).line, (behind passed).column + 1⟩ := by
  by_cases newline : byte = 0x0A
  · simp [behind, newline]
    omega
  · simp [behind, newline]
    omega

/-- No offset is nowhere. -/
theorem ofOffset_ne_nowhere (bytes : List UInt8) (offset : Nat) :
    ofOffset bytes offset ≠ nowhere := by
  intro same
  have line : 1 + (bytes.take offset).count 0x0A = 0 := congrArg Position.line same
  omega

end Position

/-- The byte of a legal character. -/
theorem utf8EncodeChar_of_isLegal {c : Char} (legal : isLegal c) :
    String.utf8EncodeChar c = [c.val.toUInt8] :=
  String.utf8EncodeChar_eq_singleton (utf8Size_of_isLegal legal)

/-- It is a newline if the character is one. -/
theorem byte_eq_newline_iff {c : Char} (legal : isLegal c) :
    c.val.toUInt8 = 0x0A ↔ c = '\n' := by
  have code := code_of_isLegal legal
  rw [← UInt8.toNat_inj, UInt32.toNat_toUInt8, Char.toNat_val, ← Char.toNat_inj]
  have newline : '\n'.toNat = 10 := rfl
  have byte : (0x0A : UInt8).toNat = 10 := rfl
  rw [newline, byte]
  omega

/-- Counting the bytes of legal characters is counting the characters. -/
theorem Position.behind_of_legal {front : List Char} (legal : ∀ c ∈ front, isLegal c) :
    behind (front.flatMap String.utf8EncodeChar) = start.after front := by
  induction front using List.reverseRecOn with
  | nil => rfl
  | append_singleton front c inductionHypothesis =>
    obtain ⟨others, last⟩ := List.forall_mem_append.mp legal
    have here : isLegal c := last c (List.mem_singleton_self c)
    rw [List.flatMap_append, List.flatMap_singleton, utf8EncodeChar_of_isLegal here,
      behind_concat, inductionHypothesis others, after_append]
    simp only [byte_eq_newline_iff here]
    rfl

/-- Legal characters have as many bytes. -/
theorem length_of_legal {front : List Char} (legal : ∀ c ∈ front, isLegal c) :
    (front.flatMap String.utf8EncodeChar).length = front.length := by
  induction front with
  | nil => rfl
  | cons c front inductionHypothesis =>
    obtain ⟨here, others⟩ := List.forall_mem_cons.mp legal
    rw [List.flatMap_cons, utf8EncodeChar_of_isLegal here, List.length_append,
      inductionHypothesis others, List.length_singleton, List.length_cons, Nat.add_comm]

/-- The bytes of legal characters are legal. -/
theorem isLegalByte_of_legal {front : List Char} (legal : ∀ c ∈ front, isLegal c) :
    ∀ byte ∈ front.flatMap String.utf8EncodeChar, isLegalByte byte = true := by
  intro byte member
  rcases byte_of_legal legal member with rfl | bounds
  · rfl
  · simp [isLegalByte, bounds.1, bounds.2]

theorem isLegalByte_iff {byte : UInt8} :
    isLegalByte byte = true ↔ byte.toNat = 10 ∨ 32 ≤ byte.toNat ∧ byte.toNat ≤ 127 := by
  simp [isLegalByte, UInt8.le_iff_toNat_le, ← UInt8.toNat_inj]

/-- A character with such a code is legal. -/
theorem isLegal_of_code {c : Char} (code : c.toNat = 10 ∨ 32 ≤ c.toNat ∧ c.toNat ≤ 127) :
    isLegal c = true := by
  have newline : c = '\n' ↔ c.toNat = 10 := by
    rw [← Char.toNat_inj]
    rfl
  simpa [isLegal, newline, Char.le_def, UInt32.le_iff_toNat_le, ← Char.toNat_val] using code

/-- The first byte of a character that is not legal is not legal either: an ASCII
character is its code, and all others start with a byte beyond ASCII. -/
theorem isLegalByte_leadByte {c : Char} (illegal : isLegal c = false) :
    isLegalByte (leadByte c) = false := by
  have code : ¬(c.toNat = 10 ∨ 32 ≤ c.toNat ∧ c.toNat ≤ 127) := by
    intro code
    rw [isLegal_of_code code] at illegal
    cases illegal
  rw [← Char.toNat_val] at code
  rw [Bool.eq_false_iff, ne_eq, isLegalByte_iff, leadByte, String.utf8EncodeChar]
  split
  · rw [List.headD_cons, UInt8.toNat_ofNat']
    omega
  · split
    · rw [List.headD_cons, UInt8.toNat_ofNat']
      omega
    · split
      · rw [List.headD_cons, UInt8.toNat_ofNat']
        omega
      · rw [List.headD_cons, UInt8.toNat_ofNat']
        omega

/-- The first byte of a character stands in front of what it is in front of. -/
theorem head?_utf8Encode (c : Char) (behind : List Char) :
    ((c :: behind).flatMap String.utf8EncodeChar).head? = some (leadByte c) := by
  have something : String.utf8EncodeChar c ≠ [] := String.utf8EncodeChar_ne_nil
  obtain ⟨first, others, encoded⟩ := List.exists_cons_of_ne_nil something
  rw [List.flatMap_cons, leadByte, encoded]
  rfl

/-- Where legal characters of a source lead is the position of an offset. In front of the
offset are legal bytes, and at the offset is the first byte of what stands there. -/
theorem Leads.exists_offset {source : String} {place : Position} {rest : List Char}
    (leads : Leads .start source.toList place rest) :
    ∃ offset ≤ (sourceBytes source).length, place = Position.ofOffset (sourceBytes source) offset ∧
      (∀ byte ∈ (sourceBytes source).take offset, isLegalByte byte = true) ∧
      (sourceBytes source).drop offset = rest.flatMap String.utf8EncodeChar := by
  obtain ⟨front, whole, legal, rfl⟩ := leads.exists_front
  have bytes : sourceBytes source =
      front.flatMap String.utf8EncodeChar ++ rest.flatMap String.utf8EncodeChar := by
    rw [sourceBytes, whole, List.flatMap_append]
  have length := length_of_legal legal
  have taken : (sourceBytes source).take front.length = front.flatMap String.utf8EncodeChar := by
    rw [bytes, ← length, List.take_left]
  refine ⟨front.length, ?_, ?_, ?_, ?_⟩
  · rw [bytes, List.length_append, length]
    omega
  · rw [Position.ofOffset, taken, Position.behind_of_legal legal]
  · rw [taken]
    exact isLegalByte_of_legal legal
  · rw [bytes, ← length, List.drop_left]

end BankAsm
