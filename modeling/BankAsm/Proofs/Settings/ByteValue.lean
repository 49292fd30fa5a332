import BankAsm.Proofs.Text.Denotation
import BankAsm.Settings.ByteValue

/-!
# Which texts write a byte

A configuration writes a byte as a numeral, and a mark in front of it selects the base
(`ByteValue.Writes`). A definition is a name and a decimal numeral on the two sides of its first
equals sign (`Definition.Defines`). Both are read exactly where they are written, and they agree
on texts without a mark (`ReadsNumerals`).
-/

namespace BankAsm

open Text.Numeral (Denotes Counts digit? digit?_eq_some_iff readByte_eq_ok_iff)

/-- A numeral begins with a plus sign or with a digit. -/
theorem Text.Numeral.head_of_denotes {base : Nat} {c : Char} {rest : List Char} {value : UInt8}
    (denotes : Denotes base (c :: rest) value) : c = '+' ∨ ∃ count, Counts base c count := by
  generalize whole : c :: rest = text at denotes
  obtain ⟨rfl | rfl, nonempty, counts, counted, _⟩ := denotes
  · obtain rfl := whole
    obtain ⟨count, _, here, _⟩ := List.forall₂_cons_left_iff.mp counted
    exact .inr ⟨count, here⟩
  · exact .inl (List.cons.inj whole).1

namespace ByteValue

/-- The marks of the bases other than ten. -/
def marks : List (Char × Nat) := [('#', 16), ('%', 2)]

/-- The base that a text selects: that of the mark in front of it, or ten. -/
inductive Selects (text : String) : Nat → Prop where
  | marked {mark base digits}
      (listed : (mark, base) ∈ marks)
      (written : text.toList = mark :: digits) : Selects text base
  | unmarked (plain : ∀ entry ∈ marks, text.toList.head? ≠ some entry.1) : Selects text 10

/-- A text that writes a byte: a numeral behind the mark of its base, or a decimal one. -/
inductive Writes (text : String) (value : UInt8) : Prop where
  | marked {mark base digits}
      (listed : (mark, base) ∈ marks)
      (written : text.toList = mark :: digits)
      (denotes : Denotes base digits value) : Writes text value
  | decimal (denotes : Denotes 10 text.toList value) : Writes text value

variable {text : String} {value : UInt8} {mark : Char} {base : Nat} {digits : List Char}

/-- A mark is no decimal digit and no plus sign. -/
theorem not_denotes_of_mark (listed : (mark, base) ∈ marks) :
    ¬Denotes 10 (mark :: digits) value := by
  have foreign : ∀ entry ∈ marks, entry.1 ≠ '+' ∧ digit? 10 entry.1 = none := by decide
  obtain ⟨noSign, noDigit⟩ := foreign _ listed
  intro denotes
  rcases Text.Numeral.head_of_denotes denotes with sign | ⟨count, counts⟩
  · exact noSign sign
  · rw [digit?_eq_some_iff.mpr counts] at noDigit
    cases noDigit

/-- Behind a mark, a text writes what a numeral of the base denotes. -/
theorem writes_iff_of_mark (listed : (mark, base) ∈ marks)
    (written : text.toList = mark :: digits) : Writes text value ↔ Denotes base digits value := by
  refine ⟨fun writes => ?_, .marked listed written⟩
  cases writes with
  | decimal denotes =>
    rw [written] at denotes
    exact absurd denotes (not_denotes_of_mark listed)
  | marked listedToo writtenToo denotes =>
    obtain ⟨rfl, rfl⟩ := List.cons.inj (written.symm.trans writtenToo)
    have apart : ∀ entry ∈ marks, ∀ other ∈ marks, entry.1 = other.1 → entry.2 = other.2 := by
      decide
    obtain rfl : base = _ := apart _ listed _ listedToo rfl
    exact denotes

/-- A text is split into the base that it selects and a numeral that denotes what it writes. -/
theorem exists_split (text : String) : ∃ base digits, split text.toList = (base, digits) ∧
    Selects text base ∧ ∀ value, Writes text value ↔ Denotes base digits value := by
  generalize chars : text.toList = cs
  fun_cases split cs with
  | case1 digits =>
    have listed : ('#', 16) ∈ marks := by decide
    exact ⟨16, digits, rfl, .marked listed chars, fun _ => writes_iff_of_mark listed chars⟩
  | case2 digits =>
    have listed : ('%', 2) ∈ marks := by decide
    exact ⟨2, digits, rfl, .marked listed chars, fun _ => writes_iff_of_mark listed chars⟩
  | case3 _ noNumberSign noPercentSign =>
    have noMark : ∀ mark base digits, (mark, base) ∈ marks → text.toList ≠ mark :: digits := by
      intro mark base digits listed written
      rw [chars] at written
      rcases List.mem_cons.mp listed with same | later
      · cases same
        exact noNumberSign _ written
      · cases List.mem_singleton.mp later
        exact noPercentSign _ written
    refine ⟨10, cs, rfl, .unmarked fun entry listed head => ?_, fun value => ?_⟩
    · obtain ⟨digits, written⟩ := List.head?_eq_some_iff.mp head
      exact noMark _ _ _ listed written
    · rw [← chars]
      refine ⟨fun writes => ?_, .decimal⟩
      cases writes with
      | marked listed written => exact absurd written (noMark _ _ _ listed)
      | decimal denotes => exact denotes

/-- A text is read as a byte exactly if it writes it. -/
theorem read_eq_ok_iff : read text = .ok value ↔ Writes text value := by
  obtain ⟨base, digits, splits, _, writes⟩ := exists_split text
  rw [writes, ← readByte_eq_ok_iff]
  simp only [read, splits]
  cases Text.Numeral.readByte base digits <;> simp [Except.mapError]

/-- A text that is refused is refused in the base that it selects. -/
theorem selects_of_read {fault : ByteValueFault} (refused : read text = .error fault) :
    fault.text = text ∧ Selects text fault.base := by
  obtain ⟨base, digits, splits, selects, _⟩ := exists_split text
  simp only [read, splits] at refused
  cases found : Text.Numeral.readByte base digits with
  | ok value => simp [found, Except.mapError] at refused
  | error cause =>
    rw [found] at refused
    cases refused
    exact ⟨rfl, selects⟩

end ByteValue

namespace Definition

/-- A text that defines a name: the name, an equals sign and a decimal numeral. The name has no
equals sign. -/
inductive Defines (text name : String) (value : UInt8) : Prop where
  | pair {numeral}
      (written : text.toList = name.toList ++ '=' :: numeral)
      (noEqualsSign : '=' ∉ name.toList)
      (denotes : Denotes 10 numeral value) : Defines text name value

/-- A text is cut at its first equals sign. -/
theorem cut_at_equalsSign {name : List Char} (noEqualsSign : '=' ∉ name) (numeral : List Char) :
    (name ++ '=' :: numeral).takeWhile (· ≠ '=') = name ∧
      (name ++ '=' :: numeral).dropWhile (· ≠ '=') = '=' :: numeral := by
  have inside : ∀ c ∈ name, decide (c ≠ '=') = true := by
    rintro c member
    simp only [decide_eq_true_eq]
    rintro rfl
    exact noEqualsSign member
  rw [List.takeWhile_append_of_pos inside, List.dropWhile_append_of_pos inside]
  simp

/-- Where a text has an equals sign, it is cut at the first one. -/
theorem exists_cut {text numeral : List Char} {c : Char}
    (found : text.dropWhile (· ≠ '=') = c :: numeral) :
    '=' ∉ text.takeWhile (· ≠ '=') ∧ text = text.takeWhile (· ≠ '=') ++ '=' :: numeral := by
  have sign : c = '=' := by
    have stops := List.head?_dropWhile_not (· ≠ '=') text
    rw [found] at stops
    simpa using stops
  constructor
  · intro member
    simpa using List.all_eq_true.mp (List.all_takeWhile (p := (· ≠ '='))) _ member
  · conv_lhs => rw [← List.takeWhile_append_dropWhile (p := (· ≠ '=')) (l := text)]
    rw [found, sign]

/-- A text is read as a definition exactly if it defines the name as the byte. -/
theorem read_eq_ok_iff {text name : String} {value : UInt8} :
    read text = .ok (name, value) ↔ Defines text name value := by
  constructor
  · intro found
    unfold read at found
    split at found
    case h_1 => cases found
    case h_2 c numeral rest =>
      split at found
      case h_1 => cases found
      case h_2 byte denotes =>
        cases found
        obtain ⟨noEqualsSign, whole⟩ := exists_cut rest
        exact .pair (by rwa [String.toList_ofList]) (by rwa [String.toList_ofList])
          (readByte_eq_ok_iff.mp denotes)
  · rintro @⟨numeral, written, noEqualsSign, denotes⟩
    obtain ⟨front, behind⟩ := cut_at_equalsSign noEqualsSign numeral
    simp only [read, written, front, behind, readByte_eq_ok_iff.mpr denotes, String.ofList_toList]

end Definition

/-- What is read of a text as a byte and as a definition. -/
structure ReadsNumerals (text : String) : Prop where
  /-- The text is a byte if it writes it. -/
  byte : ∀ value, ByteValue.read text = .ok value ↔ ByteValue.Writes text value
  /-- Any other text is refused, and the message names the base that the text selects. -/
  refused : (∀ value, ¬ByteValue.Writes text value) → ∃ fault base cause,
    ByteValue.read text = .error fault ∧ ByteValue.Selects text base ∧
      fault.message = text ++ " is not a valid base " ++ toString base ++ " value: " ++ cause
  /-- The text is a definition if it defines a name. -/
  definition : ∀ name value,
    Definition.read text = .ok (name, value) ↔ Definition.Defines text name value
  /-- A text without a mark is the same byte behind the equals sign of a definition, if it is
  one. -/
  agree : (∀ entry ∈ ByteValue.marks, text.toList.head? ≠ some entry.1) →
    ∀ name, '=' ∉ name.toList → ∀ value,
      Definition.read (name ++ "=" ++ text) = .ok (name, value) ↔ ByteValue.read text = .ok value

/-- Byte values and definitions are read exactly where numerals write them: a text is a byte if
it is a numeral of the base that its mark selects, with leading zeros or not and with a plus
sign or not, whose value is at most 255. -/
theorem readsNumerals (text : String) : ReadsNumerals text where
  byte _ := ByteValue.read_eq_ok_iff
  refused := by
    intro unwritten
    cases found : ByteValue.read text with
    | ok value => exact absurd (ByteValue.read_eq_ok_iff.mp found) (unwritten value)
    | error fault =>
      obtain ⟨same, selects⟩ := ByteValue.selects_of_read found
      refine ⟨fault, fault.base, fault.fault.text, rfl, selects, ?_⟩
      rw [ByteValueFault.message, same]
  definition _ _ := Definition.read_eq_ok_iff
  agree := by
    intro plain name noEqualsSign value
    rw [Definition.read_eq_ok_iff, ByteValue.read_eq_ok_iff]
    have written : (name ++ "=" ++ text).toList = name.toList ++ '=' :: text.toList := by simp
    constructor
    · rintro ⟨writtenToo, _, denotes⟩
      rw [written] at writtenToo
      have same := List.append_cancel_left writtenToo
      rw [← (List.cons.inj same).2] at denotes
      exact .decimal denotes
    · intro writes
      cases writes with
      | marked listed marked => exact absurd (by rw [marked]; rfl) (plain _ listed)
      | decimal denotes => exact .pair written noEqualsSign denotes

end BankAsm
