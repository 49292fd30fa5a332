import BankAsm.Octet
import BankAsm.Proofs.Token.Writing
import BankAsm.Text.Numeral

/-!
# Names and literals of bytes

A text that is read as a single reference is the name of a label, and with a colon behind it
it assigns the label (`valid_assignment`). Every byte has a literal, a mark and two
upper-case hexadecimal digits, which is read as a constant of this byte (`value?_ofByte`).
-/

namespace BankAsm

namespace Word

/-- No word of a list ends in a character that none of them ends in. -/
theorem contains_concat_eq_false {words : List String} {c : Char}
    (others : ∀ word ∈ words, word.toList.getLast? ≠ some c) (cs : List Char) :
    words.contains (String.ofList (cs ++ [c])) = false := by
  rw [List.contains_eq_mem, decide_eq_false_iff_not]
  intro member
  exact others _ member (by simp)

/-- A name with a colon behind it assigns the label. -/
theorem kind?_concat_colon {name : List Char} (reference : kind? name = some .reference) :
    kind? (name ++ [':']) = some .assignment := by
  have named : isReference name := test_of_kind? (by simp [classes]) reference
  have vocabulary : ∀ words ∈ [Vocabulary.operations, Vocabulary.directives,
      Vocabulary.indexRegisters, Vocabulary.statusRegisters, Vocabulary.pointerRegisters],
      words.contains (String.ofList (name ++ [':'])) = false := by
    intro words among
    refine contains_concat_eq_false ?_ name
    revert words
    decide +kernel
  have assignment : isAssignment (name ++ [':']) := by simp [isAssignment, named]
  have runs : isRun '<' 4 (name ++ [':']) = false ∧ isRun '>' 4 (name ++ [':']) = false ∧
      isRun '|' 2 (name ++ [':']) = false := by
    simp [isRun]
  obtain ⟨c, cs, rfl⟩ : ∃ c cs, name = c :: cs := by
    cases name with
    | nil => simp [isReference] at named
    | cons c cs => exact ⟨c, cs, rfl⟩
  have rest : isDigit (c :: cs ++ [':']) = false ∧ isDecimal (c :: cs ++ [':']) = false ∧
      isReference (c :: cs ++ [':']) = false := by
    cases cs <;> simp [isDigit, isDecimal, isReference]
  have hexadecimal : isHexadecimal (c :: cs ++ [':']) = false := by
    have noMark : c ≠ '#' := by
      rintro rfl
      simp [isReference] at named
    unfold isHexadecimal
    split
    case h_1 same => exact absurd (List.cons.inj same).1 noMark
    case h_2 => rfl
  simp_all [kind?, classes, Vocabulary.isMnemonic, Vocabulary.isDirective]

/-- A mark and two hexadecimal digits are a word of their kind. -/
theorem kind?_hexadecimal {high low : Char} (first : isHexDigit high) (second : isHexDigit low) :
    kind? ['#', high, low] = some .hexadecimal := by
  have vocabulary : ∀ words ∈ [Vocabulary.operations, Vocabulary.directives,
      Vocabulary.indexRegisters, Vocabulary.statusRegisters, Vocabulary.pointerRegisters],
      words.contains (String.ofList ['#', high, low]) = false := by
    intro words among
    refine contains_cons_eq_false ?_ [high, low]
    revert words
    decide +kernel
  have rest : isDigit ['#', high, low] = false ∧ isDecimal ['#', high, low] = false := by
    simp [isDigit, isDecimal]
  have hexadecimal : isHexadecimal ['#', high, low] := by simp [isHexadecimal, first, second]
  simp_all [kind?, classes, Vocabulary.isMnemonic, Vocabulary.isDirective]

/-- A name is no word of the language. -/
theorem isWord_of_kind?_reference {name : List Char} (reference : kind? name = some .reference) :
    Vocabulary.isWord (String.ofList name) = false := by
  by_contra known
  have cases : Vocabulary.isMnemonic (String.ofList name) ∨
      Vocabulary.indexRegisters.contains (String.ofList name) ∨
      Vocabulary.statusRegisters.contains (String.ofList name) ∨
      Vocabulary.pointerRegisters.contains (String.ofList name) := by
    simpa only [Vocabulary.isWord, Bool.not_eq_false, Bool.or_eq_true, or_assoc] using known
  -- A word of the language is found in one of the first four classes.
  unfold kind? classes at reference
  simp only [List.find?_cons] at reference
  rcases cases with mnemonic | index | status | pointer
  · simp [mnemonic] at reference
  · simp only [index] at reference
    split at reference <;> simp at reference
  · simp only [status] at reference
    repeat' split at reference
    all_goals simp at reference
  · simp only [pointer] at reference
    repeat' split at reference
    all_goals simp at reference

end Word

namespace Token

/-- Whether a text is the name of a label: it is read as one reference and nothing else. -/
def IsName (name : String) : Prop :=
  (ofSource name).items.map content = [(.reference, name), (.terminator, ";"), (.eof, ";")]

instance (name : String) : Decidable (IsName name) := inferInstanceAs (Decidable (_ = _))

/-- The token of a lexeme stands in a source. -/
theorem valid_of_form {found : Lexeme} (form : found.Form) (position : Position) :
    (found.token position).Valid := by
  refine ⟨String.ofList found.spelling, ?_⟩
  have read := scan_of_form form (show Separated [] by simp [Separated]) .nothing .start
  rw [List.append_nil] at read
  rw [ofSource, String.toList_ofList, read]
  exact List.mem_cons_self

/-- A name is a word that is known as a reference. -/
theorem IsName.known {name : String} (isName : IsName name) :
    Word.kind? name.toList = some .reference ∧ ∀ c ∈ name.toList, isRegular c := by
  have valid : Valid ⟨.reference, name, .nowhere⟩ := ⟨name, isName ▸ List.mem_cons_self⟩
  obtain ⟨found, form, _, alike⟩ := valid.exists_form rfl
  obtain ⟨kind, text⟩ := Prod.mk.inj (alike .nowhere)
  cases form with
  | @word _ word known _ _ regular =>
    obtain rfl : _ = TokenKind.reference := kind
    obtain rfl : String.ofList word = name := text
    rw [String.toList_ofList]
    exact ⟨known, regular⟩
  | _ => cases kind

/-- A name stands in a source in front of a colon. -/
theorem valid_assignment {name : String} (isName : IsName name) :
    Valid ⟨.assignment, name, .nowhere⟩ := by
  obtain ⟨known, regular⟩ := isName.known
  have label : Lexeme.Form
      ⟨.assignment, (name.toList ++ [':']).dropLast, name.toList ++ [':']⟩ := by
    refine .label (Word.kind?_concat_colon known) ?_ ?_
    · simpa using Word.isWord_of_kind?_reference known
    · intro c member
      rcases List.mem_append.mp member with inside | last
      · exact regular c inside
      · obtain rfl := List.mem_singleton.mp last
        decide
  simpa [Lexeme.token] using valid_of_form label .nowhere

/-- The literal of a byte. -/
def byteText (value : UInt8) : String := String.ofList ('#' :: Text.hex value.toNat)

/-- The literal of a byte as a token that stands nowhere. -/
def ofByte (value : UInt8) : Token := ⟨.hexadecimal, byteText value, .nowhere⟩

/-- The literal of a byte has two digits. -/
theorem hex_toNat (value : UInt8) :
    Text.hex value.toNat =
      [Text.hexDigit (value.toNat / 16), Text.hexDigit (value.toNat % 16)] := by
  have below := value.toNat_lt
  simp [Text.hex, below]

/-- A digit stands for its number. -/
theorem digit?_hexDigit {n : Nat} (small : n < 16) :
    Text.Numeral.digit? 16 (Text.hexDigit n) = some n ∧ Text.hexDigit n ≠ '+' := by
  have all : ∀ n < 16,
      Text.Numeral.digit? 16 (Text.hexDigit n) = some n ∧ Text.hexDigit n ≠ '+' := by
    decide +kernel
  exact all n small

/-- The literal of a byte stands for it. -/
@[simp] theorem value?_ofByte (value : UInt8) : (ofByte value).value? = some value := by
  have below := value.toNat_lt
  obtain ⟨high, noSign⟩ := digit?_hexDigit (show value.toNat / 16 < 16 by omega)
  obtain ⟨low, _⟩ := digit?_hexDigit (show value.toNat % 16 < 16 by omega)
  have whole : 16 * (value.toNat / 16) + value.toNat % 16 = value.toNat := Nat.div_add_mod _ _
  have read : Text.Numeral.readByte 16 (Text.hex value.toNat) = .ok value := by
    have first : value.toNat / 16 < 256 := by omega
    rw [hex_toNat, Text.Numeral.readByte]
    · simp [Text.Numeral.readDigits, high, low, first, whole, below]
    · simp
    · simp
    · intro cs same
      exact noSign (List.cons.inj same).1
  simp [value?, ofByte, byteText, read, Except.toOption]

/-- The literal of a byte gives the byte. -/
@[simp] theorem octet?_ofByte (value : UInt8) : (ofByte value).octet? = some (.byte value) := by
  have read := value?_ofByte value
  simp only [octet?, ofByte] at read ⊢
  simp [read]

/-- The digits of a number are hexadecimal, and may stand in a word. -/
theorem hexDigit_regular {n : Nat} (small : n < 16) :
    Word.isHexDigit (Text.hexDigit n) ∧ isRegular (Text.hexDigit n) := by
  have all : ∀ n < 16, Word.isHexDigit (Text.hexDigit n) ∧ isRegular (Text.hexDigit n) := by
    decide +kernel
  exact all n small

/-- The literal of a byte is a word that is known as hexadecimal. -/
theorem byteText_known (value : UInt8) :
    Word.kind? (byteText value).toList = some .hexadecimal ∧
      ∀ c ∈ (byteText value).toList, isRegular c := by
  have below := value.toNat_lt
  obtain ⟨high, highRegular⟩ := hexDigit_regular (show value.toNat / 16 < 16 by omega)
  obtain ⟨low, lowRegular⟩ := hexDigit_regular (show value.toNat % 16 < 16 by omega)
  have mark : isRegular '#' := by decide
  rw [byteText, String.toList_ofList, hex_toNat]
  refine ⟨Word.kind?_hexadecimal high low, ?_⟩
  simp [mark, highRegular, lowRegular]

/-- The literal of a byte stands in a source. -/
theorem valid_ofByte (value : UInt8) : Valid (ofByte value) := by
  obtain ⟨known, regular⟩ := byteText_known value
  have form := Lexeme.Form.word known (by decide) (by simp [byteText]) regular
  simpa [Lexeme.token, ofByte] using valid_of_form form .nowhere

end Token

end BankAsm
