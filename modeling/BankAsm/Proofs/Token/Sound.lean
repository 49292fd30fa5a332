import BankAsm.Proofs.Text.Numeral
import BankAsm.Proofs.Token.Piece

/-!
# Sound tokens

What the encoding relies on in a token is settled when its lexeme is cut: a
constant denotes a byte, and a register is one of its kind. Every token of a source
is sound (`sound_of_mem_ofSource`).
-/

namespace BankAsm

/-- A token that is what its kind says. -/
structure Token.Sound (t : Token) : Prop where
  constant : t.kind.isConstant → t.value?.isSome
  index : t.kind = .index → t.text ∈ Vocabulary.indexRegisters
  status : t.kind = .status → t.text ∈ Vocabulary.statusRegisters

namespace Token

/-- A token of a kind that is neither a constant nor a register is sound. -/
theorem Sound.of_kind {t : Token} {kind : TokenKind} (same : t.kind = kind)
    (constant : kind.isConstant = false) (index : kind ≠ .index) (status : kind ≠ .status) :
    t.Sound where
  constant isConstant := by simp [same, constant] at isConstant
  index isIndex := absurd (same.symm.trans isIndex) index
  status isStatus := absurd (same.symm.trans isStatus) status

/-- A token of a constant kind is sound when it has a byte. -/
theorem Sound.of_constant {t : Token} (constant : t.kind.isConstant) (value : t.value?.isSome) :
    t.Sound where
  constant _ := value
  index isIndex := by simp [isIndex, TokenKind.isConstant] at constant
  status isStatus := by simp [isStatus, TokenKind.isConstant] at constant

end Token

namespace Word

variable {word : List Char}

/-- No word is a quoted character. -/
theorem kind?_ne_character : kind? word ≠ some .character := by
  intro found
  obtain ⟨test, member, _⟩ := exists_test_of_kind? found
  simp [classes] at member

/-- A token that a word of its kind spells is sound. -/
theorem sound_of_kind? {t : Token} (found : kind? word = some t.kind)
    (spelled : t.text = String.ofList word) : t.Sound where
  constant isConstant := by
    obtain ⟨kind, text, position⟩ := t
    obtain rfl : text = String.ofList word := spelled
    cases kind <;> simp only [TokenKind.isConstant, Bool.false_eq_true] at isConstant
    case digit =>
      have digit : isDigit word := test_of_kind? (by simp [classes]) found
      unfold isDigit at digit
      split at digit
      case h_1 c =>
        simpa [Token.value?] using Text.Numeral.signed?_isSome_of_isDigit digit
      case h_2 => cases digit
    case decimal =>
      have decimal : isDecimal word := test_of_kind? (by simp [classes]) found
      unfold isDecimal at decimal
      split at decimal
      case h_1 sign digits =>
        have bounded := (Bool.and_eq_true_iff.mp decimal).2
        obtain ⟨n, known, _⟩ := (Option.any_eq_true _ _).mp bounded
        simp [Token.value?, known]
      case h_2 => cases decimal
    case hexadecimal =>
      have hexadecimal : isHexadecimal word := test_of_kind? (by simp [classes]) found
      unfold isHexadecimal at hexadecimal
      split at hexadecimal
      case h_1 high low =>
        obtain ⟨first, second⟩ := Bool.and_eq_true_iff.mp hexadecimal
        have mark : '#'.toNat < 128 := by decide
        simpa [Token.value?, mark] using Text.Numeral.readByte_isSome first second
      case h_2 => cases hexadecimal
    case character => exact absurd found kind?_ne_character
  index isIndex := by
    rw [isIndex] at found
    have only : ∀ other, (.index, other) ∈ classes →
        other = fun word => Vocabulary.indexRegisters.contains (String.ofList word) := by
      simp [classes]
    rw [spelled]
    exact List.contains_iff_mem.mp (test_of_kind? only found)
  status isStatus := by
    rw [isStatus] at found
    have only : ∀ other, (.status, other) ∈ classes →
        other = fun word => Vocabulary.statusRegisters.contains (String.ofList word) := by
      simp [classes]
    rw [spelled]
    exact List.contains_iff_mem.mp (test_of_kind? only found)

end Word

namespace Lexeme

/-- A lexeme whose tokens are sound, wherever they stand. -/
def Sound (lexeme : Lexeme) : Prop :=
  ∀ position, Token.Sound ⟨lexeme.kind, String.ofList lexeme.text, position⟩

variable {lexeme : Lexeme}

/-- A lexeme of a kind that is neither a constant nor a register is sound. -/
theorem Sound.of_kind (constant : lexeme.kind.isConstant = false) (index : lexeme.kind ≠ .index)
    (status : lexeme.kind ≠ .status) : lexeme.Sound :=
  fun _ => Token.Sound.of_kind rfl constant index status

/-- The text of a quoted character denotes a byte. -/
theorem characterCode?_isSome {inner text : List Char}
    (recognized : characterText? inner = some text) :
    (Token.characterCode? (String.ofList text)).isSome := by
  unfold characterText? at recognized
  split at recognized
  case h_1 c =>
    split at recognized
    case isFalse => cases recognized
    case isTrue printable =>
      cases recognized
      have ascii : c.toNat < 128 := by
        have bounds : 32 ≤ c.toNat ∧ c.toNat ≤ 126 := by
          simpa [isPrintable, Char.le_def, UInt32.le_iff_toNat_le, ← Char.toNat_val]
            using printable
        omega
      simp [Token.characterCode?, ascii]
  case h_2 several =>
    split at recognized
    case isFalse => cases recognized
    case isTrue named =>
      cases recognized
      unfold Token.characterCode?
      split
      case h_1 c single => exact absurd (by simpa using single) (several c)
      case h_2 => exact named

/-- A lexeme of any form is sound. -/
theorem Form.sound (form : Form lexeme) : lexeme.Sound := by
  cases form with
  | opener => exact Sound.of_kind rfl (by simp) (by simp)
  | closer => exact Sound.of_kind rfl (by simp) (by simp)
  | word found => exact fun _ => Word.sound_of_kind? found rfl
  | label => exact Sound.of_kind rfl (by simp) (by simp)
  | character recognized =>
    intro position
    exact Token.Sound.of_constant rfl (characterCode?_isSome recognized)
  | string => exact Sound.of_kind rfl (by simp) (by simp)

end Lexeme

namespace Token

/-- What ends a source makes tokens that end a statement or the source. -/
theorem isEnding_of_mem_finish {previous : Previous} {position : Position} {t : Token}
    (member : t ∈ (finish previous position).items) : t.isEnding := by
  unfold finish at member
  split at member
  case h_1 =>
    rcases List.mem_cons.mp member with rfl | last
    · rfl
    · rw [List.mem_singleton.mp last]
      rfl
  case h_2 =>
    rw [List.mem_singleton.mp member]
    rfl
  case h_3 => cases member

/-- Every token of a scan ends a statement or the source, or was cut as a lexeme. -/
theorem cases_of_mem_scan {more : Nat} {previous : Previous} {position : Position}
    {cs : List Char} {t : Token} (member : t ∈ (scan more previous position cs).items) :
    t.isEnding ∨ ∃ found : Lexeme, found.Form ∧
      t = ⟨found.kind, String.ofList found.text, t.position⟩ := by
  -- Only a separator and a lexeme put a token in front of what the rest of the scan gives.
  induction cs generalizing more previous position with
  | nil => exact .inl (isEnding_of_mem_finish member)
  | cons c cs inductionHypothesis =>
    unfold scan at member
    split at member
    case h_1 => exact inductionHypothesis member
    case h_2 =>
      split at member
      case h_1 => exact inductionHypothesis member
      case h_2 =>
        split at member
        case h_1 =>
          rcases List.mem_cons.mp member with rfl | later
          · exact .inl rfl
          · exact inductionHypothesis later
        case h_2 => exact inductionHypothesis member
        case h_3 => cases member
      case h_3 found piece =>
        rcases List.mem_cons.mp member with rfl | later
        · exact .inr ⟨found, (Piece.form_of_read piece).1, rfl⟩
        · exact inductionHypothesis later
      case h_4 => cases member

/-- Every token of a source is sound. -/
theorem sound_of_mem_ofSource {source : String} {t : Token}
    (member : t ∈ (Token.ofSource source).items) : t.Sound := by
  rcases cases_of_mem_scan member with ending | ⟨found, form, same⟩
  · have kinds : t.kind = .terminator ∨ t.kind = .eof := by simpa [isEnding] using ending
    rcases kinds with kind | kind
    · exact .of_kind kind rfl (by simp) (by simp)
    · exact .of_kind kind rfl (by simp) (by simp)
  · rw [same]
    exact form.sound t.position

end Token

end BankAsm
