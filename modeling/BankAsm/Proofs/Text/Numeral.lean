import BankAsm.Token.Word

/-!
# What words of digits denote

A word that is classified as a number denotes one: a digit and a signed decimal
have a decimal value, and two hexadecimal digits make a byte.
-/

namespace BankAsm.Text.Numeral

variable {c : Char}

theorem isDigit_iff : c.isDigit ↔ 48 ≤ c.toNat ∧ c.toNat ≤ 57 := by
  simp [Char.isDigit, UInt32.le_iff_toNat_le, ← Char.toNat_val]

theorem isUpper_iff : c.isUpper ↔ 65 ≤ c.toNat ∧ c.toNat ≤ 90 := by
  have bounds : c.isUpper = decide (65 ≤ c.val ∧ c.val ≤ 90) := rfl
  simp [bounds, UInt32.le_iff_toNat_le, ← Char.toNat_val]

theorem isLower_iff : c.isLower ↔ 97 ≤ c.toNat ∧ c.toNat ≤ 122 := by
  have bounds : c.isLower = (decide (97 ≤ c.val) && decide (c.val ≤ 122)) := rfl
  simp [bounds, UInt32.le_iff_toNat_le, ← Char.toNat_val]

theorem isHexDigit_iff : Word.isHexDigit c ↔ c.isDigit ∨ 65 ≤ c.toNat ∧ c.toNat ≤ 70 := by
  simp [Word.isHexDigit, Char.le_def, UInt32.le_iff_toNat_le, ← Char.toNat_val]

/-- A digit counts less than the base. -/
theorem digit?_lt {base d : Nat} (found : digit? base c = some d) : d < base := by
  have bounded := (Option.filter_eq_some_iff.mp found).2
  simpa using bounded

/-- A decimal digit counts what stands between it and zero. -/
theorem digit?_of_isDigit {base : Nat} (large : 10 ≤ base) (decimal : c.isDigit) :
    digit? base c = some (c.toNat - 48) := by
  have bounds := isDigit_iff.mp decimal
  have zero : '0'.toNat = 48 := rfl
  simp only [digit?, decimal, if_true, zero, Option.filter_eq_some_iff, true_and,
    decide_eq_true_eq]
  omega

/-- A hexadecimal digit in upper case is a digit of base sixteen. -/
theorem exists_digit?_of_isHexDigit (hexadecimal : Word.isHexDigit c) :
    ∃ d, digit? 16 c = some d := by
  rcases isHexDigit_iff.mp hexadecimal with decimal | bounds
  · exact ⟨_, digit?_of_isDigit (by omega) decimal⟩
  · have upper : c.isUpper := isUpper_iff.mpr (by omega)
    have noDigit : c.isDigit = false := by
      rw [Bool.eq_false_iff, Ne, isDigit_iff]
      omega
    have noLower : c.isLower = false := by
      rw [Bool.eq_false_iff, Ne, isLower_iff]
      omega
    refine ⟨c.toNat - 65 + 10, ?_⟩
    have letter : 'A'.toNat = 65 := rfl
    simp only [digit?, noDigit, noLower, upper, if_true, Bool.false_eq_true, if_false, letter,
      Option.filter_eq_some_iff, true_and, decide_eq_true_eq]
    omega

/-- Two hexadecimal digits denote a byte. -/
theorem readByte_isSome {high low : Char} (first : Word.isHexDigit high)
    (second : Word.isHexDigit low) : (readByte 16 [high, low]).toOption.isSome := by
  obtain ⟨h, foundHigh⟩ := exists_digit?_of_isHexDigit first
  obtain ⟨l, foundLow⟩ := exists_digit?_of_isHexDigit second
  have h_lt := digit?_lt foundHigh
  have l_lt := digit?_lt foundLow
  have noSign : high ≠ '+' := by
    rintro rfl
    simp [Word.isHexDigit] at first
  have fits : 16 * h + l < 256 := by omega
  have small : h < 256 := by omega
  have digits : readDigits 16 0 [high, low] = .ok (16 * h + l) := by
    simp [readDigits, foundHigh, foundLow, fits, small]
  unfold readByte
  split
  case h_1 nothing => cases nothing
  case h_2 sign => cases sign
  case h_3 sign =>
    cases sign
    exact absurd rfl noSign
  case h_4 =>
    rw [digits]
    rfl

/-- One digit has a decimal value. -/
theorem signed?_isSome_of_isDigit (decimal : c.isDigit) : (signed? [c]).isSome := by
  have bounds := isDigit_iff.mp decimal
  have found : digit? 10 c = some (c.toNat - 48) := digit?_of_isDigit (by omega) decimal
  have unsigned : unsigned? [c] = some (c.toNat - 48) := by
    simp [unsigned?, decimal, value, found]
  unfold signed?
  split
  case h_1 sign =>
    cases sign
    simp at decimal
  case h_2 sign =>
    cases sign
    simp at decimal
  case h_3 =>
    have low : (-32768 : Int) ≤ (c.toNat - 48 : Nat) := by omega
    have high : ((c.toNat - 48 : Nat) : Int) ≤ 32767 := by omega
    simp [unsigned, Option.filter, low, high]

end BankAsm.Text.Numeral
