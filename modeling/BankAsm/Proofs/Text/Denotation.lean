import BankAsm.Proofs.Outcome
import BankAsm.Proofs.Text.Numeral
import Mathlib.Data.List.Forall2
import Mathlib.Data.Nat.Digits.Defs

/-!
# What numerals denote

A numeral of a base is an optional plus sign and at least one digit, and it denotes the number
that its digits are the positional notation of (`Denotes`). Reading goes from left to right and
gives up where the value leaves a byte. Since digits never make a value smaller, it still finds a
byte exactly where a numeral denotes one (`readByte_eq_ok_iff`).
-/

namespace BankAsm.Text.Numeral

/-- What a character counts as a digit of a base: the ASCII digits, and the ASCII letters of
either case from ten on, as far as the base goes. -/
inductive Counts (base : Nat) (c : Char) : Nat → Prop where
  | digit
      (low : '0' ≤ c) (high : c ≤ '9')
      (small : c.toNat - '0'.toNat < base) : Counts base c (c.toNat - '0'.toNat)
  | lower
      (low : 'a' ≤ c) (high : c ≤ 'z')
      (small : c.toNat - 'a'.toNat + 10 < base) : Counts base c (c.toNat - 'a'.toNat + 10)
  | upper
      (low : 'A' ≤ c) (high : c ≤ 'Z')
      (small : c.toNat - 'A'.toNat + 10 < base) : Counts base c (c.toNat - 'A'.toNat + 10)

/-- Digits of a base that are the positional notation of a number. -/
def Spells (base : Nat) (digits : List Char) (number : Nat) : Prop :=
  ∃ counts, List.Forall₂ (Counts base) digits counts ∧ number = Nat.ofDigits base counts.reverse

/-- A numeral of a base, and the byte that it denotes. -/
inductive Denotes (base : Nat) : List Char → UInt8 → Prop where
  | numeral {sign digits value}
      (signed : sign = [] ∨ sign = ['+'])
      (nonempty : digits ≠ [])
      (spells : Spells base digits value.toNat) : Denotes base (sign ++ digits) value

variable {base value count number : Nat} {c : Char} {digits : List Char}

/-- Characters are in the order of their codes. -/
theorem le_iff_toNat_le {a b : Char} : a ≤ b ↔ a.toNat ≤ b.toNat := by
  simp [Char.le_def, UInt32.le_iff_toNat_le, ← Char.toNat_val]

/-- The digits of a base are those that reading takes for one. -/
theorem digit?_eq_some_iff : digit? base c = some count ↔ Counts base c count := by
  constructor
  · intro found
    obtain ⟨counted, bounded⟩ := Option.filter_eq_some_iff.mp found
    have small : count < base := by simpa using bounded
    split at counted
    case isTrue isDigit =>
      cases counted
      obtain ⟨low, high⟩ := isDigit_iff.mp isDigit
      exact .digit (le_iff_toNat_le.mpr low) (le_iff_toNat_le.mpr high) small
    case isFalse =>
      split at counted
      case isTrue isLower =>
        cases counted
        obtain ⟨low, high⟩ := isLower_iff.mp isLower
        exact .lower (le_iff_toNat_le.mpr low) (le_iff_toNat_le.mpr high) small
      case isFalse =>
        split at counted
        case isFalse => cases counted
        case isTrue isUpper =>
          cases counted
          obtain ⟨low, high⟩ := isUpper_iff.mp isUpper
          exact .upper (le_iff_toNat_le.mpr low) (le_iff_toNat_le.mpr high) small
  · intro counts
    cases counts with
    | digit low high small =>
      have range : 48 ≤ c.toNat ∧ c.toNat ≤ 57 :=
        ⟨le_iff_toNat_le.mp low, le_iff_toNat_le.mp high⟩
      simpa [digit?, isDigit_iff, range, Option.filter_eq_some_iff] using small
    | lower low high small =>
      have range : 97 ≤ c.toNat ∧ c.toNat ≤ 122 :=
        ⟨le_iff_toNat_le.mp low, le_iff_toNat_le.mp high⟩
      have noDigit : ¬ c.toNat ≤ 57 := by omega
      simpa [digit?, isDigit_iff, isLower_iff, range, noDigit, Option.filter_eq_some_iff]
        using small
    | upper low high small =>
      have range : 65 ≤ c.toNat ∧ c.toNat ≤ 90 :=
        ⟨le_iff_toNat_le.mp low, le_iff_toNat_le.mp high⟩
      have noDigit : ¬ c.toNat ≤ 57 := by omega
      have noLower : ¬ 97 ≤ c.toNat := by omega
      simpa [digit?, isDigit_iff, isLower_iff, isUpper_iff, range, noDigit, noLower,
        Option.filter_eq_some_iff] using small

/-- A value with further digits behind it. -/
def extend (base value : Nat) (counts : List Nat) : Nat :=
  counts.foldl (fun value count => base * value + count) value

/-- Further digits make no value smaller. -/
theorem le_extend (positive : 0 < base) (value : Nat) (counts : List Nat) :
    value ≤ extend base value counts := by
  induction counts generalizing value with
  | nil => exact Nat.le_refl value
  | cons count counts inductionHypothesis =>
    calc value
      _ ≤ base * value := Nat.le_mul_of_pos_left value positive
      _ ≤ base * value + count := Nat.le_add_right _ _
      _ ≤ extend base value (count :: counts) := inductionHypothesis _

/-- Digits from the first one on have their positional value. -/
theorem extend_zero (base : Nat) (counts : List Nat) :
    extend base 0 counts = Nat.ofDigits base counts.reverse := by
  rw [Nat.ofDigits_eq_foldr, List.foldr_reverse, extend]
  simp [Nat.add_comm]

/-- Digits continue a value within a byte to what they extend it to, if that is a byte too. -/
theorem readDigits_eq_ok_iff (small : value < 256) :
    readDigits base value digits = .ok number ↔
      ∃ counts, List.Forall₂ (Counts base) digits counts ∧ number = extend base value counts ∧
        number < 256 := by
  induction digits generalizing value with
  | nil =>
    constructor
    · intro read
      cases read
      exact ⟨[], .nil, rfl, small⟩
    · rintro ⟨counts, none, rfl, _⟩
      rw [List.forall₂_nil_left_iff.mp none]
      rfl
  | cons c digits inductionHypothesis =>
    rw [readDigits]
    cases found : digit? base c with
    | none =>
      constructor
      · intro read
        cases read
      · rintro ⟨counts, counted, _⟩
        obtain ⟨count, _, here, _⟩ := List.forall₂_cons_left_iff.mp counted
        rw [digit?_eq_some_iff.mpr here] at found
        cases found
    | some count =>
      have here := digit?_eq_some_iff.mp found
      simp only
      split
      case isTrue within =>
        rw [inductionHypothesis within]
        constructor
        · rintro ⟨counts, counted, same, bounded⟩
          exact ⟨count :: counts, .cons here counted, same, bounded⟩
        · rintro ⟨_, counted, same, bounded⟩
          obtain ⟨other, counts, first, rest, rfl⟩ := List.forall₂_cons_left_iff.mp counted
          obtain rfl : count = other :=
            Option.some.inj (found.symm.trans (digit?_eq_some_iff.mpr first))
          exact ⟨counts, rest, same, bounded⟩
      case isFalse beyond =>
        constructor
        · intro read
          cases read
        · rintro ⟨_, counted, same, bounded⟩
          obtain ⟨other, counts, first, _, rfl⟩ := List.forall₂_cons_left_iff.mp counted
          obtain rfl : count = other :=
            Option.some.inj (found.symm.trans (digit?_eq_some_iff.mpr first))
          -- What is read further on can only add to a value that is too large already.
          have positive : 0 < base := Nat.zero_lt_of_lt (digit?_lt found)
          have further := le_extend positive (base * value + count) counts
          have whole : number = extend base (base * value + count) counts := same
          omega

/-- Digits alone are read as the byte that they spell. -/
theorem readDigits_byte_iff {value : UInt8} :
    UInt8.ofNat <$> readDigits base 0 digits = .ok value ↔ Spells base digits value.toNat := by
  have small : 0 < 256 := by decide
  constructor
  · intro read
    obtain ⟨number, reached, rfl⟩ := Outcome.map_eq_ok_iff.mp read
    obtain ⟨counts, counted, same, bounded⟩ := (readDigits_eq_ok_iff small).mp reached
    refine ⟨counts, counted, ?_⟩
    rw [UInt8.toNat_ofNat_of_lt' bounded, same, extend_zero]
  · rintro ⟨counts, counted, same⟩
    rw [← extend_zero] at same
    have reached := (readDigits_eq_ok_iff small).mpr ⟨counts, counted, same, value.toNat_lt⟩
    exact Outcome.map_eq_ok_iff.mpr ⟨_, reached, UInt8.ofNat_toNat⟩

/-- A plus sign is no digit. -/
theorem not_spells_plus (base number : Nat) (rest : List Char) :
    ¬Spells base ('+' :: rest) number := by
  rintro ⟨counts, counted, _⟩
  obtain ⟨_, _, here, _⟩ := List.forall₂_cons_left_iff.mp counted
  have none : digit? base '+' = none := rfl
  rw [digit?_eq_some_iff.mpr here] at none
  cases none

/-- A text without a plus sign denotes what its digits spell. -/
theorem denotes_iff_spells {value : UInt8} (nonempty : digits ≠ [])
    (unsigned : ∀ rest, digits ≠ '+' :: rest) :
    Denotes base digits value ↔ Spells base digits value.toNat := by
  constructor
  · rintro ⟨rfl | rfl, _, spells⟩
    · exact spells
    · exact absurd rfl (unsigned _)
  · exact fun spells => .numeral (.inl rfl) nonempty spells

/-- A text is read as a byte exactly if it is a numeral that denotes it. -/
theorem readByte_eq_ok_iff {text : List Char} {value : UInt8} :
    readByte base text = .ok value ↔ Denotes base text value := by
  unfold readByte
  split
  case h_1 =>
    refine ⟨fun read => (nomatch read), fun denotes => ?_⟩
    generalize whole : ([] : List Char) = text at denotes
    obtain ⟨_, nonempty, _⟩ := denotes
    exact absurd (List.append_eq_nil_iff.mp whole.symm).2 nonempty
  case h_2 =>
    refine ⟨fun read => (nomatch read), fun denotes => ?_⟩
    generalize whole : ['+'] = text at denotes
    obtain ⟨rfl | rfl, nonempty, spells⟩ := denotes
    · obtain rfl := whole
      exact absurd spells (not_spells_plus base _ [])
    · exact absurd (List.cons.inj whole).2.symm nonempty
  case h_3 rest more =>
    have nonempty : rest ≠ [] := fun none => more (by rw [none])
    rw [readDigits_byte_iff]
    refine ⟨fun spells => .numeral (.inr rfl) nonempty spells, fun denotes => ?_⟩
    generalize whole : '+' :: rest = text at denotes
    obtain ⟨rfl | rfl, _, spells⟩ := denotes
    · obtain rfl := whole
      exact absurd spells (not_spells_plus base _ rest)
    · rw [(List.cons.inj whole).2]
      exact spells
  case h_4 nonempty _ unsigned =>
    rw [readDigits_byte_iff, denotes_iff_spells nonempty unsigned]

end BankAsm.Text.Numeral
