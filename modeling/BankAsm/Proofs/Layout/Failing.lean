import BankAsm.Proofs.Layout.Placing

/-!
# What placing leaves when it fails

`Fails` is the other side of `Places`: with one case for each place where a statement can be
refused, it says what is left of the layout there and what is reported. Everything known
of refused statements is read off `fails_of_place`.
-/

namespace BankAsm

namespace Layout

open LabelTable (Binds Grows)

/-- Octets spell a relocation, whose constants are known. -/
def Spells (layout : Layout) (code : List Octet) (relocation : Relocation) : Prop :=
  ∃ mode octets values, code = mode :: octets ∧ layout.constants octets = .ok values ∧
    Relocation.ofBytes? mode values = some relocation

/-- What is left of the layout when a statement is refused, and what is reported. -/
inductive Fails (before : Layout) (s : Statement) (code : List Octet) :
    Layout → Diagnostic → Prop where
  /-- An assignment is refused. -/
  | assign {d}
      (role : s.role = .assign)
      (refused : before.assign s code = .error d) :
      Fails before s code before d
  /-- A relocation is refused, since its octets spell none or a constant is missing. -/
  | relocate {d}
      (role : s.role = .locate)
      (refused : before.relocate s code = .error d) :
      Fails before s code before d
  /-- A relocation leads to a bank that does not exist. -/
  | vacant {relocation moved}
      (role : s.role = .locate)
      (spells : before.Spells code relocation)
      (target : moved = before.move relocation)
      (void : moved.banks ≤ moved.bank) :
      Fails before s code moved ⟨.voidBank moved.bank, s.position⟩
  /-- The label of a relocation is refused where it leads. -/
  | arrive {relocation moved d}
      (role : s.role = .locate)
      (spells : before.Spells code relocation)
      (target : moved = before.move relocation)
      (populated : moved.bank < moved.banks)
      (refused : moved.bindHere s = .error d) :
      Fails before s code moved d
  /-- The label of a statement with octets is refused. -/
  | bind {d}
      (role : s.role = .emit)
      (refused : before.bindHere s = .error d) :
      Fails before s code before d
  /-- The octets of a statement do not fit behind its label. -/
  | overrun {labels}
      (role : s.role = .emit)
      (room : s.label.isSome → before.address < bankSize)
      (bound : Binds before.labels s.label (UInt8.ofNat before.address) labels)
      (exceeds : bankSize < before.address + code.length) :
      Fails before s code { before with address := before.address + code.length, labels }
        (before.overflow s)

variable {before after moved : Layout} {s : Statement} {code : List Octet} {d : Diagnostic}

/-- A relocation leads where its octets say. -/
theorem relocate_eq_ok_iff :
    before.relocate s code = .ok moved ↔
      ∃ relocation, before.Spells code relocation ∧ moved = before.move relocation := by
  constructor
  · intro step
    obtain ⟨mode, octets, values, relocation, spelled, known, relocates, target⟩ :=
      relocation_of_relocate step
    exact ⟨relocation, ⟨mode, octets, values, spelled, known, relocates⟩, target⟩
  · rintro ⟨relocation, ⟨mode, octets, values, rfl, known, relocates⟩, rfl⟩
    simp only [relocate, known, Bind.bind, Except.bind, relocates]
    rfl

/-- The cases of a relocation that is refused. -/
theorem fails_of_placeLocate (role : s.role = .locate)
    (step : before.placeLocate s code = ⟨after, .error d⟩) : Fails before s code after d := by
  unfold placeLocate at step
  split at step
  case h_1 refused =>
    cases step
    exact .relocate role refused
  case h_2 moved relocated =>
    obtain ⟨relocation, spells, target⟩ := relocate_eq_ok_iff.mp relocated
    split at step
    case isTrue populated =>
      split at step
      case h_1 => cases step
      case h_2 refused =>
        cases step
        exact .arrive role spells target populated refused
    case isFalse absent =>
      cases step
      exact .vacant role spells target (Nat.not_lt.mp absent)

/-- The cases of a statement whose octets are refused. -/
theorem fails_of_placeOctets (role : s.role = .emit)
    (step : before.placeOctets s code = ⟨after, .error d⟩) : Fails before s code after d := by
  unfold placeOctets at step
  split at step
  case h_1 refused =>
    cases step
    exact .bind role refused
  case h_2 reached boundHere =>
    obtain ⟨room, labels, rfl, bound⟩ := binds_of_bindHere boundHere
    simp only at step
    split at step
    case isTrue => cases step
    case isFalse exceeds =>
      cases step
      exact .overrun role room bound (Nat.not_le.mp exceeds)

/-- A statement that is refused is refused in one of these ways. -/
theorem fails_of_place (step : before.place s code = ⟨after, .error d⟩) :
    Fails before s code after d := by
  unfold place at step
  cases role : s.role with
  | assign =>
    simp only [role, placeAssign] at step
    split at step
    case h_1 => cases step
    case h_2 refused =>
      cases step
      exact .assign role refused
  | locate => exact fails_of_placeLocate role (by simpa [role] using step)
  | emit => exact fails_of_placeOctets role (by simpa [role] using step)

/-- Being refused in one of these ways is enough. -/
theorem place_of_fails (fails : Fails before s code after d) :
    before.place s code = ⟨after, .error d⟩ := by
  cases fails with
  | assign role refused => simp only [place, role, placeAssign, refused]
  | relocate role refused => simp only [place, role, placeLocate, refused]
  | vacant role spells target void =>
    have relocated := relocate_eq_ok_iff (s := s).mpr ⟨_, spells, target⟩
    simp only [place, role, placeLocate, relocated, Nat.not_lt.mpr void, if_false]
  | arrive role spells target populated refused =>
    have relocated := relocate_eq_ok_iff (s := s).mpr ⟨_, spells, target⟩
    simp only [place, role, placeLocate, relocated, populated, if_true, refused]
  | bind role refused => simp only [place, role, placeOctets, refused]
  | overrun role room bound exceeds =>
    simp only [place, role, placeOctets, bindHere_of_binds room bound, Nat.not_le.mpr exceeds,
      if_false]
    rfl

/-- No label is bound to the end of a bank. -/
theorem bindHere_of_full (labelled : s.label.isSome) (full : bankSize ≤ before.address) :
    before.bindHere s = .error (before.overflow s) := by
  obtain ⟨label, found⟩ := Option.isSome_iff_exists.mp labelled
  simp only [bindHere, found, Nat.not_lt.mpr full, if_false]

/-- A label that is refused stands at the end of the bank, or it is bound already. -/
theorem kind_of_bindHere (refused : before.bindHere s = .error d) :
    s.label.isSome ∧
      (bankSize ≤ before.address ∧ d.kind = .bankOverflow ∨
        before.address < bankSize ∧ d.kind = .duplicateLabel) := by
  unfold bindHere at refused
  split at refused
  case h_1 => cases refused
  case h_2 label labelled =>
    refine ⟨by simp [labelled], ?_⟩
    split at refused
    case isTrue room =>
      unfold Layout.bind at refused
      split at refused
      case isTrue =>
        cases refused
        exact .inr ⟨room, rfl⟩
      case isFalse => cases refused
    case isFalse full =>
      cases refused
      exact .inl ⟨Nat.not_lt.mp full, rfl⟩

/-- A statement that is refused keeps all labels. -/
theorem Fails.grows (fails : Fails before s code after d) : before.labels.Grows after.labels := by
  cases fails with
  | assign => exact List.prefix_rfl
  | relocate => exact List.prefix_rfl
  | vacant _ _ target =>
    rw [target, move_labels]
    exact List.prefix_rfl
  | arrive _ _ target =>
    rw [target, move_labels]
    exact List.prefix_rfl
  | bind => exact List.prefix_rfl
  | overrun _ _ bound => exact bound.grows

end Layout

end BankAsm
