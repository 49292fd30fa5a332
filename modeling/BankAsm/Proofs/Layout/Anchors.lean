import BankAsm.Proofs.Encoding.Anchors
import BankAsm.Proofs.Layout.Failing

/-!
# Where a layout fails

Whatever stands in the way of placing a statement is reported where the statement stands,
at its label, or where one of its octets does (`Layout.Fails.atToken`).
-/

namespace BankAsm.Layout

variable {ts : List Token} {layout : Layout} {s : Statement} {code : List Octet} {d : Diagnostic}

/-- An octet that is no constant is reported where it stands. -/
theorem atToken_of_constant {octet : Octet} (marked : octet.Marked ts)
    (fails : layout.constant octet = .error d) : d.AtToken ts := by
  unfold constant at fails
  split at fails
  case h_1 => cases fails
  case h_2 =>
    split at fails
    case h_1 => cases fails
    case h_2 =>
      obtain rfl := Except.error.inj fails
      exact ⟨marked, rfl⟩
  case h_3 =>
    obtain rfl := Except.error.inj fails
    exact ⟨marked, rfl⟩

/-- Of octets that are not all constants, the first that is none is reported. -/
theorem atToken_of_constants {octets : List Octet} (marked : ∀ octet ∈ octets, octet.Marked ts)
    (fails : layout.constants octets = .error d) : d.AtToken ts := by
  induction octets with
  | nil => cases fails
  | cons octet octets inductionHypothesis =>
    obtain ⟨here, later⟩ := List.forall_mem_cons.mp marked
    rcases Outcome.bind_eq_error_iff.mp fails with first | ⟨_, _, behind⟩
    · exact atToken_of_constant here first
    · rcases Outcome.bind_eq_error_iff.mp behind with others | ⟨_, _, finished⟩
      · exact inductionHypothesis later others
      · cases finished

/-- A label that is bound already is reported where it stands. -/
theorem atToken_of_bind {label : Label} {value : UInt8} (marks : Marks ts label.position)
    (fails : layout.bind label value = .error d) : d.AtToken ts := by
  unfold bind at fails
  split at fails
  · obtain rfl := Except.error.inj fails
    exact ⟨marks, rfl⟩
  · cases fails

/-- A label that cannot be bound here is reported where it or its statement stands. -/
theorem atToken_of_bindHere (anchored : s.Anchored ts) (fails : layout.bindHere s = .error d) :
    d.AtToken ts := by
  unfold bindHere at fails
  split at fails
  case h_1 => cases fails
  case h_2 label labeled =>
    split at fails
    case isTrue => exact atToken_of_bind (anchored.label label labeled) fails
    case isFalse =>
      obtain rfl := Except.error.inj fails
      exact ⟨anchored.position, rfl⟩

/-- Where an assignment fails. -/
theorem atToken_of_assign (anchored : s.Anchored ts) (marked : ∀ octet ∈ code, octet.Marked ts)
    (fails : layout.assign s code = .error d) : d.AtToken ts := by
  unfold assign at fails
  split at fails
  case h_1 octet =>
    rcases Outcome.bind_eq_error_iff.mp fails with unknown | ⟨value, _, behind⟩
    · exact atToken_of_constant (marked octet (List.mem_singleton_self octet)) unknown
    · split at behind
      case h_1 => cases behind
      case h_2 label labeled => exact atToken_of_bind (anchored.label label labeled) behind
  case h_2 =>
    obtain rfl := Except.error.inj fails
    exact ⟨anchored.position, rfl⟩

/-- Where a relocation fails. -/
theorem atToken_of_relocate (anchored : s.Anchored ts)
    (marked : ∀ octet ∈ code, octet.Marked ts) (fails : layout.relocate s code = .error d) :
    d.AtToken ts := by
  unfold relocate at fails
  split at fails
  case h_1 =>
    obtain rfl := Except.error.inj fails
    exact ⟨anchored.position, rfl⟩
  case h_2 =>
    obtain ⟨_, later⟩ := List.forall_mem_cons.mp marked
    rcases Outcome.bind_eq_error_iff.mp fails with unknown | ⟨values, _, behind⟩
    · exact atToken_of_constants later unknown
    · split at behind
      case h_1 => cases behind
      case h_2 =>
        obtain rfl := Except.error.inj behind
        exact ⟨anchored.position, rfl⟩

/-- A statement that is refused is reported at one of its tokens. -/
theorem Fails.atToken {after : Layout} (fails : Fails layout s code after d)
    (anchored : s.Anchored ts) (marked : ∀ octet ∈ code, octet.Marked ts) : d.AtToken ts := by
  cases fails with
  | assign _ refused => exact atToken_of_assign anchored marked refused
  | relocate _ refused => exact atToken_of_relocate anchored marked refused
  | vacant => exact ⟨anchored.position, rfl⟩
  | arrive _ _ _ _ refused => exact atToken_of_bindHere anchored refused
  | bind _ refused => exact atToken_of_bindHere anchored refused
  | overrun => exact ⟨anchored.position, rfl⟩

/-- A statement at its place keeps what its octets keep. -/
theorem Places.marked {after : Layout} {placed : Placed}
    (places : Places layout s code after placed) (marked : ∀ octet ∈ code, octet.Marked ts) :
    ∀ octet ∈ placed.code, octet.Marked ts := by
  cases places with
  | assign => simp
  | locate => simp
  | emit => exact marked

end BankAsm.Layout
