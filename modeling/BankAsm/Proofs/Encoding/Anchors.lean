import BankAsm.Proofs.Encoding.InstructionSet
import BankAsm.Proofs.Statement.Anchors

/-!
# Where octets stand

An octet that depends on the rest of the program keeps the position of the operand that
it was made of (`Encodes.marked`), and a statement that is not encoded is reported at one
of its tokens (`atToken_of_encode`).
-/

namespace BankAsm

variable {ts : List Token} {d : Diagnostic} {s : Statement} {code : List Octet} {octet : Octet}

/-- Whether an octet that is pending keeps the position of a token. -/
def Octet.Marked (ts : List Token) : Octet → Prop
  | .byte _ => True
  | .label _ position => Marks ts position
  | .vector _ _ position => Marks ts position

/-- The octet of a token keeps its position. -/
theorem Token.marked_of_octet? {t : Token} (inside : t ∈ ts) (found : t.octet? = some octet) :
    octet.Marked ts := by
  unfold octet? at found
  split at found
  case h_1 =>
    obtain rfl := Option.some.inj found
    exact ⟨t, inside, rfl⟩
  case h_2 =>
    obtain rfl := Option.some.inj found
    exact ⟨t, inside, rfl⟩
  case h_3 =>
    obtain rfl := Option.some.inj found
    exact ⟨t, inside, rfl⟩
  case h_4 =>
    obtain ⟨value, _, rfl⟩ := Option.map_eq_some_iff.mp found
    trivial

/-- The octet that a template takes keeps the position of a token of the operands. -/
theorem Part.marked_of_octet? {part : Part} {operands : List Operand}
    (leaves : ∀ operand ∈ operands, ∀ t ∈ operand.leaves, t ∈ ts)
    (found : part.octet? operands = some octet) : octet.Marked ts := by
  cases part with
  | byte value =>
    obtain rfl := Option.some.inj found
    trivial
  | number path =>
    obtain ⟨t, here, stands⟩ := Option.bind_eq_some_iff.mp found
    obtain ⟨operand, member, leaf⟩ := Path.exists_leaf_of_token? here
    exact Token.marked_of_octet? (leaves operand member t leaf) stands
  | register base path =>
    obtain ⟨value, _, rfl⟩ := Option.map_eq_some_iff.mp found
    trivial

namespace Datum

/-- The octets of a datum keep the position of its token. -/
theorem marked_of_octets {place : Position} {operand : Operand}
    (leaves : ∀ t ∈ operand.leaves, t ∈ ts) (found : octets place operand = .ok code) :
    ∀ octet ∈ code, octet.Marked ts := by
  intro octet member
  cases operand with
  | group members => cases found
  | token t =>
    have inside : t ∈ ts := leaves t (by simp [Operand.leaves])
    simp only [octets] at found
    split at found
    case h_1 => cases found
    case h_2 => cases found
    case h_8 =>
      obtain rfl := Except.ok.inj found
      obtain ⟨byte, _, rfl⟩ := List.mem_map.mp member
      trivial
    case h_9 =>
      obtain rfl := Except.ok.inj found
      obtain rfl := List.eq_of_mem_replicate member
      trivial
    case h_10 => cases found
    all_goals
      split at found
      case h_2 => cases found
      case h_1 one =>
        obtain rfl := Except.ok.inj found
        obtain rfl := List.mem_singleton.mp member
        exact Token.marked_of_octet? inside one

/-- An operand that is no datum is reported where it stands, a group where its statement
does. -/
theorem atToken_of_octets {place : Position} {operand : Operand} (marks : Marks ts place)
    (leaves : ∀ t ∈ operand.leaves, t ∈ ts)
    (fails : octets place operand = .error (.reported d)) : d.AtToken ts := by
  cases operand with
  | group members =>
    obtain rfl := Failure.reported.inj (Except.error.inj fails)
    exact ⟨marks, rfl⟩
  | token t =>
    have inside : t ∈ ts := leaves t (by simp [Operand.leaves])
    simp only [octets] at fails
    split at fails
    case h_1 | h_2 | h_10 =>
      obtain rfl := Failure.reported.inj (Except.error.inj fails)
      exact ⟨⟨t, inside, rfl⟩, rfl⟩
    case h_8 => cases fails
    case h_9 => cases fails
    all_goals
      split at fails
      case h_1 => cases fails
      case h_2 => cases fails

/-- The octets of data keep the positions of their tokens. -/
theorem marked_of_octetsAll {place : Position} {operands : List Operand}
    (leaves : ∀ operand ∈ operands, ∀ t ∈ operand.leaves, t ∈ ts)
    (found : octetsAll place operands = .ok code) : ∀ octet ∈ code, octet.Marked ts := by
  induction operands generalizing code with
  | nil =>
    obtain rfl := Except.ok.inj found
    simp
  | cons operand operands inductionHypothesis =>
    obtain ⟨here, later⟩ := List.forall_mem_cons.mp leaves
    obtain ⟨first, foundFirst, behind⟩ := Outcome.bind_eq_ok_iff.mp found
    obtain ⟨others, foundOthers, whole⟩ := Outcome.bind_eq_ok_iff.mp behind
    obtain rfl := Except.ok.inj whole
    exact List.forall_mem_append.mpr
      ⟨marked_of_octets here foundFirst, inductionHypothesis later foundOthers⟩

/-- Data that are not encoded are reported at one of their tokens, or where their
statement stands. -/
theorem atToken_of_octetsAll {place : Position} {operands : List Operand}
    (marks : Marks ts place) (leaves : ∀ operand ∈ operands, ∀ t ∈ operand.leaves, t ∈ ts)
    (fails : octetsAll place operands = .error (.reported d)) : d.AtToken ts := by
  induction operands with
  | nil => cases fails
  | cons operand operands inductionHypothesis =>
    obtain ⟨here, later⟩ := List.forall_mem_cons.mp leaves
    rcases Outcome.bind_eq_error_iff.mp fails with first | ⟨_, _, behind⟩
    · exact atToken_of_octets marks here first
    · rcases Outcome.bind_eq_error_iff.mp behind with others | ⟨_, _, finished⟩
      · exact inductionHypothesis later others
      · cases finished

end Datum

/-- The octets of a statement keep the positions of its tokens. -/
theorem Encodes.marked (anchored : s.Anchored ts) (encodes : Encodes s code) :
    ∀ octet ∈ code, octet.Marked ts := by
  cases encodes with
  | form _ _ _ filled =>
    intro octet member
    obtain ⟨part, _, found⟩ := Template.exists_part_of_mem filled member
    exact Part.marked_of_octet? anchored.leaves found
  | data _ octets => exact Datum.marked_of_octetsAll anchored.leaves octets

/-- A statement that is not encoded is reported at one of its tokens. -/
theorem atToken_of_encode (anchored : s.Anchored ts)
    (fails : instructionSet.encode s = .error (.reported d)) : d.AtToken ts := by
  cases found : instructionSet.find? s.signature with
  | none =>
    rw [EncodingTable.encode_of_find?_eq_none found] at fails
    obtain rfl := Failure.reported.inj (Except.error.inj fails)
    exact ⟨anchored.position, rfl⟩
  | some encoder =>
    rw [EncodingTable.encode_of_find? found] at fails
    cases knows_of_find? found with
    | @form form _ _ _ =>
      simp only [Template.encoder] at fails
      split at fails
      case h_1 => cases fails
      case h_2 => cases fails
    | data => exact Datum.atToken_of_octetsAll anchored.position anchored.leaves fails

end BankAsm
