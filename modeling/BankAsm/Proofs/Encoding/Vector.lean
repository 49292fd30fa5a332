import BankAsm.Proofs.Encoding.InstructionSet
import BankAsm.Proofs.Token.Bytes

/-!
# Where vectors come from

Only the forms of operations have vectors among their octets, and each of them is a
token of the statement. Data have none, and a directive of the layout keeps no octets.
-/

namespace BankAsm

variable {direction : Direction} {steps : Nat} {position : Position}

/-- A token whose octet is a vector counts its steps. -/
theorem Token.isVector_of_octet? {t : Token}
    (found : t.octet? = some (.vector direction steps position)) :
    t.kind.isVector ∧ steps = t.steps := by
  unfold Token.octet? at found
  split at found
  case h_1 => cases found
  case h_2 kind =>
    cases found
    exact ⟨by simp [kind, TokenKind.isVector], rfl⟩
  case h_3 kind =>
    cases found
    exact ⟨by simp [kind, TokenKind.isVector], rfl⟩
  case h_4 =>
    obtain ⟨value, _, impossible⟩ := Option.map_eq_some_iff.mp found
    cases impossible

/-- A part of a template whose octet is a vector takes it from a token of the operands. -/
theorem Part.exists_leaf_of_vector {part : Part} {operands : List Operand}
    (found : part.octet? operands = some (.vector direction steps position)) :
    ∃ operand ∈ operands, ∃ t ∈ operand.leaves,
      t.octet? = some (.vector direction steps position) := by
  cases part with
  | byte value => cases found
  | number path =>
    obtain ⟨t, here, octet⟩ := Option.bind_eq_some_iff.mp found
    obtain ⟨operand, member, leaf⟩ := Path.exists_leaf_of_token? here
    exact ⟨operand, member, t, leaf, octet⟩
  | register base path =>
    obtain ⟨code, _, impossible⟩ := Option.map_eq_some_iff.mp found
    cases impossible

namespace Datum

/-- The octets of an operand of data are no vectors. -/
theorem vector_notMem_of_octets {here : Position} {operand : Operand} {code : List Octet}
    (found : octets here operand = .ok code) : .vector direction steps position ∉ code := by
  intro member
  cases operand with
  | group members => cases found
  | token t =>
    simp only [octets] at found
    split at found
    case h_1 => cases found
    case h_2 => cases found
    case h_8 =>
      cases found
      simp at member
    case h_9 =>
      cases found
      simp [List.mem_replicate] at member
    case h_10 => cases found
    all_goals
      rename_i kind
      split at found
      case h_2 => cases found
      case h_1 octet one =>
        cases found
        rw [← List.mem_singleton.mp member] at one
        have vector := (Token.isVector_of_octet? one).1
        rw [kind] at vector
        cases vector

/-- The octets of data are no vectors. -/
theorem vector_notMem_of_octetsAll {here : Position} {operands : List Operand}
    {code : List Octet} (found : octetsAll here operands = .ok code) :
    .vector direction steps position ∉ code := by
  induction operands generalizing code with
  | nil =>
    cases found
    simp
  | cons operand operands inductionHypothesis =>
    obtain ⟨first, here, behind⟩ := Outcome.bind_eq_ok_iff.mp found
    obtain ⟨others, later, whole⟩ := Outcome.bind_eq_ok_iff.mp behind
    cases whole
    intro member
    rcases List.mem_append.mp member with early | late
    · exact vector_notMem_of_octets here early
    · exact inductionHypothesis later late

end Datum

variable {s : Statement} {code : List Octet}

/-- A statement whose octets have a vector is no data, and the vector is one of its
tokens. -/
theorem Encodes.exists_leaf_of_vector (encodes : Encodes s code)
    (slot : .vector direction steps position ∈ code) :
    s.mnemonic ≠ "DATA" ∧ ∃ operand ∈ s.operands, ∃ t ∈ operand.leaves,
      t.kind.isVector ∧ steps = t.steps := by
  cases encodes with
  | data _ octets => exact absurd slot (Datum.vector_notMem_of_octetsAll octets)
  | form listed mnemonic _ filled =>
    obtain ⟨noData, _⟩ := InstructionSet.forms_fit _ listed
    refine ⟨fun isData => noData (mnemonic.symm.trans isData), ?_⟩
    obtain ⟨part, _, found⟩ := Template.exists_part_of_mem filled slot
    obtain ⟨operand, member, t, leaf, octet⟩ := Part.exists_leaf_of_vector found
    exact ⟨operand, member, t, leaf, Token.isVector_of_octet? octet⟩

namespace InstructionSet

/-- Every operation has an operation code. -/
theorem operations_filled : ∀ form ∈ operations, form.template ≠ [] := by
  decide +kernel

/-- The forms behind those of the operations are of directives. -/
theorem directives_direct :
    ∀ form ∈ directives, Vocabulary.isDirective form.pattern.mnemonic := by decide

/-- A form of an instruction is one of an operation. -/
theorem mem_operations_of_plain {form : Form} (listed : form ∈ operations ++ directives)
    (mnemonic : s.mnemonic = form.pattern.mnemonic) (plain : s.isDirective = false) :
    form ∈ operations := by
  rcases List.mem_append.mp listed with operation | directive
  · exact operation
  · have direct := directives_direct form directive
    rw [← mnemonic] at direct
    simp [Statement.isDirective, direct] at plain

end InstructionSet

/-- Data are no instruction. -/
theorem Statement.mnemonic_ne_data (plain : s.isDirective = false) : s.mnemonic ≠ "DATA" := by
  intro mnemonic
  have direct : Vocabulary.isDirective "DATA" = true := by decide
  simp [isDirective, mnemonic, direct] at plain

/-- An instruction gets its octets from the form of an operation. -/
theorem Encodes.exists_operation (encodes : Encodes s code) (plain : s.isDirective = false) :
    ∃ form ∈ InstructionSet.operations, s.mnemonic = form.pattern.mnemonic ∧
      Operand.params s.operands ∈ Param.expandAll form.pattern.params ∧
      form.template.fill? s.operands = some code := by
  cases encodes with
  | data mnemonic => exact absurd mnemonic (s.mnemonic_ne_data plain)
  | @form form listed mnemonic stands filled =>
    exact ⟨form, InstructionSet.mem_operations_of_plain listed mnemonic plain, mnemonic, stands,
      filled⟩

/-- An instruction has octets. -/
theorem Encodes.code_ne_nil (encodes : Encodes s code) (plain : s.isDirective = false) :
    code ≠ [] := by
  obtain ⟨form, operation, _, _, filled⟩ := encodes.exists_operation plain
  rintro rfl
  have empty := List.forall₂_nil_right_iff.mp (Template.forall₂_of_fill? filled)
  exact InstructionSet.operations_filled form operation empty

end BankAsm
