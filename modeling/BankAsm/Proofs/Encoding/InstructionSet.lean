import BankAsm.Encoding.InstructionSet
import BankAsm.Proofs.Encoding.Table
import BankAsm.Proofs.Encoding.Template

/-!
# The instruction set encodes what it knows

Every form of the instruction set takes from its operands what its pattern says is
there, and the operation codes of a family stay within a byte. Both are properties of
the declared forms and are decided. With sound tokens, no statement that the table
has an encoder for is stuck (`encode_ne_stuck`).
-/

namespace BankAsm

namespace Datum

/-- Operands with sound tokens have octets or are no data. -/
theorem octets_ne_stuck {operand : Operand} (position : Position)
    (sound : ∀ t ∈ operand.leaves, t.Sound) : octets position operand ≠ .error .stuck := by
  cases operand with
  | group members => simp [octets]
  | token t =>
    have tokenSound : t.Sound := sound t (by simp [Operand.leaves])
    have known : t.kind ∈ TokenKind.numbers → ∃ octet, t.octet? = some octet := fun number =>
      Option.isSome_iff_exists.mp (Token.octet?_isSome tokenSound number)
    cases kind : t.kind
    case digit | decimal | hexadecimal | character | reference =>
      obtain ⟨octet, found⟩ := known (by simp [kind, TokenKind.numbers])
      simp [octets, kind, found]
    all_goals simp [octets, kind]

/-- Data with sound tokens have octets, or one of the operands is no data. -/
theorem octetsAll_ne_stuck {operands : List Operand} (position : Position)
    (sound : ∀ operand ∈ operands, ∀ t ∈ operand.leaves, t.Sound) :
    octetsAll position operands ≠ .error .stuck := by
  induction operands with
  | nil => simp [octetsAll]
  | cons operand operands inductionHypothesis =>
    intro stuck
    rcases Outcome.bind_eq_error_iff.mp stuck with here | ⟨first, _, behind⟩
    · exact octets_ne_stuck position (sound operand List.mem_cons_self) here
    · rcases Outcome.bind_eq_error_iff.mp behind with later | ⟨others, _, finished⟩
      · exact inductionHypothesis
          (fun other member => sound other (List.mem_cons_of_mem operand member)) later
      · cases finished

end Datum

namespace InstructionSet

/-- All forms fit. -/
theorem forms_fit : ∀ form ∈ operations ++ directives,
    form.pattern.mnemonic ≠ "DATA" ∧ ∀ part ∈ form.template, part.fits form.pattern.params := by
  decide +kernel

/-- The codes that the families count on to stay within a byte. -/
theorem families_fit :
    (∀ entry ∈ branches, entry.2.toNat + 3 < 256) ∧
      (∀ entry ∈ binaries, entry.2.toNat + 4 < 256) ∧
        ∀ entry ∈ unaries, entry.2.toNat + 1 < 256 := by
  decide

/-- A rule of the language is that of a form, or the rule of data. -/
theorem mem_rules {rule : Rule} (member : rule ∈ rules) :
    (∃ form ∈ operations ++ directives, rule = form.rule) ∨ rule = data := by
  rcases List.mem_append.mp member with isForm | isData
  · obtain ⟨form, listed, rfl⟩ := List.mem_map.mp isForm
    exact .inl ⟨form, listed, rfl⟩
  · exact .inr (List.mem_singleton.mp isData)

end InstructionSet

open InstructionSet (operations directives forms_fit mem_rules)

/-- How the instruction set comes by the encoder of a statement. -/
inductive Knows (s : Statement) : Encoder → Prop where
  | form {form}
      (listed : form ∈ operations ++ directives)
      (mnemonic : s.mnemonic = form.pattern.mnemonic)
      (stands : Operand.params s.operands ∈ Param.expandAll form.pattern.params) :
      Knows s form.template.encoder
  | data (mnemonic : s.mnemonic = "DATA") : Knows s Datum.encoder

/-- The instruction set has an encoder for the statements of its forms, and for data. -/
theorem knows_of_find? {s : Statement} {encoder : Encoder}
    (found : instructionSet.find? s.signature = some encoder) : Knows s encoder := by
  obtain ⟨rule, member, pattern, listed, stands, rfl⟩ :=
    EncodingTable.exists_rule_of_find? found
  rcases mem_rules member with ⟨form, isForm, rfl⟩ | rfl
  · obtain rfl := List.mem_singleton.mp listed
    obtain ⟨noData, _⟩ := forms_fit form isForm
    obtain ⟨sameMnemonic, paramsStand⟩ := Signature.mem_expand_iff.mp stands
    -- `DATA` hides its operands from its signature, so only other statements show theirs.
    have notData : s.mnemonic ≠ "DATA" := by
      intro isData
      simp only [Statement.signature, isData, if_true] at sameMnemonic
      exact noData sameMnemonic.symm
    simp only [Statement.signature, notData, if_false] at sameMnemonic paramsStand
    exact .form isForm sameMnemonic paramsStand
  · obtain rfl := List.mem_singleton.mp listed
    obtain ⟨sameMnemonic, _⟩ := Signature.mem_expand_iff.mp stands
    refine .data ?_
    unfold Statement.signature at sameMnemonic
    split at sameMnemonic
    case isTrue isData => exact isData
    case isFalse => exact sameMnemonic

/-- The tokens in the operands of a statement of a source are sound. -/
theorem Statement.sound_of_mem_ofSource {source : String} {s : Statement}
    (parsed : s ∈ (Statement.ofSource source).items) :
    ∀ operand ∈ s.operands, ∀ t ∈ operand.leaves, t.Sound := fun operand here t leaf =>
  Token.sound_of_mem_ofSource (mem_tokens_of_mem_ofSource parsed operand here t leaf)

/-- A statement with sound tokens is encoded, or what is wrong with it is reported. -/
theorem instructionSet_encode_ne_stuck {s : Statement}
    (sound : ∀ operand ∈ s.operands, ∀ t ∈ operand.leaves, t.Sound) :
    instructionSet.encode s ≠ .error .stuck := by
  intro stuck
  cases found : instructionSet.find? s.signature with
  | none =>
    rw [EncodingTable.encode_of_find?_eq_none found] at stuck
    cases stuck
  | some encoder =>
    rw [EncodingTable.encode_of_find? found] at stuck
    cases knows_of_find? found with
    | form listed _ stands =>
      exact Template.encoder_ne_stuck (forms_fit _ listed).2 stands sound stuck
    | data => exact Datum.octetsAll_ne_stuck s.position sound stuck

/-- A statement that the table knows is encoded by the template of the form that it fits. -/
theorem encode_of_form {s : Statement} {template : Template}
    (known : instructionSet.contains s.signature) (noData : s.mnemonic ≠ "DATA")
    (only : ∀ form ∈ operations ++ directives, form.pattern.mnemonic = s.mnemonic →
      Operand.params s.operands ∈ Param.expandAll form.pattern.params → form.template = template) :
    instructionSet.encode s = template.encoder s := by
  obtain ⟨encoder, found⟩ := Option.isSome_iff_exists.mp known
  rw [EncodingTable.encode_of_find? found]
  cases knows_of_find? found with
  | form listed mnemonic stands => rw [← only _ listed mnemonic.symm stands]
  | data mnemonic => exact absurd mnemonic noData

/-- Data are encoded as such, whatever their operands are. -/
theorem encode_of_data {s : Statement} (mnemonic : s.mnemonic = "DATA") :
    instructionSet.encode s = Datum.octetsAll s.position s.operands := by
  have signature : s.signature = ⟨"DATA", []⟩ := by simp [Statement.signature, mnemonic]
  have known : instructionSet.contains ⟨"DATA", []⟩ := by decide +kernel
  rw [← signature] at known
  obtain ⟨encoder, found⟩ := Option.isSome_iff_exists.mp known
  rw [EncodingTable.encode_of_find? found]
  cases knows_of_find? found with
  | form listed same => exact absurd (same.symm.trans mnemonic) (forms_fit _ listed).1
  | data => rfl

/-- How a statement gets its octets: from the template of a form, or as data. -/
inductive Encodes (s : Statement) (code : List Octet) : Prop where
  | form {form}
      (listed : form ∈ operations ++ directives)
      (mnemonic : s.mnemonic = form.pattern.mnemonic)
      (stands : Operand.params s.operands ∈ Param.expandAll form.pattern.params)
      (filled : form.template.fill? s.operands = some code) :
      Encodes s code
  | data
      (mnemonic : s.mnemonic = "DATA")
      (octets : Datum.octetsAll s.position s.operands = .ok code) :
      Encodes s code

/-- The octets of a statement in the language are those of a form, or data. -/
theorem encodes_of_encode {s : Statement} {code : List Octet}
    (encoded : instructionSet.encode s = .ok code) : Encodes s code := by
  cases found : instructionSet.find? s.signature with
  | none =>
    rw [EncodingTable.encode_of_find?_eq_none found] at encoded
    cases encoded
  | some encoder =>
    rw [EncodingTable.encode_of_find? found] at encoded
    cases knows_of_find? found with
    | form listed mnemonic stands =>
      exact .form listed mnemonic stands (Template.encoder_eq_ok_iff.mp encoded)
    | data mnemonic => exact .data mnemonic encoded

end BankAsm
