import BankAsm.Proofs.Encoding.Vector
import BankAsm.Proofs.Signature.Shape
import Mathlib.Data.List.Nodup

/-!
# Operation codes

The first octet of an instruction is an operation code, which is counted on from a base
for the forms that name a register. Written out, the codes of all forms ascend
(`opcodes_ascend`), so a code tells the form and the register. The form tells all that
is left: what the operands look like, and whether the octet of a numeral follows.
-/

namespace BankAsm

/-- An operation code with the form that it stands for and the names of the registers
that it stands for there. -/
structure Opcode where
  code : UInt8
  form : Form
  names : List String

namespace Form

/-- The registers that a parameter can name. -/
def registerNames : Option Param → List String
  | some (.kind .index) => Vocabulary.indexRegisters
  | some (.kind .status) => Vocabulary.statusRegisters
  | _ => []

/-- The operation codes of a form: one, or one for each register that it can name. -/
def opcodes (form : Form) : List Opcode :=
  match form.template.head? with
  | some (.byte value) => [⟨value, form, []⟩]
  | some (.register base path) =>
    (registerNames (path.param? form.pattern.params)).filterMap fun name =>
      (registerCode? base name).map fun code => ⟨code, form, [name]⟩
  | _ => []

/-- How many numbers stand in the pattern of a form. -/
def numbers (form : Form) : Nat :=
  (Param.leavesAll (Param.widenAll form.pattern.params)).countP (· = .number)

/-- How many registers stand in the pattern of a form. -/
def registers (form : Form) : Nat :=
  (Param.leavesAll (Param.widenAll form.pattern.params)).countP (· ≠ .number)

/-- Whether a form has an operation code that takes its only register, if it has one, and
behind it the octet of its only number, if it has one. -/
def isRegular (form : Form) : Bool :=
  match form.template with
  | [.byte _] => form.registers = 0 && form.numbers = 0
  | [.byte _, .number _] => form.registers = 0 && form.numbers = 1
  | [.register _ _] => form.registers = 1 && form.numbers = 0
  | [.register _ _, .number _] => form.registers = 1 && form.numbers = 1
  | _ => false

end Form

namespace InstructionSet

/-- All operations have regular forms. -/
theorem operations_regular : ∀ form ∈ operations, form.isRegular := by
  decide +kernel

/-- The operation codes of the language. -/
def opcodes : List Opcode := operations.flatMap Form.opcodes

/-- The operation codes ascend in the order of the forms and their registers. -/
theorem opcodes_ascend : (opcodes.map Opcode.code).IsChain (· < ·) := by
  decide +kernel

/-- An operation code stands for one form and for one choice of registers. -/
theorem opcode_unique {left right : Opcode} (here : left ∈ opcodes) (there : right ∈ opcodes)
    (same : left.code = right.code) : left = right := by
  have ascend := List.isChain_iff_pairwise.mp opcodes_ascend
  have distinct : (opcodes.map Opcode.code).Nodup := ascend.imp fun less => UInt8.ne_of_lt less
  exact List.inj_on_of_nodup_map distinct here there same

end InstructionSet

namespace Form

/-- The parts of the template of a regular form. -/
structure Regular (form : Form) (head : Part) (rest : List Part) : Prop where
  template : form.template = head :: rest
  head : (∃ value, head = .byte value ∧ form.registers = 0) ∨
    ∃ base path, head = .register base path ∧ form.registers = 1
  rest : (rest = [] ∧ form.numbers = 0) ∨ ∃ path, rest = [.number path] ∧ form.numbers = 1

/-- A form that passes the test is regular. -/
theorem exists_regular_of_isRegular {form : Form} (regular : form.isRegular) :
    ∃ head rest, Regular form head rest := by
  unfold isRegular at regular
  split at regular
  case h_5 => cases regular
  case h_1 value template =>
    have counts : form.registers = 0 ∧ form.numbers = 0 := by simpa using regular
    exact ⟨_, _, template, .inl ⟨value, rfl, counts.1⟩, .inl ⟨rfl, counts.2⟩⟩
  case h_2 value path template =>
    have counts : form.registers = 0 ∧ form.numbers = 1 := by simpa using regular
    exact ⟨_, _, template, .inl ⟨value, rfl, counts.1⟩, .inr ⟨path, rfl, counts.2⟩⟩
  case h_3 base path template =>
    have counts : form.registers = 1 ∧ form.numbers = 0 := by simpa using regular
    exact ⟨_, _, template, .inr ⟨base, path, rfl, counts.1⟩, .inl ⟨rfl, counts.2⟩⟩
  case h_4 base path number template =>
    have counts : form.registers = 1 ∧ form.numbers = 1 := by simpa using regular
    exact ⟨_, _, template, .inr ⟨base, path, rfl, counts.1⟩, .inr ⟨number, rfl, counts.2⟩⟩

end Form

/-- A list of one element has only this one. -/
theorem eq_singleton_of_mem {α : Type} {list : List α} {a : α} (single : list.length = 1)
    (member : a ∈ list) : list = [a] := by
  obtain ⟨b, rfl⟩ := List.length_eq_one_iff.mp single
  rw [List.mem_singleton.mp member]

namespace Token

variable {t : Token}

/-- A sound register has one of the names of its kind. -/
theorem mem_registerNames (sound : t.Sound) (kind : t.kind = .index ∨ t.kind = .status) :
    t.text ∈ Form.registerNames (some (.kind t.kind)) := by
  rcases kind with index | status
  · rw [index]
    exact sound.index index
  · rw [status]
    exact sound.status status

/-- A register is no numeral. -/
theorem isNumeral_of_register (kind : t.kind = .index ∨ t.kind = .status) :
    Statement.isNumeral t = false := by
  rcases kind with index | status
  · simp [Statement.isNumeral, index, TokenKind.numbers]
  · simp [Statement.isNumeral, status, TokenKind.numbers]

end Token

section Instructions

open InstructionSet (operations)

variable {form : Form} {head : Part} {rest : List Part} {s : Statement}

/-- The shape of a statement that a form stands for is that of the form. -/
theorem Statement.shape_eq_of_mem
    (stands : Operand.params s.operands ∈ Param.expandAll form.pattern.params) :
    s.shape = Param.widenAll form.pattern.params :=
  Param.widenAll_of_mem_expandAll _ _ stands

/-- A statement that a form stands for has as many names as the form has registers. -/
theorem Statement.length_names_of_mem
    (stands : Operand.params s.operands ∈ Param.expandAll form.pattern.params) :
    s.names.length = form.registers := by
  rw [s.length_names, shape_eq_of_mem stands]
  rfl

/-- A statement that a form stands for has as many numerals as the form has numbers. -/
theorem Statement.length_numerals_of_mem
    (stands : Operand.params s.operands ∈ Param.expandAll form.pattern.params) :
    s.numerals.length = form.numbers := by
  rw [s.length_numerals, shape_eq_of_mem stands]
  rfl

/-- The first octet of an instruction is an operation code of its form, with the names of
its registers. -/
theorem exists_opcode_of_head (regular : form.Regular head rest)
    (fits : head.fits form.pattern.params)
    (stands : Operand.params s.operands ∈ Param.expandAll form.pattern.params)
    (sound : ∀ operand ∈ s.operands, ∀ t ∈ operand.leaves, t.Sound) {octet : Octet}
    (taken : head.octet? s.operands = some octet) :
    ∃ code, octet = .byte code ∧ ⟨code, form, s.names⟩ ∈ form.opcodes := by
  have count := Statement.length_names_of_mem stands
  rcases regular.head with ⟨value, rfl, none⟩ | ⟨base, path, rfl, one⟩
  · cases taken
    have empty : s.names = [] := List.length_eq_zero_iff.mp (count.trans none)
    refine ⟨value, rfl, ?_⟩
    simp [Form.opcodes, regular.template, empty]
  · obtain ⟨code, found, rfl⟩ := Option.map_eq_some_iff.mp taken
    obtain ⟨t, here, coded⟩ := Option.bind_eq_some_iff.mp found
    obtain ⟨kind, param, encodable⟩ := Part.exists_kind_of_fits fits
    obtain ⟨other, sameToken, expands, operand, member, leaf⟩ :=
      path.exists_token stands param (by simp [Param.expand])
    obtain rfl : t = other := Option.some.inj (here.symm.trans sameToken)
    obtain rfl : t.kind = kind := by simpa [Param.expand] using expands
    have named := Token.mem_registerNames (sound operand member t leaf) encodable
    have inNames := Statement.mem_names member leaf (Token.isNumeral_of_register encodable)
    have only : s.names = [t.text] := eq_singleton_of_mem (count.trans one) inNames
    refine ⟨code, rfl, ?_⟩
    simp only [Form.opcodes, regular.template, List.head?_cons, param, List.mem_filterMap]
    exact ⟨t.text, named, by simp [coded, only]⟩

/-- Behind the operation code stand the octets of the numerals of an instruction. -/
theorem octets_of_rest (regular : form.Regular head rest)
    (fits : ∀ part ∈ rest, part.fits form.pattern.params)
    (stands : Operand.params s.operands ∈ Param.expandAll form.pattern.params)
    {octets : List Octet}
    (taken : List.Forall₂ (fun part octet => Part.octet? part s.operands = some octet)
      rest octets) :
    octets.map some = s.numerals.map Token.octet? := by
  have count := Statement.length_numerals_of_mem stands
  rcases regular.rest with ⟨rfl, none⟩ | ⟨path, rfl, one⟩
  · cases taken
    rw [List.length_eq_zero_iff.mp (count.trans none)]
    rfl
  · obtain ⟨octet, others, found, final, rfl⟩ := List.forall₂_cons_left_iff.mp taken
    cases final
    have param : path.param? form.pattern.params = some .number := by
      simpa [Part.fits] using fits (.number path)
    obtain ⟨t, here, expands, operand, member, leaf⟩ :=
      path.exists_token stands param (by simp [Param.expand])
    have numeral : Statement.isNumeral t = true := by
      simpa [Statement.isNumeral, Param.expand] using expands
    -- The pattern has one number, so the token that the template takes is the only numeral.
    rw [eq_singleton_of_mem (count.trans one) (Statement.mem_numerals member leaf numeral)]
    have octet_eq : t.octet? = some octet := by
      simpa [Part.octet?, here] using found
    simp [octet_eq]

/-- How an instruction is encoded: an operation code of its form with the names of its
registers, and behind it the octets of its numerals. -/
structure Instruction (s : Statement) (opcode : Opcode) (octets : List Octet) : Prop where
  listed : opcode ∈ InstructionSet.opcodes
  mnemonic : s.mnemonic = opcode.form.pattern.mnemonic
  shape : s.shape = Param.widenAll opcode.form.pattern.params
  names : s.names = opcode.names
  numerals : octets.map some = s.numerals.map Token.octet?
  length : octets.length = opcode.form.numbers
  short : opcode.form.numbers ≤ 1

/-- Every instruction that the language encodes has an operation code. -/
theorem Encodes.exists_opcode {code : List Octet} (encodes : Encodes s code)
    (plain : s.isDirective = false)
    (sound : ∀ operand ∈ s.operands, ∀ t ∈ operand.leaves, t.Sound) :
    ∃ opcode octets, code = .byte opcode.code :: octets ∧ Instruction s opcode octets := by
  obtain ⟨form, operation, mnemonic, stands, filled⟩ := encodes.exists_operation plain
  obtain ⟨head, rest, regular⟩ :=
    Form.exists_regular_of_isRegular (InstructionSet.operations_regular form operation)
  obtain ⟨_, fits⟩ := InstructionSet.forms_fit form (List.mem_append_left _ operation)
  have parts := Template.forall₂_of_fill? filled
  rw [regular.template] at parts fits
  obtain ⟨octet, octets, first, others, rfl⟩ := List.forall₂_cons_left_iff.mp parts
  obtain ⟨opcode, rfl, listed⟩ :=
    exists_opcode_of_head regular (fits head List.mem_cons_self) stands sound first
  have numerals := octets_of_rest regular
    (fun part member => fits part (List.mem_cons_of_mem head member)) stands others
  have short : form.numbers ≤ 1 := by
    rcases regular.rest with ⟨_, none⟩ | ⟨_, _, one⟩
    · omega
    · omega
  refine ⟨⟨opcode, form, s.names⟩, octets, rfl, ?_⟩
  exact {
    listed := List.mem_flatMap.mpr ⟨form, operation, listed⟩
    mnemonic := mnemonic
    shape := Statement.shape_eq_of_mem stands
    names := rfl
    numerals := numerals
    length := by
      have lengths := congrArg List.length numerals
      rw [List.length_map, List.length_map, Statement.length_numerals_of_mem stands] at lengths
      exact lengths
    short := short }

end Instructions

end BankAsm
