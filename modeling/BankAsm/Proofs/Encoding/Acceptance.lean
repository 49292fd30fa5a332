import BankAsm.Proofs.Encoding.Matching
import BankAsm.Proofs.Encoding.Opcode

/-!
# What the instruction set accepts

The patterns of the language are flat: at most two parameters, each of them for a number or a
register that can be encoded, or a group of at most two of those (`forms_flat`). So an accepted
statement has flat operands, and whether it is accepted does not depend on the kinds of its
numbers. Its operation code does not depend on its number either (`KeepsToForms`).
-/

namespace BankAsm

/-- The kinds of tokens that an encoding can be asked for. -/
def TokenKind.encodable : List TokenKind := .index :: .status :: numbers

/-- Kinds that are equal or both of numbers. -/
def TokenKind.Related (kind other : TokenKind) : Prop :=
  (kind ∈ numbers ∧ other ∈ numbers) ∨ other = kind

/-- Tokens that an instruction may have in each other's place: any two numbers, or tokens of the
same kind and text. -/
def Token.Interchangeable (t u : Token) : Prop :=
  (t.kind ∈ TokenKind.numbers ∧ u.kind ∈ TokenKind.numbers) ∨ (u.kind = t.kind ∧ u.text = t.text)

namespace Operand

/-- The groups in an operand at every depth, by their members. -/
def groups : Operand → List (List Operand)
  | .token _ => []
  | .group members => members :: members.flatMap groups

/-- Operands that a form can have: a token of an encodable kind, or at most two of them in
brackets. -/
inductive Flat : Operand → Prop where
  | token {t} (encodable : t.kind ∈ TokenKind.encodable) : Flat (.token t)
  | group {members : List Operand}
      (short : members.length ≤ 2)
      (tokens : ∀ member ∈ members, ∃ t, member = .token t ∧ t.kind ∈ TokenKind.encodable) :
      Flat (.group members)

variable {operand : Operand} {members : List Operand} {t : Token}

/-- The tokens of a flat operand are of encodable kinds. -/
theorem Flat.leaf_kind (flat : operand.Flat) (leaf : t ∈ operand.leaves) :
    t.kind ∈ TokenKind.encodable := by
  cases flat with
  | token encodable =>
    rw [leaves, List.mem_singleton] at leaf
    rwa [leaf]
  | group _ tokens =>
    rw [leaves] at leaf
    obtain ⟨member, here, inside⟩ := List.mem_flatMap.mp leaf
    obtain ⟨u, rfl, encodable⟩ := tokens member here
    rw [leaves, List.mem_singleton] at inside
    rwa [inside]

/-- A flat operand has one group at most, which has at most two members and all of them
tokens. -/
theorem Flat.group_tokens (flat : operand.Flat) (group : members ∈ operand.groups) :
    members.length ≤ 2 ∧ ∀ member ∈ members, ∃ t, member = .token t := by
  cases flat with
  | token _ =>
    rw [groups] at group
    cases group
  | @group outer short tokens =>
    have none : outer.flatMap groups = [] := by
      refine List.flatMap_eq_nil_iff.mpr fun member here => ?_
      obtain ⟨t, rfl, _⟩ := tokens member here
      rw [groups]
    rw [groups, none, List.mem_singleton] at group
    subst group
    exact ⟨short, fun member here => (tokens member here).imp fun _ => And.left⟩

end Operand

/-- What no form of the language has among its operands: a token of one of five kinds, a group
in a group, or more than two operands in a row. -/
inductive Unencodable (s : Statement) : Prop where
  | foreign {operand t}
      (member : operand ∈ s.operands) (leaf : t ∈ operand.leaves)
      (kind : t.kind ∈ [.pointer, .string, .newline, .mnemonic, .assignment]) : Unencodable s
  | nested {operand members inner}
      (member : operand ∈ s.operands) (group : members ∈ operand.groups)
      (inside : .group inner ∈ members) : Unencodable s
  | wide (many : 2 < s.operands.length) : Unencodable s
  | wideGroup {operand members}
      (member : operand ∈ s.operands) (group : members ∈ operand.groups)
      (many : 2 < members.length) : Unencodable s

namespace Param

/-- Whether a parameter is for a number, or for a register that can be encoded. -/
def isEncodable : Param → Bool
  | .kind k => k = .index || k = .status
  | .number => true
  | .group _ | .register => false

/-- Whether a parameter is encodable, or a group of at most two that are. -/
def isFlat (p : Param) : Bool :=
  p.isEncodable ||
    match p with
    | .group ps => ps.length ≤ 2 && ps.all isEncodable
    | _ => false

variable {p : Param} {operand : Operand}

/-- A flat parameter is encodable, or a group of at most two that are. -/
theorem encodable_or_group_of_isFlat (flat : p.isFlat) : p.isEncodable ∨
    ∃ ps, p = .group ps ∧ ps.length ≤ 2 ∧ ∀ q ∈ ps, q.isEncodable := by
  rcases Bool.or_eq_true_iff.mp flat with encodable | group
  · exact .inl encodable
  · cases p with
    | group ps =>
      simp only [Bool.and_eq_true, decide_eq_true_eq, List.all_eq_true] at group
      exact .inr ⟨ps, rfl, group⟩
    | kind | register | number => cases group

/-- An encodable parameter is for an index register, a status register or a number. -/
theorem eq_of_isEncodable (encodable : p.isEncodable) :
    p = .kind .index ∨ p = .kind .status ∨ p = .number := by
  cases p with
  | kind k => simpa [isEncodable] using encodable
  | number => exact .inr (.inr rfl)
  | group | register => cases encodable

/-- An encodable parameter is for tokens of encodable kinds. -/
theorem exists_token_of_isEncodable (encodable : p.isEncodable)
    (stands : operand.param ∈ p.expand) :
    ∃ t, operand = .token t ∧ t.kind ∈ TokenKind.encodable := by
  have kinds : ∃ kind ∈ TokenKind.encodable, operand.param = .kind kind := by
    rcases eq_of_isEncodable encodable with rfl | rfl | rfl
    · exact ⟨.index, by decide, by simpa [expand] using stands⟩
    · exact ⟨.status, by decide, by simpa [expand] using stands⟩
    · obtain ⟨k, number, same⟩ := List.mem_map.mp stands
      exact ⟨k, List.mem_cons_of_mem _ (List.mem_cons_of_mem _ number), same.symm⟩
  obtain ⟨kind, listed, shape⟩ := kinds
  obtain ⟨t, rfl, rfl⟩ := Operand.eq_token_of_param_eq_kind shape
  exact ⟨t, rfl, listed⟩

/-- A flat parameter is for flat operands. -/
theorem flat_of_isFlat (flat : p.isFlat) (stands : operand.param ∈ p.expand) : operand.Flat := by
  rcases encodable_or_group_of_isFlat flat with encodable | ⟨ps, rfl, short, encodable⟩
  · obtain ⟨t, rfl, listed⟩ := exists_token_of_isEncodable encodable stands
    exact .token listed
  · obtain ⟨shapes, shapesStand, isGroup⟩ := exists_of_mem_expand_group stands
    obtain ⟨members, rfl, rfl⟩ := Operand.eq_group_of_param_eq_group isGroup
    obtain ⟨length, fit⟩ := Operand.fit_of_params_mem shapesStand
    refine .group (length ▸ short) fun member here => ?_
    obtain ⟨q, listed, memberStands⟩ := fit member here
    exact exists_token_of_isEncodable (encodable q listed) memberStands

/-- The parameters in a flat parameter are encodable. -/
theorem isEncodable_of_mem_leaves (flat : p.isFlat) : ∀ q ∈ p.leaves, q.isEncodable := by
  have single : ∀ q : Param, q.isEncodable → ∀ r ∈ q.leaves, r.isEncodable := by
    rintro q encodable r member
    rcases eq_of_isEncodable encodable with rfl | rfl | rfl <;>
      rwa [List.mem_singleton.mp member]
  rcases encodable_or_group_of_isFlat flat with encodable | ⟨ps, rfl, _, encodable⟩
  · exact single p encodable
  · intro q member
    rw [leaves, leavesAll_eq_flatMap] at member
    obtain ⟨r, listed, inside⟩ := List.mem_flatMap.mp member
    exact single r (encodable r listed) q inside

/-- An encodable parameter does not tell one kind of number from another. -/
theorem blind_of_isEncodable (encodable : p.isEncodable) : p.Blind TokenKind.Related := by
  rintro kind other (⟨number, otherNumber⟩ | rfl) stands
  · have apart : .index ∉ TokenKind.numbers ∧ .status ∉ TokenKind.numbers := by decide
    rcases eq_of_isEncodable encodable with rfl | rfl | rfl
    · obtain rfl : kind = .index := by simpa [expand] using stands
      exact absurd number apart.1
    · obtain rfl : kind = .status := by simpa [expand] using stands
      exact absurd number apart.2
    · simpa [expand] using otherNumber
  · exact stands

end Param

namespace InstructionSet

/-- All forms are flat. -/
theorem forms_flat : ∀ form ∈ operations ++ directives,
    form.pattern.params.length ≤ 2 ∧ ∀ p ∈ form.pattern.params, p.isFlat := by
  decide +kernel

/-- No pattern of the language tells one kind of number from another. -/
theorem patterns_blind {rule : Rule} (listed : rule ∈ rules) {pattern : Signature}
    (among : pattern ∈ rule.patterns) :
    ∀ p ∈ Param.leavesAll pattern.params, p.Blind TokenKind.Related := by
  rcases mem_rules listed with ⟨form, isForm, rfl⟩ | rfl
  · obtain rfl := List.mem_singleton.mp among
    intro p member
    rw [Param.leavesAll_eq_flatMap] at member
    obtain ⟨q, here, inside⟩ := List.mem_flatMap.mp member
    exact Param.blind_of_isEncodable
      (Param.isEncodable_of_mem_leaves ((forms_flat form isForm).2 q here) p inside)
  · obtain rfl := List.mem_singleton.mp among
    intro p member
    cases member

end InstructionSet

section Statements

variable {s other : Statement}

/-- A statement that has an encoder and is no data has flat operands, two of them at most. -/
theorem flat_of_find? {encoder : Encoder}
    (found : instructionSet.find? s.signature = some encoder) (noData : s.mnemonic ≠ "DATA") :
    s.operands.length ≤ 2 ∧ ∀ operand ∈ s.operands, operand.Flat := by
  cases knows_of_find? found with
  | data mnemonic => exact absurd mnemonic noData
  | @form form listed _ stands =>
    obtain ⟨short, flat⟩ := InstructionSet.forms_flat form listed
    obtain ⟨length, fit⟩ := Operand.fit_of_params_mem stands
    refine ⟨length ▸ short, fun operand member => ?_⟩
    obtain ⟨p, here, operandStands⟩ := fit operand member
    exact Param.flat_of_isFlat (flat p here) operandStands

/-- A statement that has an encoder and is no data has nothing that no form has. -/
theorem not_unencodable_of_find? {encoder : Encoder}
    (found : instructionSet.find? s.signature = some encoder) (noData : s.mnemonic ≠ "DATA") :
    ¬Unencodable s := by
  obtain ⟨short, flat⟩ := flat_of_find? found noData
  rintro (⟨member, leaf, kind⟩ | ⟨member, group, inside⟩ | many | ⟨member, group, many⟩)
  · have apart : ∀ kind ∈ [TokenKind.pointer, .string, .newline, .mnemonic, .assignment],
        kind ∉ TokenKind.encodable := by decide
    exact apart _ kind ((flat _ member).leaf_kind leaf)
  · obtain ⟨t, impossible⟩ := ((flat _ member).group_tokens group).2 _ inside
    cases impossible
  · omega
  · have few := ((flat _ member).group_tokens group).1
    omega

/-- Statements whose tokens are interchangeable one by one have the same encoder. -/
theorem find?_eq_of_interchangeable (mnemonic : other.mnemonic = s.mnemonic)
    (matching : Operand.Matches Token.Interchangeable s.operands other.operands) :
    instructionSet.find? s.signature = instructionSet.find? other.signature := by
  have symmetric : ∀ kind other : TokenKind, kind.Related other → other.Related kind := by
    rintro kind other (⟨number, otherNumber⟩ | rfl)
    · exact .inl ⟨otherNumber, number⟩
    · exact .inr rfl
  exact find?_signature_of_blind symmetric
    (fun _ listed _ among => InstructionSet.patterns_blind listed among)
    (matching.mono fun t u same => same.imp_right And.left) mnemonic

/-- An instruction that has an encoder has that of the form of an operation. -/
theorem exists_operation_of_find? {encoder : Encoder}
    (found : instructionSet.find? s.signature = some encoder) (plain : s.isDirective = false) :
    ∃ form ∈ InstructionSet.operations, encoder = form.template.encoder ∧
      Operand.params s.operands ∈ Param.expandAll form.pattern.params := by
  cases knows_of_find? found with
  | data mnemonic => exact absurd mnemonic (s.mnemonic_ne_data plain)
  | @form form listed mnemonic stands =>
    exact ⟨form, InstructionSet.mem_operations_of_plain listed mnemonic plain, rfl, stands⟩

/-- An instruction with sound tokens that has an encoder is an operation code with the octets of
its numerals, of which there is at most one. -/
theorem exists_code_of_find? {encoder : Encoder}
    (found : instructionSet.find? s.signature = some encoder) (plain : s.isDirective = false)
    (sound : ∀ operand ∈ s.operands, ∀ t ∈ operand.leaves, t.Sound) :
    ∃ code octets, instructionSet.encode s = .ok (.byte code :: octets) ∧
      octets.map some = s.numerals.map Token.octet? ∧ octets.length ≤ 1 := by
  obtain ⟨form, _, rfl, _⟩ := exists_operation_of_find? found plain
  have notStuck := instructionSet_encode_ne_stuck sound
  cases encoded : instructionSet.encode s with
  | error failure =>
    rw [EncodingTable.encode_of_find? found, Template.encoder] at encoded notStuck
    split at encoded
    case h_1 => cases encoded
    case h_2 filled => simp [filled] at notStuck
  | ok octets =>
    obtain ⟨opcode, others, rfl, instruction⟩ :=
      (encodes_of_encode encoded).exists_opcode plain sound
    exact ⟨opcode.code, others, rfl, instruction.numerals,
      instruction.length ▸ instruction.short⟩

/-- The part that an operation code is taken from takes the same one from tokens that are
interchangeable. -/
theorem octet?_head_of_interchangeable {form : Form} {head : Part} {rest : List Part}
    {operands others : List Operand} (regular : form.Regular head rest)
    (fits : head.fits form.pattern.params)
    (stands : Operand.params operands ∈ Param.expandAll form.pattern.params)
    (matching : Operand.Matches Token.Interchangeable operands others) :
    head.octet? others = head.octet? operands := by
  rcases regular.head with ⟨value, rfl, _⟩ | ⟨base, path, rfl, _⟩
  · rfl
  · obtain ⟨kind, param, encodable⟩ := Part.exists_kind_of_fits fits
    obtain ⟨t, found, expands, _⟩ := path.exists_token stands param (by simp [Param.expand])
    obtain rfl : t.kind = kind := by simpa [Param.expand] using expands
    obtain ⟨u, foundToo, same⟩ := matching.token?_eq found
    have noNumber : t.kind ∉ TokenKind.numbers := by
      rcases encodable with index | status
      · simp [index, TokenKind.numbers]
      · simp [status, TokenKind.numbers]
    have text : u.text = t.text := (same.resolve_left fun both => noNumber both.1).2
    simp [Part.octet?, found, foundToo, text]

/-- Instructions whose tokens are interchangeable have the same operation code. -/
theorem exists_same_code {code : UInt8} {octets : List Octet} (plain : s.isDirective = false)
    (mnemonic : other.mnemonic = s.mnemonic)
    (matching : Operand.Matches Token.Interchangeable s.operands other.operands)
    (sound : ∀ operand ∈ other.operands, ∀ t ∈ operand.leaves, t.Sound)
    (encoded : instructionSet.encode s = .ok (.byte code :: octets)) :
    ∃ others, instructionSet.encode other = .ok (.byte code :: others) := by
  have same := find?_eq_of_interchangeable mnemonic matching
  cases found : instructionSet.find? s.signature with
  | none =>
    rw [EncodingTable.encode_of_find?_eq_none found] at encoded
    cases encoded
  | some encoder =>
    have foundToo := same.symm.trans found
    have plainToo : other.isDirective = false := by
      rwa [Statement.isDirective, mnemonic]
    obtain ⟨codeToo, others, encodedToo, _⟩ := exists_code_of_find? foundToo plainToo sound
    obtain ⟨form, operation, rfl, stands⟩ := exists_operation_of_find? found plain
    obtain ⟨head, rest, regular⟩ :=
      Form.exists_regular_of_isRegular (InstructionSet.operations_regular form operation)
    obtain ⟨_, fits⟩ := InstructionSet.forms_fit form (List.mem_append_left _ operation)
    have fitsHead : head.fits form.pattern.params := fits head (by simp [regular.template])
    -- The same template is filled for both, so the first octets are taken by the same part.
    rw [EncodingTable.encode_of_find? found, Template.encoder_eq_ok_iff] at encoded
    rw [EncodingTable.encode_of_find? foundToo, Template.encoder_eq_ok_iff] at encodedToo
    have first := Template.forall₂_of_fill? encoded
    have second := Template.forall₂_of_fill? encodedToo
    rw [regular.template] at first second
    obtain ⟨taken, _⟩ := List.forall₂_cons.mp first
    obtain ⟨takenToo, _⟩ := List.forall₂_cons.mp second
    rw [octet?_head_of_interchangeable regular fitsHead stands matching, taken] at takenToo
    obtain rfl : code = codeToo := by simpa using takenToo
    exact ⟨others, by rwa [EncodingTable.encode_of_find? foundToo, Template.encoder_eq_ok_iff]⟩

end Statements

/-- What the instruction set makes of a statement. -/
structure KeepsToForms (s : Statement) : Prop where
  /-- A statement with something that no form has is refused where it stands. -/
  refused (noData : s.mnemonic ≠ "DATA") (unencodable : Unencodable s) :
    instructionSet.lookup s = .error ⟨.unknownForm s.signature, s.position⟩
  /-- Another number in place of a number is accepted as well, or refused as well. -/
  accepted (other : Statement) (mnemonic : other.mnemonic = s.mnemonic)
    (matching : Operand.Matches Token.Interchangeable s.operands other.operands)
    (encoder : Encoder) :
    instructionSet.lookup s = .ok encoder ↔ instructionSet.lookup other = .ok encoder
  /-- An instruction that is accepted is an operation code, followed by the octet of its only
  number if it has a number. -/
  encoded (plain : s.isDirective = false) (encoder : Encoder)
    (known : instructionSet.lookup s = .ok encoder) :
    ∃ code, (s.numerals = [] ∧ instructionSet.encode s = .ok [.byte code]) ∨
      ∃ t octet, s.numerals = [t] ∧ t.octet? = some octet ∧
        instructionSet.encode s = .ok [.byte code, octet]
  /-- The operation code is that of every instruction with the same mnemonic, the same brackets
  and the same registers, whatever its number is. -/
  opcode (plain : s.isDirective = false) (code : UInt8) (octets : List Octet)
    (known : instructionSet.encode s = .ok (.byte code :: octets))
    (source : String) (other : Statement) (parsed : other ∈ (Statement.ofSource source).items)
    (mnemonic : other.mnemonic = s.mnemonic)
    (matching : Operand.Matches Token.Interchangeable s.operands other.operands) :
    ∃ others, instructionSet.encode other = .ok (.byte code :: others)

/-- Whether a statement is accepted depends on its mnemonic, its brackets and its registers, and
on its numbers only in that they are numbers. Deep brackets, long rows and tokens of other kinds
are never accepted. An accepted instruction has one octet or two, and its operation code does
not depend on its number. -/
theorem keepsToForms_of_ofSource {source : String} {s : Statement}
    (parsed : s ∈ (Statement.ofSource source).items) : KeepsToForms s where
  refused noData unencodable := by
    refine EncodingTable.lookup_of_find?_eq_none ?_
    cases found : instructionSet.find? s.signature with
    | none => rfl
    | some encoder => exact absurd unencodable (not_unencodable_of_find? found noData)
  accepted other mnemonic matching encoder := by
    rw [EncodingTable.lookup_eq_ok_iff, EncodingTable.lookup_eq_ok_iff,
      find?_eq_of_interchangeable mnemonic matching]
  encoded plain encoder known := by
    obtain ⟨code, octets, encoded, numerals, short⟩ := exists_code_of_find?
      (EncodingTable.lookup_eq_ok_iff.mp known) plain (Statement.sound_of_mem_ofSource parsed)
    refine ⟨code, ?_⟩
    match octets, short with
    | [], _ => exact .inl ⟨List.map_eq_nil_iff.mp numerals.symm, encoded⟩
    | [octet], _ =>
      obtain ⟨t, only, here⟩ := List.map_eq_singleton_iff.mp numerals.symm
      exact .inr ⟨t, octet, only, here, encoded⟩
  opcode plain _ _ known _ _ parsedToo mnemonic matching :=
    exists_same_code plain mnemonic matching (Statement.sound_of_mem_ofSource parsedToo) known

/-- A number in front of a register in brackets, and brackets in brackets. -/
theorem keepsToForms_of_nested_group :
    ∃ offset nested, (Statement.ofSource "load [#0A x]\nload [[x]]").items = [offset, nested] ∧
      KeepsToForms offset ∧ instructionSet.encode offset = .ok [.byte 0x40, .byte 0x0A] ∧
      KeepsToForms nested ∧ Unencodable nested := by
  let register (position : Position) : Operand := .token ⟨.index, "x", position⟩
  let offset : Statement :=
    ⟨none, "load", ⟨1, 1⟩, [.group [.token ⟨.hexadecimal, "#0A", ⟨1, 7⟩⟩, register ⟨1, 11⟩]]⟩
  let nested : Statement := ⟨none, "load", ⟨2, 1⟩, [.group [.group [register ⟨2, 8⟩]]]⟩
  have parsed : (Statement.ofSource "load [#0A x]\nload [[x]]").items = [offset, nested] := by
    decide +kernel
  have group : [.group [register ⟨2, 8⟩]] ∈ Operand.groups (.group [.group [register ⟨2, 8⟩]]) := by
    simp [Operand.groups]
  have unencodable : Unencodable nested := .nested List.mem_cons_self group List.mem_cons_self
  have encoded : instructionSet.encode offset = .ok [.byte 0x40, .byte 0x0A] := by
    decide +kernel
  exact ⟨offset, nested, parsed, keepsToForms_of_ofSource (by rw [parsed]; simp), encoded,
    keepsToForms_of_ofSource (by rw [parsed]; simp), unencodable⟩

end BankAsm
