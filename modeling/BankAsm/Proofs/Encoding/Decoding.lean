import BankAsm.Proofs.Encoding.Opcode

/-!
# Machine code is uniquely decodable

The operation code in front of an instruction tells how many bytes belong to it, so the
bytes of instructions fall apart in one way only. Two sequences of instructions with the
same bytes are the same, up to how their numerals are written (`decodes_uniquely`).
-/

namespace BankAsm

/-- What an octet can become: a settled one its byte, and a pending one any byte. -/
def Octet.Admits : Octet → UInt8 → Prop
  | .byte value, chosen => chosen = value
  | .label _ _, _ => True
  | .vector _ _ _, _ => True

/-- An instruction of a source with its bytes, of which those that are pending are chosen
at will. -/
structure Encoded where
  statement : Statement
  code : List Octet
  bytes : List UInt8
  parsed : ∃ source, statement ∈ (Statement.ofSource source).items
  plain : statement.isDirective = false
  encoded : instructionSet.encode statement = .ok code
  filled : List.Forall₂ Octet.Admits code bytes

namespace Encoded

/-- The bytes of the numerals of an instruction: all of its bytes but the first, each of
them one that the octet of its numeral can become. -/
structure Takes (e : Encoded) (arguments : List UInt8) : Prop where
  bytes : e.bytes.tail = arguments
  numerals : List.Forall₂ (fun t byte => ∃ octet, t.octet? = some octet ∧ octet.Admits byte)
    e.statement.numerals arguments

/-- Instructions of one form: the mnemonic, the order and the brackets of the operands, the
names of the registers, and how many bytes there are. -/
structure SameForm (left right : Encoded) : Prop where
  mnemonic : left.statement.mnemonic = right.statement.mnemonic
  shape : left.statement.shape = right.statement.shape
  names : left.statement.names = right.statement.names
  length : left.bytes.length = right.bytes.length

/-- Instructions that differ at most in how their numerals are written. -/
structure Alike (left right : Encoded) : Prop where
  form : SameForm left right
  arguments : ∃ arguments, left.Takes arguments ∧ right.Takes arguments

/-- The numerals of an instruction have the octets that became its further bytes. -/
theorem forall₂_of_octets {octets : List Octet} {arguments : List UInt8} {numerals : List Token}
    (filled : List.Forall₂ Octet.Admits octets arguments)
    (same : octets.map some = numerals.map Token.octet?) :
    List.Forall₂ (fun t byte => ∃ octet, t.octet? = some octet ∧ octet.Admits byte)
      numerals arguments := by
  induction filled generalizing numerals with
  | nil =>
    obtain rfl : numerals = [] := by simpa using same.symm
    exact .nil
  | @cons octet byte octets arguments admits _ inductionHypothesis =>
    obtain ⟨t, others, rfl, first, later⟩ := List.map_eq_cons_iff.mp same.symm
    exact .cons ⟨octet, first, admits⟩ (inductionHypothesis later.symm)

/-- The bytes of an instruction are an operation code and the bytes of its numerals. -/
theorem exists_instruction (e : Encoded) :
    ∃ opcode octets arguments, e.bytes = opcode.code :: arguments ∧
      Instruction e.statement opcode octets ∧ List.Forall₂ Octet.Admits octets arguments := by
  obtain ⟨source, member⟩ := e.parsed
  obtain ⟨opcode, octets, code, instruction⟩ :=
    (encodes_of_encode e.encoded).exists_opcode e.plain (Statement.sound_of_mem_ofSource member)
  have filled := e.filled
  rw [code] at filled
  obtain ⟨byte, arguments, first, others, bytes⟩ := List.forall₂_cons_left_iff.mp filled
  obtain rfl : byte = opcode.code := first
  exact ⟨opcode, octets, arguments, bytes, instruction, others⟩

/-- An instruction has one byte or two. -/
theorem length_bytes (e : Encoded) : e.bytes.length = 1 ∨ e.bytes.length = 2 := by
  obtain ⟨opcode, octets, arguments, bytes, instruction, filled⟩ := e.exists_instruction
  have length := instruction.length
  have short := instruction.short
  have same := filled.length_eq
  rw [bytes, List.length_cons]
  omega

/-- The further bytes of an instruction are those of its numerals. -/
theorem takes_tail (e : Encoded) : e.Takes e.bytes.tail := by
  obtain ⟨opcode, octets, arguments, bytes, instruction, filled⟩ := e.exists_instruction
  refine ⟨rfl, ?_⟩
  rw [bytes, List.tail_cons]
  exact forall₂_of_octets filled instruction.numerals

/-- The first byte of an instruction tells its form. -/
theorem sameForm_of_head {left right : Encoded}
    (same : left.bytes.head? = right.bytes.head?) : SameForm left right := by
  obtain ⟨opcode, octets, arguments, bytes, instruction, filled⟩ := left.exists_instruction
  obtain ⟨other, otherOctets, otherArguments, otherBytes, otherInstruction, otherFilled⟩ :=
    right.exists_instruction
  rw [bytes, otherBytes] at same
  obtain rfl : opcode = other :=
    InstructionSet.opcode_unique instruction.listed otherInstruction.listed (by simpa using same)
  constructor
  · rw [instruction.mnemonic, otherInstruction.mnemonic]
  · rw [instruction.shape, otherInstruction.shape]
  · rw [instruction.names, otherInstruction.names]
  · rw [bytes, otherBytes, List.length_cons, List.length_cons, ← filled.length_eq,
      ← otherFilled.length_eq, instruction.length, otherInstruction.length]

/-- Instructions with the same bytes are alike. -/
theorem alike_of_bytes {left right : Encoded} (same : left.bytes = right.bytes) :
    Alike left right where
  form := sameForm_of_head (by rw [same])
  arguments := ⟨left.bytes.tail, left.takes_tail, same ▸ right.takes_tail⟩

/-- Instructions in front of further bytes are alike when all bytes are the same, and so
are the further bytes. -/
theorem alike_of_append {left right : Encoded} {leftRest rightRest : List UInt8}
    (same : left.bytes ++ leftRest = right.bytes ++ rightRest) :
    Alike left right ∧ leftRest = rightRest := by
  have heads : left.bytes.head? = right.bytes.head? := by
    obtain ⟨_, _, _, bytes, _⟩ := left.exists_instruction
    obtain ⟨_, _, _, otherBytes, _⟩ := right.exists_instruction
    rw [bytes, otherBytes] at same ⊢
    simpa using (List.cons.inj same).1
  -- The first byte tells the length, so both byte strings are cut at the same place.
  obtain ⟨bytes, rests⟩ := List.append_inj same (sameForm_of_head heads).length
  exact ⟨alike_of_bytes bytes, rests⟩

/-- Instructions one after another with the same bytes are alike, one by one. -/
theorem alike_of_flatMap {left right : List Encoded}
    (same : left.flatMap bytes = right.flatMap bytes) : List.Forall₂ Alike left right := by
  induction left generalizing right with
  | nil =>
    cases right with
    | nil => exact .nil
    | cons e right =>
      obtain ⟨_, _, _, bytes, _⟩ := e.exists_instruction
      simp [bytes] at same
  | cons e left inductionHypothesis =>
    cases right with
    | nil =>
      obtain ⟨_, _, _, bytes, _⟩ := e.exists_instruction
      simp [bytes] at same
    | cons f right =>
      rw [List.flatMap_cons, List.flatMap_cons] at same
      obtain ⟨alike, rests⟩ := alike_of_append same
      exact .cons alike (inductionHypothesis rests)

/-- A source that is seen to have one instruction with such a code has it with all bytes
that the code admits. -/
theorem exists_of_source (source : String) (mnemonic : String) (code : List Octet)
    (bytes : List UInt8) (filled : List.Forall₂ Octet.Admits code bytes)
    (shown : ((Statement.ofSource source).items.map fun s =>
      (s.mnemonic, s.isDirective, (instructionSet.encode s).toOption)) =
        [(mnemonic, false, some code)]) :
    ∃ e : Encoded, e.statement.mnemonic = mnemonic ∧ e.bytes = bytes := by
  obtain ⟨s, others, items, seen, _⟩ := List.map_eq_cons_iff.mp shown
  simp only [Prod.mk.injEq] at seen
  obtain ⟨word, plain, octets⟩ := seen
  have encoded : instructionSet.encode s = .ok code := by
    cases outcome : instructionSet.encode s with
    | error failure => simp [outcome, Except.toOption] at octets
    | ok found => simpa [outcome, Except.toOption] using octets
  exact ⟨⟨s, code, bytes, ⟨source, by simp [items]⟩, plain, encoded, filled⟩, word, rfl⟩

/-- The machine code is uniquely decodable. Sequences of instructions with the same bytes
are alike one by one, however the pending bytes were chosen. No operation code belongs to
two forms, or to one form with two choices of registers: the first byte of an instruction
tells its form and its length, which is one byte or two. -/
theorem decodes_uniquely :
    (∀ left right : List Encoded, left.flatMap bytes = right.flatMap bytes →
      List.Forall₂ Alike left right) ∧
    (∀ left right : Encoded, left.bytes.head? = right.bytes.head? → SameForm left right) ∧
    (∀ e : Encoded, e.bytes.length = 1 ∨ e.bytes.length = 2) ∧
    InstructionSet.opcodes.Pairwise fun left right => left.code ≠ right.code := by
  refine ⟨fun _ _ => alike_of_flatMap, fun _ _ => sameForm_of_head, length_bytes, ?_⟩
  have ascend := List.isChain_iff_pairwise.mp InstructionSet.opcodes_ascend
  exact (List.pairwise_map.mp ascend).imp fun less => UInt8.ne_of_lt less

/-- An addition of a label whose byte is chosen, and one of a number, each in front of an
instruction of one byte. -/
theorem decodes_uniquely_with_label :
    ∃ left right : List Encoded,
      left.flatMap bytes = [0x5D, 0x07, 0x04] ∧ right.flatMap bytes = [0x5D, 0x07, 0x04] ∧
      left.map (·.statement.mnemonic) = ["add", "nop"] ∧ List.Forall₂ Alike left right := by
  obtain ⟨labelled, labelledWord, labelledBytes⟩ :=
    exists_of_source "add mark" "add" [.byte 0x5D, .label "mark" ⟨1, 5⟩] [0x5D, 0x07]
      (.cons rfl (.cons trivial .nil)) (by decide +kernel)
  obtain ⟨counted, _, countedBytes⟩ :=
    exists_of_source "add 7" "add" [.byte 0x5D, .byte 0x07] [0x5D, 0x07]
      (.cons rfl (.cons rfl .nil)) (by decide +kernel)
  obtain ⟨last, lastWord, lastBytes⟩ :=
    exists_of_source "nop" "nop" [.byte 0x04] [0x04] (.cons rfl .nil) (by decide +kernel)
  have left : [labelled, last].flatMap bytes = [0x5D, 0x07, 0x04] := by
    simp [labelledBytes, lastBytes]
  have right : [counted, last].flatMap bytes = [0x5D, 0x07, 0x04] := by
    simp [countedBytes, lastBytes]
  exact ⟨[labelled, last], [counted, last], left, right, by simp [labelledWord, lastWord],
    decodes_uniquely.1 _ _ (left.trans right.symm)⟩

end Encoded

end BankAsm
