import BankAsm.Proofs.Assembly.Bounds
import BankAsm.Proofs.Encoding.InstructionSet
import BankAsm.Proofs.Program.Stream
import BankAsm.Proofs.Signature.Substitution
import BankAsm.Proofs.Token.Slice

/-!
# Assembling always ends

With the instruction set of the language every stage ends in a value or in a
diagnostic, for every source. Scanning and reading have no other failures by their
types. The encoding is never stuck because the tokens of a source are sound, the
resolving because a walk stays among the statements of the program, and the images
because every cell lies in a bank.
-/

namespace BankAsm

/-- An outcome that is a value or a diagnostic. -/
inductive Ends {α : Type} : Except Failure α → Prop where
  | value (value : α) : Ends (.ok value)
  | report (diagnostic : Diagnostic) : Ends (.error (.reported diagnostic))

/-- An outcome that is not stuck is a value or a diagnostic. -/
theorem ends_of_ne_stuck {α : Type} {outcome : Except Failure α}
    (free : outcome ≠ .error .stuck) : Ends outcome := by
  match outcome with
  | .ok value => exact .value value
  | .error (.reported diagnostic) => exact .report diagnostic
  | .error .stuck => exact absurd rfl free

/-- The encoding of a statement of a source ends. -/
theorem ends_encode (source : String) {s : Statement}
    (member : s ∈ (Statement.ofSource source).items) : Ends (instructionSet.encode s) :=
  ends_of_ne_stuck (instructionSet_encode_ne_stuck (Statement.sound_of_mem_ofSource member))

/-- A result that is changed is still one. -/
theorem Ends.map {α β : Type} {outcome : Except Failure α} (ends : Ends outcome)
    (change : α → β) : Ends (outcome.map change) := by
  cases ends with
  | value value => exact .value (change value)
  | report diagnostic => exact .report diagnostic

namespace Assembly

/-- Placing a statement ends when encoding it does. -/
theorem ends_placeNext {table : EncodingTable} (layout : Layout) {s : Statement}
    (encodes : Ends (table.encode s)) : Ends (placeNext table layout s).2 := by
  unfold placeNext
  split
  case h_1 failure failed =>
    rw [failed] at encodes
    cases encodes with
    | report diagnostic => exact .report diagnostic
  case h_2 =>
    split
    case h_1 placed _ => exact .value placed
    case h_2 diagnostic _ => exact .report diagnostic

/-- Placing statements ends when encoding each of them does. -/
theorem ends_placeAll {table : EncodingTable} (layout : Layout) {items : List Statement}
    (encodes : ∀ s ∈ items, Ends (table.encode s)) : Ends (placeAll table layout items) := by
  induction items generalizing layout with
  | nil => exact .value _
  | cons s rest inductionHypothesis =>
    have first := ends_placeNext layout (encodes s List.mem_cons_self)
    unfold placeAll
    split
    case h_1 failed =>
      rw [failed] at first
      cases first with
      | report diagnostic => exact .report diagnostic
    case h_2 after _ _ =>
      have others := inductionHypothesis after fun other member =>
        encodes other (List.mem_cons_of_mem s member)
      exact others.map _

/-- Finishing an assembly ends when encoding each of its statements does. -/
theorem ends_finish {assembly : Assembly}
    (encodes : ∀ s ∈ assembly.pending.items, Ends (assembly.table.encode s)) :
    Ends assembly.finish := by
  have placing := ends_placeAll assembly.layout encodes
  unfold finish
  split
  case h_1 failed =>
    rw [failed] at placing
    cases placing with
    | report diagnostic => exact .report diagnostic
  case h_2 =>
    split
    case h_1 diagnostic _ => exact .report diagnostic
    case h_2 => exact .value _

/-- A pull ends when encoding each of the statements that are left does. -/
theorem ends_pull {assembly : Assembly} {outcome : Except Failure Placed}
    (encodes : ∀ s ∈ assembly.pending.items, Ends (assembly.table.encode s))
    (pulled : assembly.pull.1 = some outcome) : Ends outcome := by
  unfold pull at pulled
  split at pulled
  case h_1 => cases pulled
  case h_2 diagnostic _ =>
    cases pulled
    exact .report diagnostic
  case h_3 s rest failure pending =>
    have first := ends_placeNext assembly.layout (encodes s (by simp [pending]))
    split at pulled
    case h_1 placed _ =>
      cases pulled
      exact .value placed
    case h_2 placing =>
      cases pulled
      rw [placing] at first
      exact first

end Assembly

namespace Program

/-- A byte of a stream, or the failure in its place, ends. -/
theorem ends_answer {program : Program} {count : Nat} {outcome : Except Failure UInt8}
    (answered : (ByteStream.start program).answer count = some outcome) : Ends outcome := by
  rw [ByteStream.answer_eq, ByteStream.cells_start] at answered
  have member := mem_of_mem_throughFirstError (List.mem_of_getElem? answered)
  obtain ⟨cell, cellMember, rfl⟩ := List.mem_map.mp member
  have inside := (List.getElem?_eq_some_iff.mp (mem_cells cellMember).1).1
  exact ends_of_ne_stuck (resolve_ne_stuck inside cell.octet)

end Program

/-- How assembling a source ends, with what is made of its program. -/
structure EndsThroughout (source : String) (banks : Nat) (seeds : List (String × UInt8))
    (fill : UInt8) : Prop where
  /-- Every statement of the source is encoded or refused. -/
  encoding : ∀ s ∈ (Statement.ofSource source).items, Ends (instructionSet.encode s)
  /-- Every pull, behind any number of others, ends. -/
  pulling : ∀ placed current outcome,
    Assembly.Pulls (Assembly.start instructionSet source banks seeds) placed current →
    current.pull.1 = some outcome → Ends outcome
  assembling : Ends (assemble source banks seeds)
  /-- Every byte of the flat stream is one or a diagnostic. -/
  streaming : ∀ program, assemble source banks seeds = .ok program → ∀ count outcome,
    (ByteStream.start program).answer count = some outcome → Ends outcome
  filling : ∀ program, assemble source banks seeds = .ok program → Ends (program.images fill)

/-- Assembling ends throughout, for every source. -/
theorem endsThroughout (source : String) (banks : Nat) (seeds : List (String × UInt8))
    (fill : UInt8) : EndsThroughout source banks seeds fill where
  encoding _ member := ends_encode source member
  pulling placed current outcome run pulled := by
    refine Assembly.ends_pull ?_ pulled
    intro s member
    rw [run.table_eq]
    refine ends_encode source ?_
    have pending : Statement.ofSource source = _ := run.pending_eq
    rw [pending]
    exact List.mem_append_right _ member
  assembling := Assembly.ends_finish fun _ member => ends_encode source member
  streaming program _ _ _ answered := Program.ends_answer answered
  filling program assembled :=
    ends_of_ne_stuck (Assembly.images_ne_stuck
      (Assembly.cellsInside_of_finish (Layout.inBank_start banks seeds) assembled) fill)

open InstructionSet (branches binaries unaries)
open Text (byteLength slice?)

/-- Assembling a source in the language never gets stuck, whatever the source, the
number of banks, the seeds and the fill byte. Beside that, nothing that is looked up or
cut out on the way is ever missing: operation codes that are counted on from a base
stay within a byte, the first class of a pattern is found again at its path, and the
names of labels and the texts of quoted characters are slices of their words. -/
theorem assemble_ends (source : String) (banks : Nat) (seeds : List (String × UInt8))
    (fill : UInt8) :
    EndsThroughout source banks seeds fill ∧
      ((∀ entry ∈ branches, entry.2.toNat + 3 < 256) ∧
        (∀ entry ∈ binaries, entry.2.toNat + 4 < 256) ∧
          ∀ entry ∈ unaries, entry.2.toNat + 1 < 256) ∧
      (∀ params, Param.substitute params = some (Param.expandAll params)) ∧
      (∀ word, Word.kind? word = some .assignment →
        slice? word 0 (byteLength word - 1) = some word.dropLast) ∧
      ∀ inner, slice? ('\'' :: inner ++ ['\'']) 1 (byteLength ('\'' :: inner ++ ['\'']) - 1) =
        some inner :=
  ⟨endsThroughout source banks seeds fill, InstructionSet.families_fit,
    Param.substitute_eq_expandAll, fun _ found => Word.slice?_of_assignment found,
    Lexeme.slice?_of_quoted⟩

/-- A source with a constant, a reference, a vector and both kinds of registers. -/
theorem assemble_ends_for_operands :
    ∃ program,
      assemble "mark: 'A'\nload [mark y]\npush fx, jump <\nDATA mark |" 1 [] = .ok program ∧
      program.size = 7 ∧ Ends (program.images 0) ∧
      ∀ count outcome, (ByteStream.start program).answer count = some outcome → Ends outcome := by
  obtain ⟨program, assembled, size⟩ :=
    Outcome.exists_of_toOption_map
      (assemble "mark: 'A'\nload [mark y]\npush fx, jump <\nDATA mark |" 1 [])
      (fun program => program.size) 7 (by decide +kernel)
  obtain ⟨ends, _⟩ :=
    assemble_ends "mark: 'A'\nload [mark y]\npush fx, jump <\nDATA mark |" 1 [] 0
  exact ⟨program, assembled, size, ends.filling program assembled,
    ends.streaming program assembled⟩

end BankAsm
