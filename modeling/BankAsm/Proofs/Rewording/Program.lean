import BankAsm.Proofs.Program.Mirror
import BankAsm.Proofs.Rewording.Assembly

/-!
# Programs in other words

The octets of a program in other words have the bytes that they had (`resolve_octet`), and
its cells lie where they lay (`cells_program`). So programs that are the same in other words
have the same flat bytes and the same images (`mirrors_of_program_eq`).
-/

namespace BankAsm.Rewording

variable (w : Rewording)

/-- A walk among statements in other words leads where it led. -/
theorem walk_placed (placed : List Placed) (direction : Direction) (position : Position)
    (steps index : Nat) :
    Program.walk (placed.map w.placed) direction (w.place position) steps index =
      Outcome.change w.failure id (Program.walk placed direction position steps index) := by
  have alike : List.Forall₂ Program.AlikeForWalks placed (placed.map w.placed) :=
    List.forall₂_map_right_iff.mpr (List.forall₂_same.mpr fun _ _ => ⟨rfl, rfl⟩)
  have related : Outcome.Related Eq (fun f g => g = w.failure f)
      (Program.walk placed direction position steps index)
      (Program.walk (placed.map w.placed) direction (w.place position) steps index) := by
    refine Program.walk_related alike direction ?_ ?_ steps index
    · rfl
    · exact fun _ _ => rfl
  exact Outcome.related_change_iff.mp
    (related.mono (fun _ _ same => same.symm) fun _ _ same => same)

/-- An octet in other words has the byte that it had. -/
theorem resolve_octet (p : Program) (index : Nat) (o : Octet) :
    (w.program p).resolve index (w.octet o) =
      Outcome.change w.failure id (p.resolve index o) := by
  cases o with
  | byte value => rfl
  | label name position =>
    simp only [octet, program, Program.resolve, find?_table]
    cases p.labels.find? name <;> rfl
  | vector direction steps position => exact w.walk_placed p.placed direction position steps index

theorem cells_placed (placed : Placed) (index : Nat) :
    (w.placed placed).cells index = (placed.cells index).map w.cell := by
  simp [Placed.cells, Rewording.placed, List.zipIdx_map, cell, Function.comp_def]

/-- The cells of a program in other words. -/
theorem cells_program (p : Program) : (w.program p).cells = p.cells.map w.cell := by
  simp [Program.cells, program, List.zipIdx_map, List.flatMap_map, List.map_flatMap, cells_placed]

/-- A program has the same bytes in other words. -/
theorem mirrors_program (p : Program) :
    p.Mirrors (fun f g => g = w.failure f) (w.program p) := by
  refine Program.mirrors_of_map w.cell rfl (w.cells_program p) (fun c _ => ?_) rfl
  exact {
    place := rfl
    resolve := by
      have resolved := Outcome.related_change_iff.mpr (w.resolve_octet p c.index c.octet)
      exact resolved.mono (fun _ _ same => same.symm) fun _ _ same => same
    overlap := rfl }

variable {w} {v : Rewording} {p q : Program}

/-- Outcomes that are the same in other words have results that are, or failures of the same
kind. -/
theorem related_of_change_eq {α β γ : Type} {results : α → γ} {others : β → γ}
    {first : Except Failure α} {second : Except Failure β}
    (same : Outcome.change w.failure results first = Outcome.change v.failure others second) :
    Outcome.Related (fun a b => results a = others b) Failure.SameKind first second := by
  cases first with
  | ok a =>
    cases second with
    | ok b => exact .ok (Except.ok.inj same)
    | error g => cases same
  | error f =>
    cases second with
    | ok b => cases same
    | error g =>
      have kinds := congrArg Failure.kind? (Except.error.inj same)
      rw [kind?_failure, kind?_failure] at kinds
      exact .error kinds.symm

/-- Cells that are the same in other words lie at the same place and have the same byte. -/
theorem sameCell_of_cell_eq (programs : w.program p = v.program q) {c d : Cell}
    (cells : w.cell c = v.cell d) : Program.SameCell Failure.SameKind p q c d where
  place := (congrArg Cell.place cells).symm
  resolve := by
    obtain ⟨index, _, _, octet⟩ := Cell.mk.inj cells
    have first := w.resolve_octet p c.index c.octet
    rw [programs, octet, v.resolve_octet, index] at first
    rw [Program.resolveCell, Program.resolveCell, index]
    exact related_of_change_eq first.symm
  overlap := rfl

/-- Programs that are the same in other words have the same cells. -/
theorem mirrors_of_program_eq (programs : w.program p = v.program q) :
    p.Mirrors Failure.SameKind q where
  banks := (congrArg Program.banks programs).symm
  cells := by
    have same := congrArg Program.cells programs
    rw [cells_program, cells_program, ← List.forall₂_eq_eq_eq, List.forall₂_map_left_iff,
      List.forall₂_map_right_iff] at same
    exact same.imp fun _ _ => sameCell_of_cell_eq programs
  stuck := rfl

/-- A source is assembled as its statements are, places aside. -/
theorem exists_assemble_of_bare {source : String} {items : List Statement} {banks : Nat}
    {seeds : List (String × UInt8)}
    (read : bare.statements (Statement.ofSource source) = ⟨items, none⟩)
    (finished : (⟨instructionSet, Layout.start banks seeds, ⟨items, none⟩⟩ : Assembly).finish =
      .ok p) :
    ∃ program, assemble source banks seeds = .ok program ∧ bare.program program = p := by
  have start : bare.assembly (Assembly.start instructionSet source banks seeds) =
      ⟨instructionSet, Layout.start banks seeds, ⟨items, none⟩⟩ := by
    simp only [assembly, Assembly.start, bare.layout_of_name_eq_id rfl, read]
  have same := bare.finish_assembly (a := Assembly.start instructionSet source banks seeds) rfl
  rw [start, finished] at same
  exact Outcome.change_eq_ok_iff.mp same.symm

end BankAsm.Rewording
