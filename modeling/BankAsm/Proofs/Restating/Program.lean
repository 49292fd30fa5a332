import BankAsm.Proofs.Assembly.Bounds
import BankAsm.Proofs.Program.Mirror
import BankAsm.Proofs.Restating.Basic

/-!
# Programs with numbers in other spellings

A cell in another spelling has the byte that it had, once its program has all its labels
(`resolve_of_restates`). So a source whose numbers are restated, labels by the bytes that
they have in the end, is assembled to the same bytes at the same places, and where two of
its statements overlap, the same two do (`exists_assemble_of_restates`).
-/

namespace BankAsm

/-- A cell with an octet in another spelling. -/
structure Cell.Restates (labels : LabelTable) (cell other : Cell) : Prop where
  index : other.index = cell.index
  owner : cell.owner.Restates labels other.owner
  address : other.address = cell.address
  octet : cell.octet.Restates labels other.octet

/-- The same overlap in two programs: it is found at cells of the same number, which belong to
statements of the same number and lie at the same place. -/
inductive Program.SameOverlap (first second : Program) : Failure → Failure → Prop where
  | overlap {number : Nat} {cell other : Cell}
      (here : first.cells[number]? = some cell)
      (there : second.cells[number]? = some other)
      (same : cell.Restates first.labels other) :
      SameOverlap first second (.reported (overlap cell)) (.reported (overlap other))

/-- A program with numbers in other spellings: with the same labels, places and bytes. -/
structure Program.Restates (program second : Program) : Prop where
  labels : second.labels = program.labels
  banks : second.banks = program.banks
  placed : List.Forall₂ (Placed.Restates program.labels) program.placed second.placed
  lengths : second.placed.map (·.code.length) = program.placed.map (·.code.length)
  flat : second.flat = program.flat
  images : ∀ fill, Outcome.Related Eq (program.SameOverlap second)
    (program.images fill) (second.images fill)

section Cells

variable {labels : LabelTable} {placed others : List Placed}

/-- Statements in other spellings are alike for walks. -/
theorem Placed.Restates.alike {p q : Placed} (restates : p.Restates labels q) :
    Program.AlikeForWalks p q where
  isDirective := by simp only [Statement.isDirective, restates.mnemonic]
  address := restates.address

/-- The cells of a statement in another spelling. -/
theorem Placed.Restates.cells {p q : Placed} (restates : p.Restates labels q) (index : Nat) :
    List.Forall₂ (Cell.Restates labels) (p.cells index) (q.cells index) := by
  have numbered : ∀ (offset : Nat) (code codeToo : List Octet),
      List.Forall₂ (Octet.Restates labels) code codeToo →
      List.Forall₂ (fun octet octetToo => octetToo.2 = octet.2 ∧ octet.1.Restates labels octetToo.1)
        (code.zipIdx offset) (codeToo.zipIdx offset) := by
    intro offset code codeToo octets
    induction octets generalizing offset with
    | nil => exact .nil
    | cons here _ inductionHypothesis =>
      rw [List.zipIdx_cons, List.zipIdx_cons]
      exact .cons ⟨rfl, here⟩ (inductionHypothesis _)
  rw [Placed.cells, Placed.cells, List.forall₂_map_left_iff, List.forall₂_map_right_iff]
  refine (numbered 0 _ _ restates.code).imp fun octet octetToo same => ?_
  exact {
    index := rfl
    owner := restates
    address := by simp only [restates.address, same.1]
    octet := same.2 }

/-- The cells of statements in other spellings. -/
theorem cellsFrom_restates (restates : List.Forall₂ (Placed.Restates labels) placed others)
    (index : Nat) :
    List.Forall₂ (Cell.Restates labels) (cellsFrom index 0 placed) (cellsFrom index 0 others) := by
  induction restates generalizing index with
  | nil => exact .nil
  | cons here _ inductionHypothesis =>
    exact List.rel_append (here.cells index) (inductionHypothesis (index + 1))

end Cells

section Programs

variable {program second : Program}

/-- An octet in another spelling has the byte that it had. -/
theorem resolve_of_restates (labels : second.labels = program.labels)
    (restates : List.Forall₂ (Placed.Restates program.labels) program.placed second.placed)
    {o p : Octet} (octet : o.Restates program.labels p) {index : Nat} {value : UInt8}
    (resolved : program.resolve index o = .ok value) : second.resolve index p = .ok value := by
  cases octet with
  | byte => exact resolved
  | label =>
    rw [Program.resolve] at resolved ⊢
    rw [labels]
    split at resolved
    case h_1 => exact resolved
    case h_2 => cases resolved
  | vector direction steps position other =>
    have alike := restates.imp fun _ _ same => same.alike
    have walked : Outcome.Related Eq (fun _ _ => True)
        (Program.walk program.placed direction position steps index)
        (Program.walk second.placed direction other steps index) :=
      Program.walk_related alike direction trivial (fun _ _ => trivial) steps index
    rw [Program.resolve] at resolved ⊢
    rw [resolved] at walked
    generalize Program.walk second.placed direction other steps index = result at walked ⊢
    cases walked with
    | ok same => rw [same]
  | settled found =>
    rw [Program.resolve, found] at resolved
    exact resolved

/-- Every cell has a byte if the flat bytes do not break off. -/
theorem Program.exists_resolveCell_of_flat (unbroken : program.flat.failure = none) {cell : Cell}
    (member : cell ∈ program.cells) : ∃ value, program.resolveCell cell = .ok value := by
  have whole : program.flat = ⟨program.flat.items, none⟩ := by rw [← unbroken]
  have among : program.resolveCell cell ∈ program.answers program.cells :=
    List.mem_map_of_mem member
  rw [Program.flat_eq_iff.mp whole] at among
  obtain ⟨value, _, same⟩ := List.mem_map.mp among
  exact ⟨value, same.symm⟩

/-- A program in other spellings has the same cells as one that has bytes for all of them. -/
theorem mirrors_of_restates (labels : second.labels = program.labels)
    (banks : second.banks = program.banks)
    (restates : List.Forall₂ (Placed.Restates program.labels) program.placed second.placed)
    (unbroken : program.flat.failure = none) :
    program.Mirrors
      (fun f g => program.SameOverlap second f g ∨ f = .stuck ∧ g = .stuck) second where
  banks := banks
  cells := by
    have same : List.Forall₂ (Cell.Restates program.labels) program.cells second.cells := by
      simp only [Program.cells, flatMap_zipIdx_cells]
      exact cellsFrom_restates restates 0
    refine List.forall₂_iff_get.mpr ⟨same.length_eq, fun number inside insideToo => ?_⟩
    have here := same.get inside insideToo
    obtain ⟨value, resolved⟩ :=
      Program.exists_resolveCell_of_flat unbroken (List.get_mem program.cells ⟨number, inside⟩)
    have resolvedToo := resolve_of_restates labels restates here.octet resolved
    rw [← here.index] at resolvedToo
    exact {
      place := Place.ext here.owner.bank here.address
      resolve := by
        rw [resolved, Program.resolveCell, resolvedToo]
        exact .ok rfl
      overlap := .inl (.overlap (List.getElem?_eq_getElem inside)
        (List.getElem?_eq_getElem insideToo) here) }
  stuck := .inr ⟨rfl, rfl⟩

/-- Programs in other spellings have the same bytes, if the first one has bytes for all its
cells and its cells lie inside its banks. -/
theorem Program.restates_of_placed (labels : second.labels = program.labels)
    (banks : second.banks = program.banks)
    (restates : List.Forall₂ (Placed.Restates program.labels) program.placed second.placed)
    (unbroken : program.flat.failure = none)
    (inside : CellsInside program.banks program.cells) : program.Restates second where
  labels := labels
  banks := banks
  placed := restates
  lengths := by
    rw [← List.forall₂_eq_eq_eq, List.forall₂_map_left_iff, List.forall₂_map_right_iff]
    exact restates.flip.imp fun _ _ same => same.code.length_eq.symm
  flat := (mirrors_of_restates labels banks restates unbroken).flat.eq_of_unbroken (.inl unbroken)
  images fill := by
    have images := (mirrors_of_restates labels banks restates unbroken).images fill
    have notStuck := Assembly.images_ne_stuck inside fill
    generalize program.images fill = first, second.images fill = next at images notStuck ⊢
    cases images with
    | ok same => exact .ok same
    | error failed =>
      rcases failed with same | ⟨rfl, _⟩
      · exact .error same
      · exact absurd rfl notStuck

end Programs

/-- Numbers matter by their value only. Take two sources that are read to the end, and the
same statements but for where they stand and how numbers are spelled: where the first one has
a constant, the second one may have another constant of the same byte, and where the first one
has a label, the second one may have a constant of the byte that this label has in the end. If
the first one is assembled and has all its bytes, then the second one is assembled too: to the
same labels, places and bytes, and to the same images or the same overlap. -/
theorem exists_assemble_of_restates {source restated : String} {items others : List Statement}
    (read : Statement.ofSource source = ⟨items, none⟩)
    (readToo : Statement.ofSource restated = ⟨others, none⟩) {banks : Nat}
    {seeds : List (String × UInt8)} {program : Program}
    (assembled : assemble source banks seeds = .ok program)
    (unbroken : program.flat.failure = none)
    (restates : List.Forall₂ (Statement.Restates program.labels) items others) :
    ∃ second, assemble restated banks seeds = .ok second ∧ program.Restates second := by
  have inside := Assembly.cellsInside_of_finish (Layout.inBank_start banks seeds) assembled
  simp only [assemble, Assembly.start, Assembly.finish, read] at assembled
  split at assembled
  case h_1 => cases assembled
  case h_2 after placed placing =>
    cases assembled
    obtain ⟨placedToo, placingToo, same⟩ :=
      Assembly.exists_placeAll_of_restates restates placing List.prefix_rfl
    refine ⟨⟨placedToo, after.labels, after.banks⟩, ?_,
      Program.restates_of_placed rfl rfl same unbroken inside⟩
    simp only [assemble, Assembly.start, Assembly.finish, readToo, placingToo]

/-- A digit, a label and a label in brackets restated, where the relocation to the label makes
two statements overlap. -/
theorem exists_assemble_of_restates_of_overlap :
    ∃ program second,
      assemble "base: 0\nload base\nLOCATE [base]\nhalt" 1 [] = .ok program ∧
      program.images 0 = .error (.reported ⟨.overlap "halt" 0 0, ⟨4, 1⟩⟩) ∧
      assemble "base: #00\nload 0\nLOCATE ['NUL']\nhalt" 1 [] = .ok second ∧
      program.Restates second := by
  obtain ⟨program, assembled, seen⟩ := Outcome.exists_of_toOption_map
    (assemble "base: 0\nload base\nLOCATE [base]\nhalt" 1 [])
    (fun program =>
      (program.labels.find? "base", program.answers program.cells, program.images 0))
    (some 0, [62, 0, 1].map .ok, .error (.reported ⟨.overlap "halt" 0 0, ⟨4, 1⟩⟩))
    (by decide +kernel)
  simp only [Prod.mk.injEq] at seen
  obtain ⟨base, resolved, overlaps⟩ := seen
  have unbroken := congrArg Feed.failure (Program.flat_eq_iff.mpr resolved)
  have read : Statement.ofSource "base: 0\nload base\nLOCATE [base]\nhalt" =
      ⟨[⟨some ⟨"base", ⟨1, 1⟩⟩, "ASSIGN", ⟨1, 7⟩, [.token ⟨.digit, "0", ⟨1, 7⟩⟩]⟩,
        ⟨none, "load", ⟨2, 1⟩, [.token ⟨.reference, "base", ⟨2, 6⟩⟩]⟩,
        ⟨none, "LOCATE", ⟨3, 1⟩, [.group [.token ⟨.reference, "base", ⟨3, 9⟩⟩]]⟩,
        ⟨none, "halt", ⟨4, 1⟩, []⟩], none⟩ := by
    decide +kernel
  have readToo : Statement.ofSource "base: #00\nload 0\nLOCATE ['NUL']\nhalt" =
      ⟨[⟨some ⟨"base", ⟨1, 1⟩⟩, "ASSIGN", ⟨1, 7⟩, [.token ⟨.hexadecimal, "#00", ⟨1, 7⟩⟩]⟩,
        ⟨none, "load", ⟨2, 1⟩, [.token ⟨.digit, "0", ⟨2, 6⟩⟩]⟩,
        ⟨none, "LOCATE", ⟨3, 1⟩, [.group [.token ⟨.character, "NUL", ⟨3, 9⟩⟩]]⟩,
        ⟨none, "halt", ⟨4, 1⟩, []⟩], none⟩ := by
    decide +kernel
  obtain ⟨second, assembledToo, restates⟩ :=
    exists_assemble_of_restates read readToo assembled unbroken <|
      .cons ⟨rfl, rfl, .token (.constant rfl rfl (by decide +kernel)) .nil⟩ <|
      .cons ⟨rfl, rfl, .token (.label rfl rfl base (by decide +kernel)) .nil⟩ <|
      .cons ⟨rfl, rfl, .group (.token (.label rfl rfl base (by decide +kernel)) .nil) .nil⟩ <|
      .cons ⟨rfl, rfl, .nil⟩ .nil
  exact ⟨program, second, assembled, overlaps, assembledToo, restates⟩

end BankAsm
