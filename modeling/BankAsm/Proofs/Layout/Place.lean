import BankAsm.Program

/-!
# Places

Where statements start and end, and where the cells of a program lie.
-/

namespace BankAsm

/-- An address of a bank. The end of a bank is a place as well. -/
@[ext]
structure Place where
  bank : Nat
  address : Nat
deriving DecidableEq

/-- The place that a relocation leads to: what it does not set is kept. -/
def Place.move (place : Place) : Relocation → Place
  | .bank bank => { place with bank := bank.toNat }
  | .address address => { place with address := address.toNat }
  | .both bank address => ⟨bank.toNat, address.toNat⟩

/-- Where the layout stands. -/
def Layout.here (layout : Layout) : Place := ⟨layout.bank, layout.address⟩

/-- Where a cell lies. -/
def Cell.place (cell : Cell) : Place := ⟨cell.owner.bank, cell.address⟩

namespace Placed

/-- Where a statement starts. -/
def start (placed : Placed) : Place := ⟨placed.bank, placed.address⟩

/-- Where a statement ends. -/
def stop (placed : Placed) : Place := ⟨placed.bank, placed.address + placed.code.length⟩

/-- Where statements in order end: the end of the last one, or the first place of all. -/
def frontier (placed : List Placed) : Place :=
  match placed.getLast? with
  | none => ⟨0, 0⟩
  | some last => last.stop

@[simp] theorem frontier_concat (placed : List Placed) (last : Placed) :
    frontier (placed ++ [last]) = last.stop := by
  simp [frontier]

end Placed

/-- A cell of a program belongs to one of its statements, by its number, and lies
behind the start of the statement by less than the statement is long. -/
theorem Program.mem_cells {program : Program} {cell : Cell} (member : cell ∈ program.cells) :
    program.placed[cell.index]? = some cell.owner ∧
      ∃ offset < cell.owner.code.length, cell.address = cell.owner.address + offset := by
  obtain ⟨⟨owner, index⟩, numbered, cellOf⟩ := List.mem_flatMap.mp member
  obtain ⟨⟨octet, offset⟩, slot, rfl⟩ := List.mem_map.mp cellOf
  refine ⟨?_, offset, ?_, rfl⟩
  · simpa using List.mem_zipIdx_iff_getElem?.mp numbered
  · exact (List.getElem?_eq_some_iff.mp (List.mem_zipIdx_iff_getElem?.mp slot)).1

end BankAsm
