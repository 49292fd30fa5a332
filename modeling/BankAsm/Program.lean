import BankAsm.Layout

/-!
# Programs

A program is what placing a whole source leaves: the statements at their places,
the final labels and the number of banks. Its cells are its octets in order, each
with the place that it fills.
-/

namespace BankAsm

/-- The statements of a source at their places, and what its labels stand for. -/
structure Program where
  placed : List Placed
  labels : LabelTable
  banks : Nat

/-- An octet at its address, with the statement that owns it and the number of
that statement. -/
structure Cell where
  index : Nat
  owner : Placed
  address : Nat
  octet : Octet

/-- The cells of a statement with a number. -/
def Placed.cells (placed : Placed) (index : Nat) : List Cell :=
  placed.code.zipIdx.map fun (octet, offset) => ⟨index, placed, placed.address + offset, octet⟩

namespace Program

/-- How many bytes the program has over all its banks. -/
def size (program : Program) : Nat := (program.placed.flatMap fun placed => placed.code).length

/-- The cells of the program, in order. -/
def cells (program : Program) : List Cell :=
  program.placed.zipIdx.flatMap fun (placed, index) => placed.cells index

end Program

end BankAsm
