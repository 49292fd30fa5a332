import BankAsm.Program.Resolve

/-!
# Bank images

The bytes of a program at their places. No place is written twice. A place that no
statement fills holds the fill byte.
-/

namespace BankAsm

/-- The banks of a machine: bank by bank, a byte at every address that was written. -/
abbrev Memory := List (List (Option UInt8))

namespace Memory

/-- The memory of so many banks without a byte. -/
def blank (banks : Nat) : Memory := List.replicate banks (List.replicate bankSize none)

/-- What stands at an address of a bank, if there is such an address. -/
def read? (memory : Memory) (bank address : Nat) : Option (Option UInt8) :=
  memory[bank]?.bind fun cells => cells[address]?

/-- The memory with a byte at an address of a bank. -/
def write (memory : Memory) (bank address : Nat) (value : UInt8) : Memory :=
  memory.modify bank fun cells => cells.set address (some value)

/-- The memory as bytes, with a fill byte where nothing was written. -/
def fill (memory : Memory) (value : UInt8) : List (List UInt8) :=
  memory.map fun cells => cells.map fun cell => cell.getD value

end Memory

namespace Program

/-- The diagnostic of a cell whose place is filled already. -/
def overlap (cell : Cell) : Diagnostic :=
  ⟨.overlap cell.owner.statement.mnemonic cell.owner.bank cell.address,
    cell.owner.statement.position⟩

/-- Writes cells in order. Every octet is resolved before its place is looked at. -/
def writeAll (program : Program) (memory : Memory) : List Cell → Except Failure Memory
  | [] => .ok memory
  | cell :: cells =>
    match program.resolve cell.index cell.octet with
    | .error failure => .error failure
    | .ok value =>
      match memory.read? cell.owner.bank cell.address with
      | some none => program.writeAll (memory.write cell.owner.bank cell.address value) cells
      | some (some _) => .error (.reported (overlap cell))
      | none => .error .stuck

/-- The images of the banks, filled up with a byte. -/
def images (program : Program) (fill : UInt8) : Except Failure (List (List UInt8)) :=
  (program.writeAll (Memory.blank program.banks) program.cells).map fun memory => memory.fill fill

end Program

end BankAsm
