import BankAsm.Encoding.Table
import BankAsm.Proofs.Layout.Place
import BankAsm.Proofs.Layout.Places

/-!
# Places within the banks

A statement starts where the one before it ended, or where a relocation moves
from there, and it ends within an existing bank. `Places.inBank` is the step of
the invariant: a layout stands in a bank, at most at its end.
-/

namespace BankAsm

namespace Layout

/-- How a statement comes to its place when those in front of it ended at another.
The constants of a relocation are those of the layout in front of it. -/
inductive Reaches (table : EncodingTable) (before : Layout) (origin : Place) (placed : Placed) :
    Prop where
  | stays
      (role : placed.statement.role ≠ .locate)
      (start : placed.start = origin)
  | moves {mode octets values relocation}
      (role : placed.statement.role = .locate)
      (encoded : table.encode placed.statement = .ok (mode :: octets))
      (known : before.constants octets = .ok values)
      (relocates : Relocation.ofBytes? mode values = some relocation)
      (start : placed.start = origin.move relocation)

/-- A statement that ends within an existing bank, which leaves the layout at its
end. Directives to the layout itself are empty. -/
structure Settles (banks : Nat) (placed : Placed) (after : Layout) : Prop where
  bank_lt : placed.bank < banks
  stop_le : placed.address + placed.code.length ≤ bankSize
  here_eq : after.here = placed.stop
  empty : placed.statement.role ≠ .emit → placed.code = []

/-- The layout stands in an existing bank, at most at its end. -/
structure InBank (layout : Layout) : Prop where
  bank_lt : layout.bank < layout.banks
  address_le : layout.address ≤ bankSize

/-- The first place lies in a bank, since there is at least one. -/
theorem inBank_start (banks : Nat) (seeds : List (String × UInt8)) :
    (Layout.start banks seeds).InBank where
  bank_lt := by
    simp only [start]
    omega
  address_le := by simp [start]

/-- A relocation moves the layout as it moves the place. -/
theorem here_move (layout : Layout) (relocation : Relocation) :
    (layout.move relocation).here = layout.here.move relocation := by
  cases relocation <;> rfl

/-- A relocation cannot lead beyond the end of a bank. -/
theorem address_move_le {layout : Layout} (inBank : layout.address ≤ bankSize)
    (relocation : Relocation) : (layout.move relocation).address ≤ bankSize := by
  cases relocation with
  | bank bank => exact inBank
  | address address => exact Nat.le_of_lt address.toNat_lt
  | both bank address => exact Nat.le_of_lt address.toNat_lt

variable {before after : Layout} {s : Statement} {code : List Octet} {placed : Placed}

/-- Placing leaves the number of banks. -/
theorem Places.banks_eq (places : Places before s code after placed) :
    after.banks = before.banks := by
  cases places with
  | assign => rfl
  | locate _ _ _ _ target =>
    rw [target]
    exact move_banks _ _
  | emit => rfl

/-- The layout stands in a bank behind a statement if it stood in one before it. -/
theorem Places.inBank (places : Places before s code after placed) (inBank : before.InBank) :
    after.InBank := by
  cases places with
  | assign => exact ⟨inBank.bank_lt, inBank.address_le⟩
  | locate _ _ _ _ target populated =>
    refine ⟨populated, ?_⟩
    rw [target]
    exact address_move_le inBank.address_le _
  | emit _ _ fits => exact ⟨inBank.bank_lt, fits⟩

/-- The layout stands where the statement ends. -/
theorem Places.here_eq (places : Places before s code after placed) :
    after.here = placed.stop := by
  cases places <;> rfl

/-- A statement is placed in a bank, up to at most its end, and the layout moves there. -/
theorem Places.settles (places : Places before s code after placed) (inBank : before.InBank) :
    Settles before.banks placed after := by
  have reached := places.inBank inBank
  have stopHere := places.here_eq
  have bank_eq : after.bank = placed.bank := congrArg Place.bank stopHere
  have address_eq : after.address = placed.address + placed.code.length :=
    congrArg Place.address stopHere
  refine ⟨?_, ?_, stopHere, ?_⟩
  · rw [← bank_eq, ← places.banks_eq]
    exact reached.bank_lt
  · rw [← address_eq]
    exact reached.address_le
  · intro directive
    cases places with
    | assign => rfl
    | locate => rfl
    | emit role => exact absurd role directive

/-- A statement starts where the layout stands, unless it relocates. -/
theorem Places.reaches {table : EncodingTable} (encoded : table.encode s = .ok code)
    (places : Places before s code after placed) : Reaches table before before.here placed := by
  cases places with
  | assign role =>
    refine .stays ?_ rfl
    simp [role]
  | locate role spelled known relocates target =>
    subst spelled
    refine .moves role encoded known relocates ?_
    rw [← here_move, ← target]
    rfl
  | emit role =>
    refine .stays ?_ rfl
    simp [role]

end Layout

end BankAsm
