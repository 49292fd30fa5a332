import BankAsm.Proofs.Program.Agreement

/-!
# Programs with more banks

The bytes of a program do not depend on how many banks it has (`Program.flat_withBanks`). Banks
behind the others are not written to, so in the images of a program with more banks those of
the program come first, and then banks of the fill byte (`Program.images_withBanks`).
-/

namespace BankAsm

namespace Memory

variable {memory : Memory} {bank : Nat}

/-- A read in the first banks does not see what is behind them. -/
theorem read?_append (inside : bank < memory.length) (extra : Memory) (address : Nat) :
    (memory ++ extra).read? bank address = memory.read? bank address := by
  simp only [read?, List.getElem?_append_left inside]

/-- A write into the first banks leaves what is behind them. -/
theorem write_append (inside : bank < memory.length) (extra : Memory) (address : Nat)
    (value : UInt8) :
    (memory ++ extra).write bank address value = memory.write bank address value ++ extra := by
  refine List.ext_getElem? fun number => ?_
  simp only [Memory.write, List.getElem?_modify, List.getElem?_append, List.length_modify]
  by_cases within : number < memory.length
  · simp only [within, if_true]
  · have other : bank ≠ number := by omega
    simp only [within, if_false, other, id_map']

/-- Banks without a byte are filled with the fill byte. -/
theorem fill_blank (banks : Nat) (value : UInt8) :
    (blank banks).fill value = List.replicate banks (List.replicate bankSize value) := by
  simp [Memory.fill, blank]

/-- Writing leaves the number of banks. -/
@[simp] theorem length_write (memory : Memory) (bank address : Nat) (value : UInt8) :
    (memory.write bank address value).length = memory.length := by
  simp [Memory.write]

end Memory

namespace Program

variable {program : Program} {memory : Memory} {cells : List Cell}

/-- The program with another number of banks. -/
def withBanks (program : Program) (banks : Nat) : Program := { program with banks }

/-- The banks of a program do not matter to its octets. -/
theorem resolve_withBanks (program : Program) (banks index : Nat) (octet : Octet) :
    (program.withBanks banks).resolve index octet = program.resolve index octet := by
  cases octet <;> rfl

/-- The banks of a program do not matter to its flat bytes. -/
theorem flat_withBanks (program : Program) (banks : Nat) :
    (program.withBanks banks).flat = program.flat := by
  apply Feed.eq_of_answers_eq
  have cells : (program.withBanks banks).cells = program.cells := rfl
  have answers : (program.withBanks banks).answers = program.answers := by
    funext cells
    exact List.map_congr_left fun cell _ => resolve_withBanks program banks cell.index cell.octet
  rw [answers_flat, answers_flat, cells, answers]

/-- Cells in the first banks are written in the same way with more banks behind them. -/
theorem writeAll_append (program : Program)
    (inside : ∀ cell ∈ cells, cell.owner.bank < memory.length)
    (extra : Memory) (banks : Nat) :
    (program.withBanks banks).writeAll (memory ++ extra) cells =
      (program.writeAll memory cells).map (· ++ extra) := by
  induction cells generalizing memory with
  | nil => rfl
  | cons cell cells inductionHypothesis =>
    obtain ⟨here, others⟩ := List.forall_mem_cons.mp inside
    rw [writeAll, writeAll, resolve_withBanks, Memory.read?_append here]
    cases program.resolve cell.index cell.octet with
    | error failure => rfl
    | ok value =>
      cases memory.read? cell.owner.bank cell.address with
      | none => rfl
      | some filled =>
        cases filled with
        | some byte => rfl
        | none =>
          simp only
          rw [Memory.write_append here, inductionHypothesis]
          simpa using others

/-- With more banks, the images of a program have banks of the fill byte behind them. -/
theorem images_withBanks (inside : CellsInside program.banks program.cells) {more : Nat}
    (fewer : program.banks ≤ more) (fill : UInt8) :
    (program.withBanks more).images fill =
      (program.images fill).map
        (· ++ List.replicate (more - program.banks) (List.replicate bankSize fill)) := by
  have split : Memory.blank more =
      Memory.blank program.banks ++ Memory.blank (more - program.banks) := by
    rw [Memory.blank, Memory.blank, Memory.blank, List.replicate_append_replicate,
      Nat.add_sub_cancel' fewer]
  have within : ∀ cell ∈ program.cells,
      cell.owner.bank < (Memory.blank program.banks).length := by
    intro cell member
    rw [Memory.blank, List.length_replicate]
    exact (inside cell member).1
  have wrote := writeAll_append program within
    (Memory.blank (more - program.banks)) more
  have cells : (program.withBanks more).cells = program.cells := rfl
  have banks : (program.withBanks more).banks = more := rfl
  rw [images, images, cells, banks, split, wrote]
  cases program.writeAll (Memory.blank program.banks) program.cells with
  | error failure => rfl
  | ok memory =>
    simp only [Except.map, Memory.fill, List.map_append, ← Memory.fill_blank]

end Program

end BankAsm
