import BankAsm.Program.Image

/-!
# Memories

A memory of so many banks is read and written within them. Reading behind a write
gives the new byte at its place and everything else as before (`read?_write`).
-/

namespace BankAsm.Memory

/-- A memory of so many banks. -/
structure HasBanks (banks : Nat) (memory : Memory) : Prop where
  length_eq : memory.length = banks
  sizes : ∀ cells ∈ memory, cells.length = bankSize

variable {memory : Memory} {banks bank address : Nat}

/-- The blank memory has the banks that it is made of. -/
theorem hasBanks_blank (banks : Nat) : HasBanks banks (blank banks) where
  length_eq := by simp [blank]
  sizes := by
    intro cells member
    rw [List.eq_of_mem_replicate member]
    simp

/-- Nothing stands in the blank memory. -/
theorem read?_blank (bankInside : bank < banks) (addressInside : address < bankSize) :
    (blank banks).read? bank address = some none := by
  simp [blank, read?, bankInside, addressInside]

/-- Writing leaves the banks. -/
theorem HasBanks.write (shape : HasBanks banks memory) (bank address : Nat) (value : UInt8) :
    HasBanks banks (memory.write bank address value) where
  length_eq := by simpa [Memory.write] using shape.length_eq
  sizes := by
    intro cells member
    obtain ⟨index, inside, rfl⟩ := List.mem_iff_getElem.mp member
    have before : index < memory.length := by simpa [Memory.write] using inside
    have size := shape.sizes memory[index] (List.getElem_mem before)
    by_cases same : bank = index
    · subst same
      simpa [Memory.write, List.getElem_modify] using size
    · simpa [Memory.write, List.getElem_modify, same] using size

/-- What is read behind a write: the new byte at its place, and everything else as
it was. -/
theorem read?_write (shape : HasBanks banks memory) (bankInside : bank < banks)
    (addressInside : address < bankSize) (value : UInt8) (otherBank otherAddress : Nat) :
    (memory.write bank address value).read? otherBank otherAddress =
      if bank = otherBank ∧ address = otherAddress then some (some value)
      else memory.read? otherBank otherAddress := by
  have inside : bank < memory.length := by rw [shape.length_eq]; exact bankInside
  have size := shape.sizes memory[bank] (List.getElem_mem inside)
  by_cases sameBank : bank = otherBank
  · subst sameBank
    have here : memory[bank]? = some memory[bank] := List.getElem?_eq_getElem inside
    by_cases sameAddress : address = otherAddress
    · subst sameAddress
      simp [Memory.write, read?, here, size, addressInside]
    · simp [Memory.write, read?, here, sameAddress]
  · simp [Memory.write, read?, sameBank]

/-- The byte of an image is what stands in the memory, or the fill byte. -/
theorem getElem?_fill (memory : Memory) (fill : UInt8) (bank address : Nat) :
    ((memory.fill fill)[bank]?.bind fun image => image[address]?) =
      (memory.read? bank address).map fun cell => cell.getD fill := by
  cases here : memory[bank]? with
  | none => simp [Memory.fill, read?, here]
  | some cells => simp [Memory.fill, read?, here]

end BankAsm.Memory
