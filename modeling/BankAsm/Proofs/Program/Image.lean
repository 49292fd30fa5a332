import BankAsm.Proofs.Layout.Place
import BankAsm.Proofs.Outcome
import BankAsm.Proofs.Program.Memory
import BankAsm.Proofs.Program.Resolve
import BankAsm.Proofs.Program.Stream

/-!
# What the bank images hold

Cells are writable when all of them have a byte and no two lie at one place. The
images hold the bytes of writable cells and nothing else (`Memory.Holds`); of
other cells, writing reports the first that stops it (`Program.Stops`), and both
are the only ways in which writing ends (`writeAll_outcome`).
-/

namespace BankAsm

namespace Program

/-- Cells that each have a byte and a place of their own. -/
structure Writable (program : Program) (cells : List Cell) : Prop where
  resolves : ∀ cell ∈ cells, ∃ value, program.resolveCell cell = .ok value
  distinct : (cells.map Cell.place).Nodup

/-- What stops the writing at a cell behind others: it has no byte, or else it lies
at the place of one of them. -/
inductive Stops (program : Program) (earlier : List Cell) (cell : Cell) : Failure → Prop where
  | unresolved {failure}
      (failed : program.resolveCell cell = .error failure) :
      Stops program earlier cell failure
  | overlaps {value}
      (resolved : program.resolveCell cell = .ok value)
      (filled : cell.place ∈ earlier.map Cell.place) :
      Stops program earlier cell (.reported (overlap cell))

/-- The places of the cells lie in the banks. -/
def CellsInside (banks : Nat) (cells : List Cell) : Prop :=
  ∀ cell ∈ cells, cell.place.bank < banks ∧ cell.place.address < bankSize

variable {program : Program} {earlier cells later : List Cell} {cell : Cell} {failure : Failure}

/-- One more cell can be written if it has a byte and its place is free. -/
theorem Writable.concat (writable : program.Writable earlier) {value : UInt8}
    (resolved : program.resolveCell cell = .ok value)
    (free : cell.place ∉ earlier.map Cell.place) : program.Writable (earlier ++ [cell]) where
  resolves := by
    intro other member
    rcases List.mem_append.mp member with before | last
    · exact writable.resolves other before
    · rw [List.mem_singleton.mp last]
      exact ⟨value, resolved⟩
  distinct := by
    rw [List.map_append, List.nodup_append]
    refine ⟨writable.distinct, by simp, ?_⟩
    intro place before other last
    rw [List.map_singleton, List.mem_singleton] at last
    rw [last]
    rintro rfl
    exact free before

/-- Nothing stops the writing of writable cells. -/
theorem Stops.not_writable (stops : program.Stops earlier cell failure) :
    ¬program.Writable (earlier ++ cell :: later) := by
  intro writable
  cases stops with
  | unresolved failed =>
    obtain ⟨value, resolved⟩ := writable.resolves cell (by simp)
    rw [failed] at resolved
    cases resolved
  | overlaps resolved filled =>
    have distinct := writable.distinct
    rw [List.map_append, List.map_cons, List.nodup_append] at distinct
    exact distinct.2.2 _ filled _ List.mem_cons_self rfl

/-- Only one cell is the first to stop the writing. -/
theorem first_stop_unique {front behind : List Cell} {other : Cell} {again : Failure}
    (writable : program.Writable earlier) (stops : program.Stops earlier cell failure)
    (writableFront : program.Writable front) (stopsAgain : program.Stops front other again)
    (same : earlier ++ cell :: later = front ++ other :: behind) :
    earlier = front ∧ cell = other ∧ later = behind := by
  rcases List.append_eq_append_iff.mp same with ⟨gap, rfl, rest⟩ | ⟨gap, rfl, rest⟩
  · cases gap with
    | nil =>
      obtain ⟨rfl, rfl⟩ := List.cons.inj rest
      simp
    | cons first gap =>
      obtain ⟨rfl, rfl⟩ := List.cons.inj rest
      exact absurd writableFront stops.not_writable
  · cases gap with
    | nil =>
      obtain ⟨rfl, rfl⟩ := List.cons.inj rest
      simp
    | cons first gap =>
      obtain ⟨rfl, rfl⟩ := List.cons.inj rest
      exact absurd writable stopsAgain.not_writable

/-- A cell is stopped for one reason. -/
theorem Stops.unique {other : Failure} (stops : program.Stops earlier cell failure)
    (again : program.Stops earlier cell other) : failure = other := by
  cases stops with
  | unresolved failed =>
    cases again with
    | unresolved failedToo => exact Except.error.inj (failed.symm.trans failedToo)
    | overlaps resolved =>
      rw [failed] at resolved
      cases resolved
  | overlaps resolved =>
    cases again with
    | unresolved failed =>
      rw [resolved] at failed
      cases failed
    | overlaps => rfl

end Program

namespace Memory

/-- A memory that holds the bytes of cells at their places, and nothing elsewhere. -/
structure Holds (program : Program) (banks : Nat) (memory : Memory) (cells : List Cell) :
    Prop where
  shape : HasBanks banks memory
  filled : ∀ cell ∈ cells, ∃ value, program.resolveCell cell = .ok value ∧
    memory.read? cell.place.bank cell.place.address = some (some value)
  blank : ∀ place : Place, place.bank < banks → place.address < bankSize →
    place ∉ cells.map Cell.place → memory.read? place.bank place.address = some none

/-- The blank memory holds no cells. -/
theorem holds_blank (program : Program) (banks : Nat) :
    Holds program banks (blank banks) [] where
  shape := hasBanks_blank banks
  filled := by simp
  blank _ bankInside addressInside _ := read?_blank bankInside addressInside

/-- Writing the byte of a cell at a free place adds the cell. -/
theorem Holds.write {program : Program} {banks : Nat} {memory : Memory} {cells : List Cell}
    {cell : Cell} {value : UInt8} (holds : Holds program banks memory cells)
    (bankInside : cell.place.bank < banks) (addressInside : cell.place.address < bankSize)
    (resolved : program.resolveCell cell = .ok value)
    (free : cell.place ∉ cells.map Cell.place) :
    Holds program banks (memory.write cell.place.bank cell.place.address value)
      (cells ++ [cell]) where
  shape := holds.shape.write _ _ _
  filled := by
    intro other member
    rcases List.mem_append.mp member with before | last
    · obtain ⟨byte, otherResolved, stands⟩ := holds.filled other before
      have apart : ¬(cell.place.bank = other.place.bank ∧
          cell.place.address = other.place.address) := by
        rintro ⟨sameBank, sameAddress⟩
        apply free
        rw [Place.ext sameBank sameAddress]
        exact List.mem_map_of_mem before
      refine ⟨byte, otherResolved, ?_⟩
      rw [read?_write holds.shape bankInside addressInside, if_neg apart]
      exact stands
    · rw [List.mem_singleton.mp last]
      refine ⟨value, resolved, ?_⟩
      rw [read?_write holds.shape bankInside addressInside, if_pos ⟨rfl, rfl⟩]
  blank := by
    intro place placeBank placeAddress absent
    rw [List.map_append, List.mem_append, not_or] at absent
    have apart : ¬(cell.place.bank = place.bank ∧ cell.place.address = place.address) := by
      rintro ⟨sameBank, sameAddress⟩
      apply absent.2
      rw [← Place.ext sameBank sameAddress]
      exact List.mem_singleton_self cell.place
    rw [read?_write holds.shape bankInside addressInside, if_neg apart]
    exact holds.blank place placeBank placeAddress absent.1

end Memory

namespace Program

open Memory (Holds blank)

variable {program : Program} {earlier cells : List Cell} {memory : Memory} {banks : Nat}

/-- Writing ends with a memory that holds all cells, or at the first cell that stops
it. -/
theorem writeAll_outcome (holds : Holds program banks memory earlier)
    (writable : program.Writable earlier) (inside : CellsInside banks cells) :
    (∃ final, program.writeAll memory cells = .ok final ∧
      Holds program banks final (earlier ++ cells) ∧ program.Writable (earlier ++ cells)) ∨
    ∃ before cell later failure, cells = before ++ cell :: later ∧
      program.writeAll memory cells = .error failure ∧
      program.Writable (earlier ++ before) ∧ program.Stops (earlier ++ before) cell failure := by
  induction cells generalizing memory earlier with
  | nil => exact .inl ⟨memory, rfl, by simpa using holds, by simpa using writable⟩
  | cons cell cells inductionHypothesis =>
    obtain ⟨bankInside, addressInside⟩ := inside cell List.mem_cons_self
    unfold writeAll
    cases resolved : program.resolve cell.index cell.octet with
    | error failure =>
      exact .inr ⟨[], cell, cells, failure, rfl, rfl, by simpa using writable,
        .unresolved resolved⟩
    | ok value =>
      by_cases filled : cell.place ∈ earlier.map Cell.place
      · -- The place was written by an earlier cell, so something stands there.
        obtain ⟨other, member, samePlace⟩ := List.mem_map.mp filled
        obtain ⟨byte, _, stands⟩ := holds.filled other member
        rw [samePlace] at stands
        refine .inr ⟨[], cell, cells, _, rfl, ?_, by simpa using writable,
          .overlaps resolved (by simpa using filled)⟩
        simp only [show memory.read? cell.owner.bank cell.address = some (some byte) from stands]
      · have stands := holds.blank cell.place bankInside addressInside filled
        simp only [show memory.read? cell.owner.bank cell.address = some none from stands]
        have next := inductionHypothesis
          (holds.write bankInside addressInside resolved filled)
          (writable.concat resolved filled)
          (fun other member => inside other (List.mem_cons_of_mem cell member))
        rcases next with ⟨final, wrote, holdsAll, writableAll⟩ |
          ⟨before, stopped, later, failure, rest, failed, writableBefore, stops⟩
        · exact .inl ⟨final, wrote, by simpa using holdsAll, by simpa using writableAll⟩
        · refine .inr ⟨cell :: before, stopped, later, failure, by rw [rest]; rfl, failed, ?_, ?_⟩
          · simpa using writableBefore
          · simpa using stops

/-- Cells inside the banks are written if they are writable, and only then. -/
theorem writeAll_blank_isOk_iff (inside : CellsInside banks cells) :
    (∃ final, program.writeAll (blank banks) cells = .ok final) ↔ program.Writable cells := by
  have start := Memory.holds_blank program banks
  rcases writeAll_outcome start ⟨by simp, by simp⟩ inside with
    ⟨final, wrote, _, writable⟩ | ⟨before, cell, later, failure, rfl, failed, _, stops⟩
  · exact ⟨fun _ => by simpa using writable, fun _ => ⟨final, wrote⟩⟩
  · constructor
    · rintro ⟨final, wrote⟩
      rw [failed] at wrote
      cases wrote
    · intro writable
      exact absurd writable (by simpa using stops.not_writable)

/-- Writing cells inside the banks fails where, and as, a first cell stops it. -/
theorem writeAll_blank_eq_error_iff {failure : Failure} (inside : CellsInside banks cells) :
    program.writeAll (blank banks) cells = .error failure ↔
      ∃ before cell later, cells = before ++ cell :: later ∧
        program.Writable before ∧ program.Stops before cell failure := by
  have start := Memory.holds_blank program banks
  rcases writeAll_outcome start ⟨by simp, by simp⟩ inside with
    ⟨final, wrote, _, writable⟩ |
    ⟨before, cell, later, found, split, failed, writableBefore, stops⟩
  · constructor
    · intro failed
      rw [wrote] at failed
      cases failed
    · rintro ⟨before, cell, later, rfl, _, stops⟩
      have blocked : ¬program.Writable (before ++ cell :: later) := stops.not_writable
      exact absurd (by simpa using writable) blocked
  · rw [List.nil_append] at writableBefore stops
    constructor
    · intro again
      rw [failed] at again
      cases again
      exact ⟨before, cell, later, split, writableBefore, stops⟩
    · rintro ⟨front, other, behind, splitAgain, writableFront, stopsAgain⟩
      obtain ⟨rfl, rfl, rfl⟩ := first_stop_unique writableBefore stops writableFront stopsAgain
        (split.symm.trans splitAgain)
      rw [failed, stops.unique stopsAgain]

/-- Writing is never stuck when the cells lie inside the banks and belong to
statements of the program. -/
theorem writeAll_blank_ne_stuck (inside : CellsInside banks cells)
    (owned : ∀ cell ∈ cells, cell.index < program.placed.length) :
    program.writeAll (blank banks) cells ≠ .error .stuck := by
  intro stuck
  obtain ⟨before, cell, later, rfl, _, stops⟩ := (writeAll_blank_eq_error_iff inside).mp stuck
  cases stops with
  | unresolved failed =>
    have known : cell.index < program.placed.length := owned cell (by simp)
    exact resolve_ne_stuck known cell.octet failed

end Program

end BankAsm
