import BankAsm.Proofs.Assembly.Pulls
import BankAsm.Proofs.Layout.Bounds
import BankAsm.Proofs.Program.Image

/-!
# Assemblies keep within the banks

Along a run the layout stands where the last statement ended, in an existing bank
(`Pulls.here_eq`, `Pulls.inBank`). So every statement lies within a bank, and so
does every cell of the program that finishing gives: no byte of an image is looked
for where there is none.
-/

namespace BankAsm

namespace Assembly

open Layout (Reaches Settles InBank)
open Program (CellsInside)

variable {table : EncodingTable} {source : String} {banks : Nat}
  {seeds : List (String × UInt8)} {start current : Assembly} {placed : List Placed}

/-- A run keeps the number of banks. -/
theorem Pulls.banks_eq (run : Pulls start placed current) :
    current.layout.banks = start.layout.banks := by
  induction run with
  | refl => rfl
  | step _ pulled inductionHypothesis =>
    obtain ⟨_, _, places⟩ := places_of_pull pulled
    rw [places.banks_eq, inductionHypothesis]

/-- The layout stays in a bank along a run. -/
theorem Pulls.inBank (run : Pulls start placed current) (inBank : start.layout.InBank) :
    current.layout.InBank := by
  induction run with
  | refl => exact inBank
  | step _ pulled inductionHypothesis =>
    obtain ⟨_, _, places⟩ := places_of_pull pulled
    exact places.inBank inductionHypothesis

/-- Every statement of a run lies within a bank. -/
theorem Pulls.within (run : Pulls start placed current) (inBank : start.layout.InBank) :
    ∀ p ∈ placed, p.bank < start.layout.banks ∧ p.address + p.code.length ≤ bankSize := by
  induction run with
  | refl => simp
  | step prior pulled inductionHypothesis =>
    intro p member
    rcases List.mem_append.mp member with before | last
    · exact inductionHypothesis p before
    · obtain ⟨_, _, places⟩ := places_of_pull pulled
      have settled := places.settles (prior.inBank inBank)
      rw [List.mem_singleton.mp last, ← prior.banks_eq]
      exact ⟨settled.bank_lt, settled.stop_le⟩

/-- The layout stands where the last statement of a run ended, and at the first
place of all when nothing has been pulled. -/
theorem Pulls.here_eq (run : Pulls (Assembly.start table source banks seeds) placed current) :
    current.layout.here = Placed.frontier placed := by
  cases run with
  | refl => rfl
  | step _ pulled =>
    obtain ⟨_, _, places⟩ := places_of_pull pulled
    rw [places.here_eq, Placed.frontier_concat]

/-- The cells of a program that is finished lie inside its banks. -/
theorem cellsInside_of_finish {program : Program} (inBank : current.layout.InBank)
    (finished : current.finish = .ok program) :
    CellsInside program.banks program.cells := by
  obtain ⟨last, run, _, _, banks_eq⟩ := pulls_of_finish finished
  intro cell member
  obtain ⟨owner, offset, inside, address_eq⟩ := Program.mem_cells member
  obtain ⟨bank_lt, stop_le⟩ := run.within inBank cell.owner (List.mem_of_getElem? owner)
  constructor
  · rw [banks_eq, run.banks_eq]
    exact bank_lt
  · simp only [Cell.place, address_eq]
    omega

/-- The images of a program whose cells lie inside its banks are never stuck. -/
theorem images_ne_stuck {program : Program} (inside : CellsInside program.banks program.cells)
    (fill : UInt8) : program.images fill ≠ .error .stuck := by
  intro stuck
  have blocked := Outcome.map_eq_error_iff.mp stuck
  refine Program.writeAll_blank_ne_stuck inside ?_ blocked
  intro cell member
  exact (List.getElem?_eq_some_iff.mp (Program.mem_cells member).1).1

/-- Assembling any source by any table keeps within the banks. A statement that is
pulled starts where the one before it ended, or where its relocation moves from
there, and ends within an existing bank, where it leaves the layout. The program of
all that is left, too, lies within its banks, so its images are never stuck. -/
theorem pull_within_banks
    (run : Pulls (Assembly.start table source banks seeds) placed current) :
    (∀ next after, current.pull = (some (.ok next), after) →
      Settles (max 1 banks) next after.layout ∧
        Reaches table current.layout (Placed.frontier placed) next) ∧
    ∀ program, current.finish = .ok program →
      program.banks = max 1 banks ∧
        (∀ cell ∈ program.cells,
          cell.owner.bank < program.banks ∧ cell.address < bankSize) ∧
        ∀ fill, program.images fill ≠ .error .stuck := by
  have inBank := run.inBank (Layout.inBank_start banks seeds)
  have banks_eq : current.layout.banks = max 1 banks := run.banks_eq
  constructor
  · intro next after pulled
    obtain ⟨code, encoded, places⟩ := places_of_pull pulled
    have settled := places.settles inBank
    have reached := places.reaches encoded
    rw [banks_eq] at settled
    rw [run.here_eq, run.table_eq] at reached
    exact ⟨settled, reached⟩
  · intro program finished
    have inside := cellsInside_of_finish inBank finished
    obtain ⟨_, rest, _, _, finishedBanks⟩ := pulls_of_finish finished
    refine ⟨?_, inside, images_ne_stuck inside⟩
    rw [finishedBanks, rest.banks_eq, banks_eq]

/-- A relocation to the second bank, behind a statement of the first one. -/
theorem pull_within_banks_at_relocation :
    ∃ placed next current after program,
      next.statement.mnemonic = "LOCATE" ∧
      Pulls (Assembly.start instructionSet "halt\nLOCATE 1 [#10]\nhere: DATA here" 2 [])
        placed current ∧
      current.pull = (some (.ok next), after) ∧ Settles 2 next after.layout ∧
      Reaches instructionSet current.layout (Placed.frontier placed) next ∧
      current.finish = .ok program ∧ program.images 0 ≠ .error .stuck := by
  obtain ⟨_, placed, next, current, after, program, _, _, word, run, pulled, finished⟩ :=
    exists_pull_of_finish
      (Assembly.start instructionSet "halt\nLOCATE 1 [#10]\nhere: DATA here" 2 [])
      ["halt"] "LOCATE" ["DATA"] (by decide +kernel)
  obtain ⟨pulls, finishes⟩ := pull_within_banks run
  obtain ⟨settled, reached⟩ := pulls next after pulled
  exact ⟨placed, next, current, after, program, word, run, pulled, settled, reached, finished,
    (finishes program finished).2.2 0⟩

end Assembly

end BankAsm
