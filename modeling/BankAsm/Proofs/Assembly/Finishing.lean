import BankAsm.Proofs.Assembly.Answers
import BankAsm.Proofs.Assembly.Pulls
import BankAsm.Proofs.Program.Suffix

/-!
# Finishing behind pulls

A pull that does not fail takes the first statement off the program that finishing gives
(`finish_pull`). So finishing behind pulls gives the program that finishing at once gives
without its first statements, or the same failure (`finish_behind`). Finishing at once
fails where a pull fails, but behind that pull there is nothing left, and finishing gives
a program of no statements.
-/

namespace BankAsm

namespace Assembly

/-- An assembly with nothing pending finishes with no statements. -/
theorem finish_of_done {assembly : Assembly} (ended : assembly.pending = .done) :
    assembly.finish = .ok ⟨[], assembly.layout.labels, assembly.layout.banks⟩ := by
  unfold finish
  rw [ended]
  rfl

/-- A pull that does not fail takes the first statement off the program. -/
theorem finish_pull {assembly : Assembly}
    (unbroken : ∀ failure, assembly.pull.1 ≠ some (.error failure)) :
    assembly.pull.2.finish = assembly.finish.map fun program => program.dropFirst 1 := by
  cases given : assembly.pull.1 with
  | none =>
    have ended := pending_of_pull_none given
    rw [pull_of_done ended, finish_of_done ended]
    rfl
  | some outcome =>
    cases outcome with
    | error failure => exact absurd given (unbroken failure)
    | ok placed =>
      have pulled : assembly.pull = (some (.ok placed), assembly.pull.2) := Prod.ext given rfl
      rw [finish_of_pull pulled]
      cases assembly.pull.2.finish <;> rfl

/-- None of so many pulls gives a failure. -/
def Unbroken (assembly : Assembly) (count : Nat) : Prop :=
  ∀ earlier < count, ∀ failure, assembly.answer earlier ≠ some (.error failure)

/-- So many pulls that do not fail take as many statements off the program. -/
theorem finish_behind {assembly : Assembly} {count : Nat} (unbroken : assembly.Unbroken count) :
    (assembly.behind count).finish =
      assembly.finish.map fun program => program.dropFirst count := by
  induction count with
  | zero => cases finished : assembly.finish <;> simp [behind, finished, Except.map]
  | succ count inductionHypothesis =>
    have before : assembly.Unbroken count := fun earlier less => unbroken earlier (by omega)
    rw [behind, finish_pull (unbroken count (Nat.lt_succ_self count)), inductionHypothesis before]
    cases assembly.finish with
    | error failure => rfl
    | ok program => simp [Except.map, Program.dropFirst_dropFirst]

/-- Finishing fails where a pull fails. -/
theorem finish_of_pull_error {assembly : Assembly} {failure : Failure}
    (fails : assembly.pull.1 = some (.error failure)) : assembly.finish = .error failure := by
  unfold pull at fails
  unfold finish
  split at fails
  case h_1 => cases fails
  case h_2 pending =>
    cases fails
    simp [pending, placeAll]
  case h_3 s rest cut pending =>
    split at fails
    case h_1 => cases fails
    case h_2 layout _ placing =>
      cases fails
      simp [pending, placeAll, placing]

/-- No pull fails if finishing does not. -/
theorem unbroken_of_finish {assembly : Assembly} {program : Program}
    (finished : assembly.finish = .ok program) (count : Nat) : assembly.Unbroken count := by
  induction count with
  | zero => exact fun earlier less => absurd less (Nat.not_lt_zero earlier)
  | succ count unbroken =>
    intro earlier less failure fails
    rcases Nat.lt_succ_iff_lt_or_eq.mp less with before | rfl
    · exact unbroken earlier before failure fails
    · have whole := finish_behind unbroken
      rw [finish_of_pull_error fails, finished] at whole
      cases whole

/-- What finishing gives behind so many pulls, beside what it gives at once. -/
structure Resumes (assembly : Assembly) (count : Nat) : Prop where
  /-- Behind pulls that did not fail finishing fails as it does at once. -/
  failing : assembly.Unbroken count →
    ∀ failure, (assembly.behind count).finish = .error failure ↔ assembly.finish = .error failure
  /-- Behind pulls that did not fail the program is what they left of the whole one. -/
  remaining : assembly.Unbroken count →
    ∀ program, assembly.finish = .ok program →
      ∃ rest, (assembly.behind count).finish = .ok rest ∧ program.Leaves count rest
  /-- Behind a pull that failed the program has no statements, and the labels that were
  bound up to there. -/
  broken : ∀ earlier < count, ∀ failure, assembly.answer earlier = some (.error failure) →
    (assembly.behind count).layout = (assembly.behind (earlier + 1)).layout ∧
      (assembly.behind count).finish =
        .ok ⟨[], (assembly.behind count).layout.labels, (assembly.behind count).layout.banks⟩

/-- The assembly of a source can be finished behind any number of pulls. -/
theorem resumes_of_start (table : EncodingTable) (source : String) (banks : Nat)
    (seeds : List (String × UInt8)) (count : Nat) :
    Resumes (start table source banks seeds) count where
  failing := by
    intro unbroken failure
    rw [finish_behind unbroken]
    exact Outcome.map_eq_error_iff
  remaining := by
    intro unbroken program finished
    rw [finish_behind unbroken, finished]
    exact ⟨program.dropFirst count, rfl, program.leaves_dropFirst count⟩
  broken := by
    intro earlier less failure fails
    obtain ⟨stays, ended⟩ := behind_of_answer_error fails less
    exact ⟨congrArg layout stays, finish_of_done ended⟩

/-- A jump back over one statement to another that was pulled before finishing: in the whole
program it has the address of this one, and behind the pull it meets empty space. -/
theorem resumes_of_start_behind_target :
    ∃ program rest,
      (start instructionSet "nop\nnop\njump <<" 1 []).finish = .ok program ∧
      ((start instructionSet "nop\nnop\njump <<" 1 []).behind 1).finish = .ok rest ∧
      program.resolve 2 (.vector .backward 2 ⟨3, 6⟩) = .ok 0 ∧
      rest.resolve 1 (.vector .backward 2 ⟨3, 6⟩) =
        .error (.reported ⟨.badStep true .emptySpace, ⟨3, 6⟩⟩) := by
  obtain ⟨program, finished, seen⟩ :=
    Outcome.exists_of_toOption_map (start instructionSet "nop\nnop\njump <<" 1 []).finish
      (fun program => (program.placed.length,
        program.placed.all fun p => !p.statement.isDirective,
        (program.resolve 2 (.vector .backward 2 ⟨3, 6⟩)).toOption))
      (3, true, some 0) (by decide +kernel)
  obtain ⟨three, rest⟩ := Prod.mk.inj seen
  obtain ⟨roles, byte⟩ := Prod.mk.inj rest
  obtain ⟨_, resolved, rfl⟩ := Outcome.exists_of_toOption_map
    (program.resolve 2 (.vector .backward 2 ⟨3, 6⟩)) id 0 (by simpa using byte)
  have plain : ∀ p ∈ program.placed, p.statement.isDirective = false := by
    simpa using List.all_eq_true.mp roles
  have visits : Program.Visits program.placed .backward 2 2 0 :=
    Program.visits_back plain (by omega) (by omega) rfl
  obtain ⟨rest, finishedRest, leaves⟩ :=
    (resumes_of_start instructionSet "nop\nnop\njump <<" 1 [] 1).remaining
      (unbroken_of_finish finished 1) program finished
  obtain ⟨step, _, last, atStart, visitsLast, fails⟩ :=
    leaves.gone 1 .backward 2 ⟨3, 6⟩ 0 (by omega) ⟨_, _, _, rfl, 2, Nat.le_refl 2, visits⟩
      (by omega)
  obtain rfl : step = 2 := by
    have sum : last + step = 1 + 1 := visitsLast.leads
    omega
  exact ⟨program, rest, finished, finishedRest, resolved, fails⟩

end Assembly

end BankAsm
