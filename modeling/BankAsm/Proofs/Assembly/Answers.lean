import BankAsm.Proofs.Assembly.Pulls

/-!
# What pulls give

An assembly can be pulled from again when it is over. A run is what its first answers are,
and it stands behind as many pulls (`Pulls.behind_eq`, `Pulls.answer_eq`). A failure ends an
assembly: behind one nothing is pending (`pending_of_pull_error`), and an assembly with nothing
pending gives nothing and stays as it is (`pull_of_done`).
-/

namespace BankAsm

namespace Assembly

/-- The assembly behind so many pulls. -/
def behind (assembly : Assembly) : Nat → Assembly
  | 0 => assembly
  | count + 1 => (assembly.behind count).pull.2

/-- The answer to the pull behind so many others. -/
def answer (assembly : Assembly) (count : Nat) : Option (Except Failure Placed) :=
  (assembly.behind count).pull.1

/-- A run stands behind as many pulls as it has statements. -/
theorem Pulls.behind_eq {start current : Assembly} {placed : List Placed}
    (run : Pulls start placed current) : start.behind placed.length = current := by
  induction run with
  | refl => rfl
  | step _ pulled inductionHypothesis =>
    rw [List.length_append, List.length_singleton, behind, inductionHypothesis, pulled]

/-- The first statements of a run are a run as well. -/
theorem Pulls.take {start current : Assembly} {placed : List Placed}
    (run : Pulls start placed current) {count : Nat} (inside : count ≤ placed.length) :
    Pulls start (placed.take count) (start.behind count) := by
  rw [← List.take_append_drop count placed] at run
  obtain ⟨middle, before, _⟩ := run.split
  have reached := before.behind_eq
  rw [List.length_take_of_le inside] at reached
  rwa [reached]

/-- The statements of a run are the first answers. -/
theorem Pulls.answer_eq {start current : Assembly} {placed : List Placed}
    (run : Pulls start placed current) {number : Nat} {p : Placed}
    (found : placed[number]? = some p) : start.answer number = some (.ok p) := by
  have upTo := run.take (List.getElem?_eq_some_iff.mp found).1
  rw [List.take_add_one, found, Option.toList_some] at upTo
  obtain ⟨before, prior, pulled⟩ := upTo.unconcat
  have reached := prior.behind_eq
  rw [List.length_take_of_le (Nat.le_of_lt (List.getElem?_eq_some_iff.mp found).1)] at reached
  rw [answer, reached, pulled]

/-- An answer that is seen to be no value is a failure. -/
theorem exists_failure_of_answer (assembly : Assembly) (count : Nat)
    (shown : (assembly.answer count).map Except.isOk = some false) :
    ∃ failure, assembly.answer count = some (.error failure) := by
  obtain ⟨outcome, given, refused⟩ := Option.map_eq_some_iff.mp shown
  cases outcome with
  | ok placed => cases refused
  | error failure => exact ⟨failure, given⟩

/-- An assembly with nothing pending gives nothing and stays as it is. -/
theorem pull_of_done {assembly : Assembly} (ended : assembly.pending = .done) :
    assembly.pull = (none, assembly) := by
  unfold pull
  rw [ended]
  rfl

/-- An assembly that gives nothing has nothing pending. -/
theorem pending_of_pull_none {assembly : Assembly} (nothing : assembly.pull.1 = none) :
    assembly.pending = .done := by
  unfold pull at nothing
  split at nothing
  case h_1 ended => exact ended
  case h_2 => cases nothing
  case h_3 => split at nothing <;> cases nothing

/-- Nothing is pending behind a failure. -/
theorem pending_of_pull_error {assembly : Assembly} {failure : Failure}
    (fails : assembly.pull.1 = some (.error failure)) : assembly.pull.2.pending = .done := by
  unfold pull at fails ⊢
  split
  case h_1 ended => simp [ended] at fails
  case h_2 => rfl
  case h_3 s rest cut pending =>
    split
    case h_1 layout placed placing => simp [pending, placing] at fails
    case h_2 => rfl

/-- An assembly with nothing pending stays as it is for ever. -/
theorem behind_of_done {assembly : Assembly} {count : Nat}
    (ended : (assembly.behind count).pending = .done) (further : Nat) :
    assembly.behind (count + further) = assembly.behind count := by
  induction further with
  | zero => rfl
  | succ further inductionHypothesis =>
    rw [← Nat.add_assoc, behind, inductionHypothesis, pull_of_done ended]

/-- Nothing is pending behind the pull that failed, and behind all later ones. -/
theorem behind_of_answer_error {assembly : Assembly} {count later : Nat} {failure : Failure}
    (fails : assembly.answer count = some (.error failure)) (after : count < later) :
    assembly.behind later = assembly.behind (count + 1) ∧
      (assembly.behind later).pending = .done := by
  have ended : (assembly.behind (count + 1)).pending = .done := pending_of_pull_error fails
  obtain ⟨further, rfl⟩ := Nat.exists_eq_add_of_le after
  have same : assembly.behind (count + 1 + further) = assembly.behind (count + 1) :=
    behind_of_done ended further
  exact ⟨same, by rw [Nat.succ_eq_add_one, same, ended]⟩

/-- An answer that is a failure is behind answers only. -/
theorem answer_ne_none_of_error {assembly : Assembly} {count earlier : Nat} {failure : Failure}
    (fails : assembly.answer count = some (.error failure)) (before : earlier ≤ count) :
    assembly.answer earlier ≠ none := by
  intro nothing
  have ended : (assembly.behind earlier).pending = .done := pending_of_pull_none nothing
  obtain ⟨further, rfl⟩ := Nat.exists_eq_add_of_le before
  rw [answer, behind_of_done ended] at fails
  rw [answer, fails] at nothing
  cases nothing

end Assembly

end BankAsm
