import BankAsm.Proofs.Assembly.Answers
import BankAsm.Proofs.Statement.Lines

/-!
# Lines are assembled one after another

An assembly goes on from another one when it has the same layout, and the statements that
are pending there are the first that are pending here. As long as the other one has
answers, both give the same and stay in this relation (`Extends.pull`, `Extends.behind`).
So lines below a source change nothing of what is assembled without them.
-/

namespace BankAsm

namespace Assembly

/-- An assembly with the same place and the same statements before it as another one has,
and perhaps more behind them. -/
structure Extends (whole alone : Assembly) : Prop where
  table : whole.table = alone.table
  layout : whole.layout = alone.layout
  pending : whole.pending.Extends alone.pending

/-- A source with more lines below has more to assemble. -/
theorem extends_start (table : EncodingTable) (upper lower : String) (banks : Nat)
    (seeds : List (String × UInt8)) :
    (start table (upper ++ "\n" ++ lower) banks seeds).Extends (start table upper banks seeds) :=
  ⟨rfl, rfl, Statement.extends_ofSource upper lower⟩

section Pulls

variable {whole alone : Assembly}

/-- A pull that the assembly alone answers is answered in the same way with more behind it. -/
theorem Extends.pull (more : whole.Extends alone) (answered : alone.pull.1 ≠ none) :
    whole.pull.1 = alone.pull.1 ∧ whole.pull.2.Extends alone.pull.2 := by
  obtain ⟨table, layout, pending⟩ := whole
  obtain ⟨_, _, pendingAlone⟩ := alone
  obtain ⟨rfl, rfl, goesOn⟩ := more
  simp only at goesOn
  cases goesOn with
  | same => exact ⟨rfl, rfl, rfl, .same _⟩
  | further items behind =>
    cases items with
    | nil => exact absurd rfl answered
    | cons s rest =>
      unfold Assembly.pull
      simp only [List.cons_append]
      split
      case h_1 => exact ⟨rfl, rfl, rfl, .further rest behind⟩
      case h_2 => exact ⟨rfl, rfl, rfl, .same .done⟩

/-- So many pulls are answered alike if the assembly alone answers each of them. -/
theorem Extends.behind (more : whole.Extends alone) {count : Nat}
    (answered : ∀ earlier < count, alone.answer earlier ≠ none) :
    (∀ earlier < count, whole.answer earlier = alone.answer earlier) ∧
      (whole.behind count).Extends (alone.behind count) := by
  induction count with
  | zero => exact ⟨by simp, more⟩
  | succ count inductionHypothesis =>
    obtain ⟨same, here⟩ := inductionHypothesis fun earlier less => answered earlier (by omega)
    obtain ⟨answer, next⟩ := here.pull (answered count (Nat.lt_succ_self count))
    refine ⟨fun earlier less => ?_, next⟩
    rcases Nat.lt_succ_iff_lt_or_eq.mp less with before | rfl
    · exact same earlier before
    · exact answer

/-- Two assemblies with nothing pending are the same if one goes on from the other. -/
theorem Extends.eq_of_done (more : whole.Extends alone) (ended : whole.pending = .done)
    (endedAlone : alone.pending = .done) : whole = alone := by
  obtain ⟨table, layout, pending⟩ := whole
  obtain ⟨_, _, pendingAlone⟩ := alone
  obtain ⟨rfl, rfl, _⟩ := more
  simp only at ended endedAlone
  rw [ended, endedAlone]

/-- The answers and the layouts that go on from those of another assembly are the same up
to the end of the other one. -/
theorem Extends.shared (more : whole.Extends alone) {count : Nat}
    (answered : ∀ earlier < count, alone.answer earlier ≠ none) :
    (∀ earlier < count, whole.answer earlier = alone.answer earlier) ∧
      ∀ earlier ≤ count, (whole.behind earlier).layout = (alone.behind earlier).layout := by
  refine ⟨(more.behind answered).1, fun earlier upTo => ?_⟩
  exact (more.behind fun first less => answered first (by omega)).2.layout

/-- A failure of the other assembly is a failure of both, and leaves the same of both. -/
theorem Extends.behind_eq_of_error (more : whole.Extends alone) {count later : Nat}
    {failure : Failure} (fails : alone.answer count = some (.error failure))
    (after : count < later) :
    whole.behind later = alone.behind later ∧ (alone.behind later).pending = .done := by
  have answered : ∀ earlier < count + 1, alone.answer earlier ≠ none := fun earlier less =>
    answer_ne_none_of_error fails (Nat.le_of_lt_succ less)
  obtain ⟨same, here⟩ := more.behind answered
  have failsToo : whole.answer count = some (.error failure) := by
    rw [same count (Nat.lt_succ_self count), fails]
  obtain ⟨stays, ended⟩ := behind_of_answer_error failsToo after
  obtain ⟨staysAlone, endedAlone⟩ := behind_of_answer_error fails after
  rw [← stays, ← staysAlone] at here
  exact ⟨here.eq_of_done ended endedAlone, endedAlone⟩

end Pulls

/-- What the assembly of a source with more lines below has in common with that of the
source alone. -/
structure Streams (whole alone : Assembly) : Prop where
  /-- As long as the source alone has answers, both have the same, at the same places and
  with the same labels. -/
  shared : ∀ count, (∀ earlier < count, alone.answer earlier ≠ none) →
    (∀ earlier < count, whole.answer earlier = alone.answer earlier) ∧
      ∀ earlier ≤ count, (whole.behind earlier).layout = (alone.behind earlier).layout
  /-- If the source alone fails, all answers of both are the same, with the same layouts,
  and there is none behind the failure. -/
  failing : ∀ count failure, alone.answer count = some (.error failure) →
    ∀ number, whole.answer number = alone.answer number ∧
      (whole.behind number).layout = (alone.behind number).layout ∧
      (count < number → whole.answer number = none)

/-- A source is assembled line by line: whatever stands in the lines below it, it gives
the answers that it gives alone, up to its end, and if it fails alone, that is all. -/
theorem streams_of_append_newline (table : EncodingTable) (upper lower : String) (banks : Nat)
    (seeds : List (String × UInt8)) :
    Streams (start table (upper ++ "\n" ++ lower) banks seeds) (start table upper banks seeds) where
  shared := fun _ answered => (extends_start table upper lower banks seeds).shared answered
  failing := by
    intro count failure fails number
    have more := extends_start table upper lower banks seeds
    rcases Nat.lt_or_ge count number with after | before
    · obtain ⟨same, ended⟩ := more.behind_eq_of_error fails after
      have nothing := congrArg Prod.fst (pull_of_done ended)
      rw [answer, answer, same]
      exact ⟨rfl, rfl, fun _ => nothing⟩
    · have answered : ∀ earlier < number + 1,
          (start table upper banks seeds).answer earlier ≠ none := fun earlier less =>
        answer_ne_none_of_error fails (by omega)
      obtain ⟨same, layouts⟩ := more.shared answered
      exact ⟨same number (Nat.lt_succ_self number), layouts number (Nat.le_succ number),
        fun after => absurd after (Nat.not_lt.mpr before)⟩

/-- A bracket that is open where a source ends is not closed by the lines below it: the
second pull fails, and so it does with a closing bracket below. -/
theorem streams_of_append_newline_of_open_bracket :
    ∃ failure,
      (start instructionSet "nop\nadd [1" 1 []).answer 1 = some (.error failure) ∧
      (start instructionSet ("nop\nadd [1" ++ "\n" ++ "]") 1 []).answer 1 =
        some (.error failure) := by
  have streams := streams_of_append_newline instructionSet "nop\nadd [1" "]" 1 []
  obtain ⟨failure, fails⟩ :=
    exists_failure_of_answer (start instructionSet "nop\nadd [1" 1 []) 1 (by decide +kernel)
  refine ⟨failure, fails, ?_⟩
  rw [(streams.failing 1 failure fails 1).1, fails]

end Assembly

end BankAsm
