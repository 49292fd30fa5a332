import BankAsm.Proofs.Program.Resolve
import BankAsm.Proofs.Program.Walk

/-!
# Programs without their first statements

The statements behind the first ones of a program are a program of their own. A walk
among them is the walk in the whole program as long as this one only looks at statements
that are left (`walk_drop`). Where it looks at one that is not, the walk among those that
are left falls off their start instead (`walk_drop_of_visits`).
-/

namespace BankAsm

namespace Program

/-- What a walk from a statement looks at with one of its steps: the statement there, if
those that it stepped on before are instructions. -/
structure Visits (placed : List Placed) (direction : Direction) (index step number : Nat) :
    Prop where
  stepped : 1 ≤ step
  leads : direction.Leads index step number
  inside : number < placed.length
  passed : ∀ earlier between, 1 ≤ earlier → earlier < step →
    direction.Leads index earlier between → HasInstruction placed between

variable {placed : List Placed} {direction : Direction} {position : Position}
  {first steps index step number next : Nat}

/-- A first step looks at the neighbour. -/
theorem visits_of_leads (leads : direction.Leads index 1 next) (inside : next < placed.length) :
    Visits placed direction index 1 next where
  stepped := Nat.le_refl 1
  leads := leads
  inside := inside
  passed := fun _ _ positive less => absurd less (Nat.not_lt.mpr positive)

/-- Among instructions only, a walk back looks at every statement in front of its start. -/
theorem visits_back (plain : ∀ p ∈ placed, p.statement.isDirective = false)
    (inside : index < placed.length) (stepped : 1 ≤ step) (leads : number + step = index) :
    Visits placed .backward index step number where
  stepped := stepped
  leads := leads
  inside := by omega
  passed := by
    intro earlier between _ _ toBetween
    have sum : between + earlier = index := toBetween
    have found : between < placed.length := by omega
    exact ⟨_, List.getElem?_eq_getElem found, plain _ (List.getElem_mem found)⟩

/-- What is looked at from a neighbour is looked at one step later, if the neighbour is an
instruction. -/
theorem Visits.later (visits : Visits placed direction next step number)
    (leads : direction.Leads index 1 next) (plain : HasInstruction placed next) :
    Visits placed direction index (step + 1) number where
  stepped := by omega
  leads := by
    have further := visits.leads
    cases direction <;> simp only [Direction.Leads] at leads further ⊢ <;> omega
  inside := visits.inside
  passed := by
    intro earlier between positive less toBetween
    by_cases isFirst : earlier = 1
    · have same : between = next := by
        subst isFirst
        cases direction <;> simp only [Direction.Leads] at leads toBetween <;> omega
      rw [same]
      exact plain
    · refine visits.passed (earlier - 1) between (by omega) (by omega) ?_
      cases direction <;> simp only [Direction.Leads] at leads toBetween ⊢ <;> omega

/-- What is looked at with a later step is looked at one step earlier from the neighbour. -/
theorem Visits.sooner (visits : Visits placed direction index (step + 1) number)
    (more : 1 ≤ step) (leads : direction.Leads index 1 next) :
    Visits placed direction next step number where
  stepped := more
  leads := by
    have further := visits.leads
    cases direction <;> simp only [Direction.Leads] at leads further ⊢ <;> omega
  inside := visits.inside
  passed := by
    intro earlier between positive less toBetween
    refine visits.passed (earlier + 1) between (by omega) (by omega) ?_
    cases direction <;> simp only [Direction.Leads] at leads toBetween ⊢ <;> omega

/-- The neighbours of a statement among those that are left: the same one as in the whole
program, or none, where the whole program has none either or the last one that is gone. -/
theorem next?_drop_cases (direction : Direction) (inside : first + index < placed.length) :
    (∃ next, direction.next? (placed.drop first).length index = some next ∧
      direction.next? placed.length (first + index) = some (first + next)) ∨
    (direction.next? (placed.drop first).length index = none ∧
      (direction.next? placed.length (first + index) = none ∨
        ∃ gone, direction.next? placed.length (first + index) = some gone ∧
          gone + 1 = first)) := by
  rw [List.length_drop]
  cases direction with
  | backward =>
    cases index with
    | succ index => exact .inl ⟨index, by simp [Direction.next?], by simp [Direction.next?]⟩
    | zero =>
      refine .inr ⟨by simp [Direction.next?], ?_⟩
      cases first with
      | zero => exact .inl (by simp [Direction.next?])
      | succ gone => exact .inr ⟨gone, by simp [Direction.next?], rfl⟩
  | forward =>
    by_cases further : first + index + 1 < placed.length
    · have furtherLeft : index + 1 < placed.length - first := by omega
      refine .inl ⟨index + 1, ?_, ?_⟩
      · simp [Direction.next?, furtherLeft]
      · rw [← Nat.add_assoc]
        simp [Direction.next?, further]
    · have furtherLeft : ¬ index + 1 < placed.length - first := by omega
      exact .inr ⟨by simp [Direction.next?, furtherLeft], .inl (by simp [Direction.next?, further])⟩

/-- A walk that only looks at statements that are left is the same without the others. -/
theorem walk_drop (position : Position) (inside : first + index < placed.length)
    (remains : ∀ step number, step ≤ steps →
      Visits placed direction (first + index) step number → first ≤ number) :
    walk (placed.drop first) direction position steps index =
      walk placed direction position steps (first + index) := by
  induction steps generalizing index with
  | zero => simp only [walk, List.getElem?_drop]
  | succ steps inductionHypothesis =>
    rw [walk, walk]
    rcases next?_drop_cases direction inside with
      ⟨next, here, there⟩ | ⟨here, there | ⟨gone, there, atStart⟩⟩
    · rw [here, there]
      have leads := Direction.leads_of_next? there
      have further := Direction.next?_lt inside there
      simp only [List.getElem?_drop, List.getElem?_eq_getElem further]
      cases plain : placed[first + next].statement.isDirective with
      | true => rfl
      | false =>
        simp only [Bool.false_eq_true, if_false]
        refine inductionHypothesis further fun step number upTo visits => ?_
        have isInstruction : HasInstruction placed (first + next) :=
          ⟨_, List.getElem?_eq_getElem further, plain⟩
        exact remains (step + 1) number (Nat.succ_le_succ upTo)
          (visits.later leads isInstruction)
    · rw [here, there]
    · have visits := visits_of_leads (Direction.leads_of_next? there)
        (Direction.next?_lt inside there)
      have bound := remains 1 gone (by omega) visits
      omega

/-- A walk that looks at the last statement that is gone falls off the start of those that
are left, with the same step. -/
theorem walk_drop_of_visits (position : Position) (upTo : step ≤ steps)
    (visits : Visits placed direction (first + index) step number) (gone : number + 1 = first) :
    walk (placed.drop first) direction position steps index =
      .error (.reported ⟨.badStep (step == steps) .emptySpace, position⟩) := by
  induction steps generalizing index step with
  | zero =>
    have stepped := visits.stepped
    omega
  | succ steps inductionHypothesis =>
    cases direction with
    | forward =>
      have leads : first + index + step = number := visits.leads
      omega
    | backward =>
      have leads : number + step = first + index := visits.leads
      cases index with
      | zero =>
        obtain rfl : step = 1 := by omega
        simp [walk, Direction.next?]
      | succ index =>
        obtain ⟨earlier, rfl⟩ : ∃ earlier, step = earlier + 1 := ⟨index + 1, by omega⟩
        have toNext : Direction.backward.Leads (first + (index + 1)) 1 (first + index) := by
          simp only [Direction.Leads]
          omega
        obtain ⟨neighbour, found, plain⟩ :=
          visits.passed 1 (first + index) (Nat.le_refl 1) (by omega) toNext
        have behind := inductionHypothesis (by omega) (visits.sooner (by omega) toNext)
        simpa [walk, Direction.next?, found, plain] using behind

/-- A walk that looks at a statement that is gone has looked at the last one of these. -/
theorem Visits.exists_last_gone (visits : Visits placed direction (first + index) step number)
    (inside : first + index < placed.length) (gone : number < first) :
    ∃ sooner ≤ step, ∃ last, last + 1 = first ∧
      Visits placed direction (first + index) sooner last := by
  cases direction with
  | forward =>
    have leads : first + index + step = number := visits.leads
    omega
  | backward =>
    have leads : number + step = first + index := visits.leads
    refine ⟨index + 1, by omega, first - 1, by omega, ?_⟩
    exact {
      stepped := by omega
      leads := by
        simp only [Direction.Leads]
        omega
      inside := by omega
      passed := fun earlier between positive less =>
        visits.passed earlier between positive (by omega) }

/-- Resolving an octet of a statement looks at another one if a walk of its does. -/
def LooksAt (placed : List Placed) (index : Nat) (octet : Octet) (number : Nat) : Prop :=
  ∃ direction steps position, octet = .vector direction steps position ∧
    ∃ step ≤ steps, Visits placed direction index step number

/-- The program without so many of its first statements. -/
def dropFirst (program : Program) (first : Nat) : Program :=
  { program with placed := program.placed.drop first }

@[simp] theorem dropFirst_zero (program : Program) : program.dropFirst 0 = program := by
  simp [dropFirst]

/-- Statements that are dropped first and statements that are dropped then. -/
theorem dropFirst_dropFirst (program : Program) (first more : Nat) :
    (program.dropFirst first).dropFirst more = program.dropFirst (first + more) := by
  simp [dropFirst, List.drop_drop]

/-- What is left of a program without so many of its first statements. -/
structure Leaves (whole : Program) (first : Nat) (rest : Program) : Prop where
  placed : rest.placed = whole.placed.drop first
  labels : rest.labels = whole.labels
  banks : rest.banks = whole.banks
  /-- An octet resolves as in the whole program if this looks at statements that are left. -/
  same : ∀ index octet, first + index < whole.placed.length →
    (∀ number, LooksAt whole.placed (first + index) octet number → first ≤ number) →
    rest.resolve index octet = whole.resolve (first + index) octet
  /-- A vector whose walk looks at statements that are gone meets empty space in place of
  the last one of these. -/
  gone : ∀ index direction steps position number, first + index < whole.placed.length →
    LooksAt whole.placed (first + index) (.vector direction steps position) number →
    number < first → ∃ step ≤ steps, ∃ last, last + 1 = first ∧
      Visits whole.placed direction (first + index) step last ∧
      rest.resolve index (.vector direction steps position) =
        .error (.reported ⟨.badStep (step == steps) .emptySpace, position⟩)

/-- The program without so many of its first statements is what is left of it. -/
theorem leaves_dropFirst (whole : Program) (first : Nat) :
    whole.Leaves first (whole.dropFirst first) where
  placed := rfl
  labels := rfl
  banks := rfl
  same := by
    intro index octet inside remains
    cases octet with
    | byte value => rfl
    | label name position => rfl
    | vector direction steps position =>
      exact walk_drop position inside fun step number upTo visits =>
        remains number ⟨direction, steps, position, rfl, step, upTo, visits⟩
  gone := by
    rintro index direction steps position number inside ⟨_, _, _, equal, step, upTo, visits⟩ less
    cases equal
    obtain ⟨sooner, before, last, atStart, visitsLast⟩ := visits.exists_last_gone inside less
    have within : sooner ≤ steps := Nat.le_trans before upTo
    exact ⟨sooner, within, last, atStart, visitsLast,
      walk_drop_of_visits position within visitsLast atStart⟩

end Program

end BankAsm
