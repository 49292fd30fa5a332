import BankAsm.Assembly
import BankAsm.Proofs.Layout.Placing
import Mathlib.Data.List.Induction

/-!
# Runs of an assembly

`Pulls` is the run of an assembly by pulls that each gave a statement at its
place. A run consumes its statements in order (`Pulls.pending_eq`), it composes
(`Pulls.trans`), and finishing is the run to the end (`pulls_of_finish`), from
wherever an earlier run left off (`Pulls.finish_eq`).
-/

namespace BankAsm

namespace Assembly

open Layout (Places)

/-- Zero or more pulls, each of which gave a statement at its place. -/
inductive Pulls (start : Assembly) : List Placed → Assembly → Prop where
  | refl : Pulls start [] start
  | step {placed current next after}
      (prior : Pulls start placed current)
      (pulled : current.pull = (some (.ok next), after)) :
      Pulls start (placed ++ [next]) after

/-- Two runs that meet at the same assembly compose. -/
theorem Pulls.trans {start middle last : Assembly} {first second : List Placed}
    (before : Pulls start first middle) (behind : Pulls middle second last) :
    Pulls start (first ++ second) last := by
  induction behind with
  | refl => simpa using before
  | step _ pulled inductionHypothesis =>
    simpa [List.append_assoc] using Pulls.step inductionHypothesis pulled

/-- A pull is a run of its own. -/
theorem Pulls.single {start after : Assembly} {next : Placed}
    (pulled : start.pull = (some (.ok next), after)) : Pulls start [next] after := by
  simpa using Pulls.step .refl pulled

/-- The last statement of a run was given by its last pull. -/
theorem Pulls.unconcat {start last : Assembly} {placed : List Placed} {next : Placed}
    (run : Pulls start (placed ++ [next]) last) :
    ∃ current, Pulls start placed current ∧ current.pull = (some (.ok next), last) := by
  generalize whole : placed ++ [next] = all at run
  cases run with
  | refl => simp at whole
  | step prior pulled =>
    obtain ⟨rfl, rfl⟩ := List.append_singleton_inj.mp whole
    exact ⟨_, prior, pulled⟩

/-- A run over statements in two parts has an assembly between the parts. -/
theorem Pulls.split {start last : Assembly} {first : List Placed} (second : List Placed)
    (run : Pulls start (first ++ second) last) :
    ∃ middle, Pulls start first middle ∧ Pulls middle second last := by
  induction second using List.reverseRecOn generalizing last with
  | nil => exact ⟨last, by simpa using run, .refl⟩
  | append_singleton rest next inductionHypothesis =>
    rw [← List.append_assoc] at run
    obtain ⟨current, prior, pulled⟩ := run.unconcat
    obtain ⟨middle, before, behind⟩ := inductionHypothesis prior
    exact ⟨middle, before, .step behind pulled⟩

/-- A statement is placed exactly if it is encoded and does what its role says. -/
theorem placeNext_eq_ok_iff {table : EncodingTable} {layout after : Layout} {s : Statement}
    {placed : Placed} : placeNext table layout s = (after, .ok placed) ↔
      ∃ code, table.encode s = .ok code ∧ Places layout s code after placed := by
  rw [placeNext]
  cases table.encode s with
  | error failure => simp
  | ok code =>
    simp only [Except.ok.injEq, exists_eq_left', ← Layout.place_eq_ok_iff]
    cases layout.place s code with
    | mk reached outcome => cases outcome <;> simp

/-- Every statement of a run was given by a pull behind a run over those in front of it. -/
theorem Pulls.exists_pull {start last : Assembly} {first rest : List Placed} {next : Placed}
    (run : Pulls start (first ++ next :: rest) last) :
    ∃ current after, Pulls start first current ∧ current.pull = (some (.ok next), after) ∧
      Pulls after rest last := by
  have whole : Pulls start ((first ++ [next]) ++ rest) last := by simpa using run
  obtain ⟨after, before, behind⟩ := whole.split rest
  obtain ⟨current, prior, pulled⟩ := before.unconcat
  exact ⟨current, after, prior, pulled, behind⟩

/-- What a pull that gives a statement does: it takes the next statement, places
it, and leaves the others. -/
structure Takes (before : Assembly) (placed : Placed) (after : Assembly) : Prop where
  table : after.table = before.table
  items : before.pending.items = placed.statement :: after.pending.items
  failure : after.pending.failure = before.pending.failure
  placing : placeNext before.table before.layout placed.statement = (after.layout, .ok placed)

/-- A pull that gives a statement takes it. -/
theorem takes_of_pull {before after : Assembly} {placed : Placed}
    (pulled : before.pull = (some (.ok placed), after)) : Takes before placed after := by
  unfold pull at pulled
  split at pulled
  case h_1 => cases pulled
  case h_2 => cases pulled
  case h_3 s rest failure pending =>
    split at pulled
    case h_2 => cases pulled
    case h_1 layout found placing =>
      cases pulled
      obtain ⟨_, _, places⟩ := placeNext_eq_ok_iff.mp placing
      have same := places.statement_eq
      exact {
        table := rfl
        items := by rw [pending, same]
        failure := by rw [pending]
        placing := by rw [same, placing] }

/-- What the statement of a pull did to the layout. -/
theorem places_of_pull {before after : Assembly} {placed : Placed}
    (pulled : before.pull = (some (.ok placed), after)) :
    ∃ code, before.table.encode placed.statement = .ok code ∧
      Places before.layout placed.statement code after.layout placed :=
  placeNext_eq_ok_iff.mp (takes_of_pull pulled).placing

/-- A run keeps the table. -/
theorem Pulls.table_eq {start current : Assembly} {placed : List Placed}
    (run : Pulls start placed current) : current.table = start.table := by
  induction run with
  | refl => rfl
  | step _ pulled inductionHypothesis => rw [(takes_of_pull pulled).table, inductionHypothesis]

/-- A run has placed the statements in front of those that it left. -/
theorem Pulls.pending_eq {start current : Assembly} {placed : List Placed}
    (run : Pulls start placed current) :
    start.pending =
      ⟨placed.map (·.statement) ++ current.pending.items, current.pending.failure⟩ := by
  induction run with
  | refl => simp
  | step _ pulled inductionHypothesis =>
    have taken := takes_of_pull pulled
    rw [inductionHypothesis, taken.items, taken.failure]
    simp

/-- A statement and others behind it are placed if it is placed and they are behind it. -/
theorem placeAll_cons_eq_ok_iff {table : EncodingTable} {l last : Layout} {s : Statement}
    {rest : List Statement} {placed : List Placed} :
    placeAll table l (s :: rest) = .ok (last, placed) ↔
      ∃ after p others, placeNext table l s = (after, .ok p) ∧
        placeAll table after rest = .ok (last, others) ∧ placed = p :: others := by
  rw [placeAll]
  cases step : placeNext table l s with
  | mk after outcome =>
    cases outcome with
    | error failure => simp
    | ok p =>
      simp only [Outcome.map_eq_ok_iff, Prod.exists, Prod.mk.injEq, Except.ok.injEq]
      constructor
      · rintro ⟨_, others, found, rfl, rfl⟩
        exact ⟨after, p, others, ⟨rfl, rfl⟩, found, rfl⟩
      · rintro ⟨_, _, others, ⟨rfl, rfl⟩, found, rfl⟩
        exact ⟨last, others, found, rfl, rfl⟩

/-- Placing all statements in order is a run over them. -/
theorem pulls_of_placeAll {table : EncodingTable} {layout last : Layout}
    {items : List Statement} {placed : List Placed} (failure : Option Diagnostic)
    (placing : placeAll table layout items = .ok (last, placed)) :
    Pulls ⟨table, layout, ⟨items, failure⟩⟩ placed ⟨table, last, ⟨[], failure⟩⟩ := by
  induction items generalizing layout placed with
  | nil =>
    cases placing
    exact .refl
  | cons s rest inductionHypothesis =>
    obtain ⟨after, first, others, step, placingRest, rfl⟩ := placeAll_cons_eq_ok_iff.mp placing
    have pulled : (⟨table, layout, ⟨s :: rest, failure⟩⟩ : Assembly).pull =
        (some (.ok first), ⟨table, after, ⟨rest, failure⟩⟩) := by
      simp [pull, step]
    exact (Pulls.single pulled).trans (inductionHypothesis placingRest)

/-- Statements are placed in two parts if the first part is placed and the second one behind
it. -/
theorem placeAll_append_eq_ok_iff {table : EncodingTable} {l last : Layout}
    {front rest : List Statement} {placed : List Placed} :
    placeAll table l (front ++ rest) = .ok (last, placed) ↔
      ∃ after first others, placeAll table l front = .ok (after, first) ∧
        placeAll table after rest = .ok (last, others) ∧ placed = first ++ others := by
  induction front generalizing l placed with
  | nil =>
    simp only [List.nil_append, placeAll, Except.ok.injEq, Prod.mk.injEq]
    constructor
    · intro found
      exact ⟨l, [], placed, ⟨rfl, rfl⟩, found, rfl⟩
    · rintro ⟨_, _, others, ⟨rfl, rfl⟩, found, rfl⟩
      exact found
  | cons s front inductionHypothesis =>
    simp only [List.cons_append, placeAll_cons_eq_ok_iff, inductionHypothesis]
    constructor
    · rintro ⟨after, p, _, step, ⟨between, first, others, found, behind, rfl⟩, rfl⟩
      exact ⟨between, p :: first, others, ⟨after, p, first, step, found, rfl⟩, behind, rfl⟩
    · rintro ⟨between, _, others, ⟨after, p, first, step, found, rfl⟩, behind, rfl⟩
      exact ⟨after, p, first ++ others, step, ⟨between, first, others, found, behind, rfl⟩, rfl⟩

/-- Statements behind others are placed where these end. -/
theorem placeAll_append {table : EncodingTable} {l after : Layout} {front : List Statement}
    {placed : List Placed} (placing : placeAll table l front = .ok (after, placed))
    (rest : List Statement) :
    placeAll table l (front ++ rest) =
      (placeAll table after rest).map fun result => (result.1, placed ++ result.2) := by
  induction front generalizing l placed with
  | nil =>
    cases placing
    rw [List.nil_append]
    cases placeAll table after rest <;> rfl
  | cons s front inductionHypothesis =>
    obtain ⟨next, first, others, step, placingRest, rfl⟩ := placeAll_cons_eq_ok_iff.mp placing
    rw [List.cons_append, placeAll, step]
    simp only [inductionHypothesis placingRest]
    cases placeAll table after rest <;> rfl

/-- Finishing with statements in front gives them in front of the program. -/
theorem finish_append {table : EncodingTable} {l after : Layout} {front : List Statement}
    {placed : List Placed} (placing : placeAll table l front = .ok (after, placed))
    (rest : Feed Diagnostic Statement) :
    (⟨table, l, ⟨front ++ rest.items, rest.failure⟩⟩ : Assembly).finish =
      (⟨table, after, rest⟩ : Assembly).finish.map fun program =>
        { program with placed := placed ++ program.placed } := by
  simp only [finish, placeAll_append placing]
  cases placeAll table after rest.items with
  | error f => rfl
  | ok result => cases rest.failure <;> rfl

/-- Finishing is a run to the end, and the program is what the run leaves. -/
theorem pulls_of_finish {assembly : Assembly} {program : Program}
    (finished : assembly.finish = .ok program) :
    ∃ last, Pulls assembly program.placed last ∧ last.pending = .done ∧
      program.labels = last.layout.labels ∧ program.banks = last.layout.banks := by
  obtain ⟨table, layout, items, failure⟩ := assembly
  unfold finish at finished
  split at finished
  case h_1 => cases finished
  case h_2 last placed placing =>
    split at finished
    case h_1 => cases finished
    case h_2 unbroken =>
      cases finished
      obtain rfl : failure = none := unbroken
      exact ⟨_, pulls_of_placeAll none placing, rfl, rfl, rfl⟩

/-- Finishing behind a pull gives the program without the statement that was pulled. -/
theorem finish_of_pull {before after : Assembly} {placed : Placed}
    (pulled : before.pull = (some (.ok placed), after)) :
    before.finish = after.finish.map fun program =>
      { program with placed := placed :: program.placed } := by
  have taken := takes_of_pull pulled
  unfold finish
  rw [taken.items, taken.failure, taken.table, placeAll, taken.placing]
  simp only
  cases placeAll before.table after.layout after.pending.items with
  | error failure => rfl
  | ok result =>
    obtain ⟨layout, others⟩ := result
    cases before.pending.failure with
    | some diagnostic => rfl
    | none => rfl

/-- Finishing behind a run gives the program without the statements of the run. -/
theorem Pulls.finish_eq {start current : Assembly} {placed : List Placed}
    (run : Pulls start placed current) :
    start.finish = current.finish.map fun program =>
      { program with placed := placed ++ program.placed } := by
  induction run with
  | refl => cases start.finish <;> rfl
  | step _ pulled inductionHypothesis =>
    rw [inductionHypothesis, finish_of_pull pulled]
    cases finish _ <;> simp [Except.map]

/-- An assembly that is seen to finish with these mnemonics pulls each of them, behind
a run over those in front of it, and can finish there as well. -/
theorem exists_pull_of_finish (start : Assembly) (front : List String) (word : String)
    (back : List String)
    (shown : (start.finish.toOption.map fun program =>
      program.placed.map (·.statement.mnemonic)) = some (front ++ word :: back)) :
    ∃ program placed next current after remaining, start.finish = .ok program ∧
      placed.map (·.statement.mnemonic) = front ∧ next.statement.mnemonic = word ∧
      Pulls start placed current ∧ current.pull = (some (.ok next), after) ∧
      current.finish = .ok remaining := by
  obtain ⟨program, finished, words⟩ := Outcome.exists_of_toOption_map _ _ _ shown
  obtain ⟨placed, others, whole, fronts, behind⟩ := List.map_eq_append_iff.mp words
  obtain ⟨next, rest, rfl, here, _⟩ := List.map_eq_cons_iff.mp behind
  obtain ⟨last, run, _⟩ := pulls_of_finish finished
  rw [whole] at run
  obtain ⟨current, after, prior, pulled, _⟩ := run.exists_pull
  obtain ⟨remaining, finishedHere, _⟩ :=
    Outcome.map_eq_ok_iff.mp (prior.finish_eq.symm.trans finished)
  exact ⟨program, placed, next, current, after, remaining, finished, fronts, here, prior, pulled,
    finishedHere⟩

end Assembly

end BankAsm
