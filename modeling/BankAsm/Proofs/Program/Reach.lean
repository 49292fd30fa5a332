import BankAsm.Assembly
import BankAsm.Proofs.Outcome
import BankAsm.Proofs.Program.Walk

/-!
# How far walks lead

The neighbours of a statement in a direction are what a walk in this direction meets, one
after the other (`Program.neighbours`). It passes the instructions among them up to the
first directive, and these are its reach. A walk within the reach ends at a byte
(`walk_of_le_reach`). A longer one is refused, and what is reported depends only on how
much longer it is, and on what stands behind the reach (`walk_of_reach_lt`).
-/

namespace BankAsm

namespace Program

/-- The statements in a direction from the one with a number, the nearest first. -/
def neighbours (placed : List Placed) (direction : Direction) (index : Nat) : List Placed :=
  match direction with
  | .backward => (placed.take index).reverse
  | .forward => placed.drop (index + 1)

/-- How many instructions in a row are next to the statement with a number. -/
def reach (placed : List Placed) (direction : Direction) (index : Nat) : Nat :=
  ((neighbours placed direction index).takeWhile fun p => !p.statement.isDirective).length

/-- What stands behind the instructions in a row: a directive, or nothing any more. -/
def obstacle (placed : List Placed) (direction : Direction) (index : Nat) : Obstacle :=
  match (neighbours placed direction index)[reach placed direction index]? with
  | some _ => .directive
  | none => .emptySpace

variable {placed : List Placed} {direction : Direction} {index : Nat}

section Neighbours

variable {p : Placed} {next : Nat}

/-- A statement with neighbours has them in front of those of the nearest one. -/
theorem neighbours_cases (direction : Direction) (inside : index < placed.length) :
    direction.next? placed.length index = none ∧ neighbours placed direction index = [] ∨
      ∃ next p, direction.next? placed.length index = some next ∧ placed[next]? = some p ∧
        neighbours placed direction index = p :: neighbours placed direction next := by
  cases direction with
  | backward =>
    cases index with
    | zero => exact .inl ⟨rfl, rfl⟩
    | succ previous =>
      have before : placed[previous]? = some placed[previous] :=
        List.getElem?_eq_getElem (Nat.lt_of_succ_lt inside)
      refine .inr ⟨previous, placed[previous], rfl, before, ?_⟩
      simp only [neighbours]
      rw [List.take_add_one, before, Option.toList_some, List.reverse_append,
        List.reverse_singleton, List.singleton_append]
  | forward =>
    by_cases further : index + 1 < placed.length
    · refine .inr ⟨index + 1, placed[index + 1], ?_, List.getElem?_eq_getElem further, ?_⟩
      · simp [Direction.next?, further]
      · exact List.drop_eq_getElem_cons further
    · refine .inl ⟨?_, ?_⟩
      · simp [Direction.next?, further]
      · exact List.drop_eq_nil_of_le (Nat.not_lt.mp further)

/-- Without neighbours there is nothing to reach. -/
theorem reach_of_nil (nothing : neighbours placed direction index = []) :
    reach placed direction index = 0 ∧ obstacle placed direction index = .emptySpace := by
  simp [reach, obstacle, nothing]

/-- Nothing is reached over a directive. -/
theorem reach_of_directive
    (split : neighbours placed direction index = p :: neighbours placed direction next)
    (directive : p.statement.isDirective = true) :
    reach placed direction index = 0 ∧ obstacle placed direction index = .directive := by
  simp [reach, obstacle, split, directive]

/-- Behind an instruction the reach is that of the instruction. -/
theorem reach_of_instruction
    (split : neighbours placed direction index = p :: neighbours placed direction next)
    (plain : p.statement.isDirective = false) :
    reach placed direction index = reach placed direction next + 1 ∧
      obstacle placed direction index = obstacle placed direction next := by
  simp [reach, obstacle, split, plain]

end Neighbours

/-- A walk within the reach ends at the address of the statement so many steps away. -/
theorem walk_of_le_reach (position : Position) {steps : Nat} (inside : index < placed.length)
    (within : steps ≤ reach placed direction index) :
    ∃ goal target, direction.Leads index steps goal ∧ placed[goal]? = some target ∧
      walk placed direction position steps index = .ok (UInt8.ofNat target.address) := by
  induction steps generalizing index with
  | zero =>
    have here : placed[index]? = some placed[index] := List.getElem?_eq_getElem inside
    refine ⟨index, placed[index], ?_, here, ?_⟩
    · cases direction <;> rfl
    · simp only [walk, here]
  | succ steps inductionHypothesis =>
    rcases neighbours_cases direction inside with ⟨_, nothing⟩ | ⟨next, p, step, found, split⟩
    · have none := (reach_of_nil nothing).1
      omega
    · cases role : p.statement.isDirective with
      | true =>
        have none := (reach_of_directive split role).1
        omega
      | false =>
        have further := (reach_of_instruction split role).1
        obtain ⟨goal, target, leads, foundTarget, walked⟩ :=
          inductionHypothesis (List.getElem?_eq_some_iff.mp found).1 (by omega)
        have first := Direction.leads_of_next? step
        refine ⟨goal, target, ?_, foundTarget, ?_⟩
        · cases direction <;> simp only [Direction.Leads] at first leads ⊢ <;> omega
        · rw [walk]
          simp [step, found, role, walked]

/-- A walk beyond the reach is refused: it meets what stands behind the reach, with its last
step if it is longer by one. -/
theorem walk_of_reach_lt (position : Position) {steps : Nat} (inside : index < placed.length)
    (beyond : reach placed direction index < steps) :
    walk placed direction position steps index =
      .error (.reported
        ⟨.badStep (steps == reach placed direction index + 1) (obstacle placed direction index),
          position⟩) := by
  induction steps generalizing index with
  | zero => omega
  | succ steps inductionHypothesis =>
    rw [walk]
    rcases neighbours_cases direction inside with ⟨step, nothing⟩ | ⟨next, p, step, found, split⟩
    · obtain ⟨none, empty⟩ := reach_of_nil nothing
      simp [step, none, empty]
    · cases role : p.statement.isDirective with
      | true =>
        obtain ⟨none, directive⟩ := reach_of_directive split role
        simp [step, found, role, none, directive]
      | false =>
        obtain ⟨further, same⟩ := reach_of_instruction split role
        have walked := inductionHypothesis (List.getElem?_eq_some_iff.mp found).1 (by omega)
        simp [step, found, role, walked, further, same]

/-- What a vector resolves to is decided by the instructions in a row next to its statement,
in any list of statements. If it takes no more steps than there are such instructions, it is
the address of the statement so many steps away, cut down to a byte. Otherwise it is a bad
step at the position of the vector: to or over what stands behind the instructions, a
directive if there is another statement at all, and empty space if there is none. -/
theorem resolve_vector_eq (program : Program) (direction : Direction) (position : Position)
    {index : Nat} (inside : index < program.placed.length) (steps : Nat) :
    (steps ≤ reach program.placed direction index →
      ∃ goal target value, direction.Leads index steps goal ∧
        program.placed[goal]? = some target ∧
        program.resolve index (.vector direction steps position) = .ok value ∧
        value.toNat = target.address % 256) ∧
    (reach program.placed direction index < steps →
      ∃ d, program.resolve index (.vector direction steps position) = .error (.reported d) ∧
        d.kind = .badStep ∧ d.position = position ∧
        d.cause.text = "cannot skip "
          ++ (if steps = reach program.placed direction index + 1 then "to" else "over") ++ " "
          ++ (match (neighbours program.placed direction index)[
                reach program.placed direction index]? with
            | some _ => "a directive"
            | none => "empty space") ++ ".") := by
  constructor
  · intro within
    obtain ⟨goal, target, leads, found, walked⟩ := walk_of_le_reach position inside within
    exact ⟨goal, target, _, leads, found, walked, UInt8.toNat_ofNat'⟩
  · intro beyond
    refine ⟨_, walk_of_reach_lt position inside beyond, rfl, rfl, ?_⟩
    unfold Cause.text obstacle
    simp only [beq_iff_eq]
    cases (neighbours program.placed direction index)[reach program.placed direction index]? with
    | none => rfl
    | some _ => rfl

/-- A jump back to a relocation over one instruction: one step leads to the instruction, and
two steps to the directive behind it. -/
theorem resolve_vector_eq_at_relocation :
    ∃ program,
      assemble "nop\nhalt\nLOCATE [#10]\nnop\njump <<" 1 [] = .ok program ∧
      4 < program.placed.length ∧ reach program.placed .backward 4 = 1 ∧
      (∃ goal target value, Direction.backward.Leads 4 1 goal ∧
        program.placed[goal]? = some target ∧
        program.resolve 4 (.vector .backward 1 ⟨5, 6⟩) = .ok value ∧
        value.toNat = target.address % 256) ∧
      ∃ d, program.resolve 4 (.vector .backward 2 ⟨5, 6⟩) = .error (.reported d) ∧
        d.kind = .badStep ∧ d.position = ⟨5, 6⟩ ∧
        d.cause.text = "cannot skip to a directive." := by
  obtain ⟨program, assembled, seen⟩ := Outcome.exists_of_toOption_map
    (assemble "nop\nhalt\nLOCATE [#10]\nnop\njump <<" 1 [])
    (fun program => (program.placed.length, reach program.placed .backward 4,
      (neighbours program.placed .backward 4)[1]?.isSome))
    (5, 1, true) (by decide +kernel)
  simp only [Prod.mk.injEq] at seen
  obtain ⟨count, near, more⟩ := seen
  obtain ⟨stop, behind⟩ := Option.isSome_iff_exists.mp more
  have inside : 4 < program.placed.length := by omega
  obtain ⟨within, _⟩ := resolve_vector_eq program .backward ⟨5, 6⟩ inside 1
  obtain ⟨_, beyond⟩ := resolve_vector_eq program .backward ⟨5, 6⟩ inside 2
  obtain ⟨d, refused, kind, position, text⟩ := beyond (by omega)
  rw [near, behind] at text
  exact ⟨program, assembled, inside, near, within (by omega), d, refused, kind, position, text⟩

end Program

end BankAsm
