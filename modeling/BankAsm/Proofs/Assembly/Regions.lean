import BankAsm.Proofs.Assembly.Bounds
import BankAsm.Proofs.Assembly.Labels
import BankAsm.Proofs.Encoding.Vector
import BankAsm.Proofs.Program.Walk
import Mathlib.Data.Nat.Init

/-!
# Regions of instructions

Banks and addresses jump at directives only. So instructions that follow one another
stand in one bank, each where the one before it ended, and the way between two of them
is as long as their octets (`Pulls.region`). A vector never leaves such a region: what
it resolves to is the exact address of an instruction a few steps away (`Displaces`).
-/

namespace BankAsm

namespace Statement

variable {s : Statement}

/-- An instruction fills the place that it stands at. -/
theorem role_of_isDirective (plain : s.isDirective = false) : s.role = .emit := by
  have others : s.mnemonic ≠ "LOCATE" ∧ s.mnemonic ≠ "DATA" ∧ s.mnemonic ≠ "ASSIGN" := by
    simpa [isDirective, Vocabulary.isDirective, Vocabulary.directives] using plain
  simp [role, others]

/-- What fills its place and is no data is an instruction. -/
theorem isDirective_of_role (role : s.role = .emit) (noData : s.mnemonic ≠ "DATA") :
    s.isDirective = false := by
  have noAssign : s.mnemonic ≠ "ASSIGN" := by
    intro assign
    simp [Statement.role, assign] at role
  have noLocate : s.mnemonic ≠ "LOCATE" := by
    intro locate
    simp [Statement.role, locate] at role
  simp [isDirective, Vocabulary.isDirective, Vocabulary.directives, noAssign, noLocate, noData]

end Statement

/-- A statement that fills its place keeps its octets, and any other has none. -/
theorem Layout.Places.code_cases {before after : Layout} {s : Statement} {code : List Octet}
    {placed : Placed} (places : Places before s code after placed) :
    (s.role = .emit ∧ placed.code = code) ∨ (s.role ≠ .emit ∧ placed.code = []) := by
  cases places with
  | assign role => exact .inr ⟨by simp [role], rfl⟩
  | locate role => exact .inr ⟨by simp [role], rfl⟩
  | emit role => exact .inl ⟨role, rfl⟩

/-- A statement with a number stands between those in front of it and those behind. -/
theorem Placed.split_of_getElem? {placed : List Placed} {number : Nat} {p : Placed}
    (found : placed[number]? = some p) :
    placed = placed.take number ++ p :: placed.drop (number + 1) := by
  obtain ⟨inside, rfl⟩ := List.getElem?_eq_some_iff.mp found
  rw [List.getElem_cons_drop, List.take_append_drop]

namespace Assembly

open Layout (Reaches Labels)
open Program (HasInstruction extent)

variable {table : EncodingTable} {source : String} {banks : Nat}
  {seeds : List (String × UInt8)} {start last : Assembly} {placed : List Placed}

/-- A statement of a run that fills its place has its encoding for octets, and any other
has none. -/
theorem Pulls.code_cases (run : Pulls start placed last) {p : Placed} (member : p ∈ placed) :
    (p.statement.role = .emit ∧ start.table.encode p.statement = .ok p.code) ∨
      (p.statement.role ≠ .emit ∧ p.code = []) := by
  obtain ⟨front, back, rfl⟩ := List.append_of_mem member
  obtain ⟨current, after, prior, pulled, _⟩ := run.exists_pull
  obtain ⟨code, encoded, places⟩ := places_of_pull pulled
  rcases places.code_cases with ⟨role, same⟩ | empty
  · refine .inl ⟨role, ?_⟩
    rw [same, ← prior.table_eq]
    exact encoded
  · exact .inr empty

/-- An instruction starts where the statement before it ended. -/
theorem Pulls.start_eq_stop (run : Pulls (Assembly.start table source banks seeds) placed last)
    {number : Nat} {p next : Placed} (here : placed[number]? = some p)
    (behind : placed[number + 1]? = some next) (plain : next.statement.isDirective = false) :
    next.start = p.stop := by
  have whole := Placed.split_of_getElem? behind
  rw [List.take_add_one, here, Option.toList_some] at whole
  rw [whole] at run
  obtain ⟨current, after, prior, pulled, _⟩ := run.exists_pull
  obtain ⟨code, encoded, places⟩ := places_of_pull pulled
  cases places.reaches encoded with
  | stays _ start => rw [start, prior.here_eq, Placed.frontier_concat]
  | moves role => simp [Statement.role_of_isDirective plain] at role

/-- Instructions that follow one another stand in one bank, and as far apart as they are
long. -/
theorem Pulls.region (run : Pulls (Assembly.start table source banks seeds) placed last)
    {low high : Nat} {p q : Placed} (ordered : low ≤ high) (lowest : placed[low]? = some p)
    (highest : placed[high]? = some q)
    (plain : ∀ number, low ≤ number → number ≤ high → HasInstruction placed number) :
    q.bank = p.bank ∧ q.address = p.address + extent placed low high := by
  -- On the way from the lower number to the higher one: each further instruction starts
  -- where the one before it ended.
  induction high, ordered using Nat.le_induction generalizing q with
  | base =>
    obtain rfl : p = q := Option.some.inj (lowest.symm.trans highest)
    simp
  | succ high ordered inductionHypothesis =>
    obtain ⟨before, here, _⟩ := plain high ordered (Nat.le_succ high)
    obtain ⟨sameBank, distance⟩ := inductionHypothesis here fun number fromLow toHigh =>
      plain number fromLow (Nat.le_succ_of_le toHigh)
    obtain ⟨other, sameNumber, instruction⟩ := plain (high + 1) (Nat.le_succ_of_le ordered)
      (Nat.le_refl _)
    obtain rfl : q = other := Option.some.inj (highest.symm.trans sameNumber)
    have follows := run.start_eq_stop here highest instruction
    have bank_eq : q.bank = before.bank := congrArg Place.bank follows
    have address_eq : q.address = before.address + before.code.length :=
      congrArg Place.address follows
    rw [Program.extent_succ ordered here]
    constructor
    · rw [bank_eq, sameBank]
    · omega

/-- An instruction of a run has octets, so it starts within a bank. -/
theorem Pulls.address_lt
    (run : Pulls (Assembly.start instructionSet source banks seeds) placed last) {p : Placed}
    (member : p ∈ placed) (plain : p.statement.isDirective = false) : p.address < bankSize := by
  have inside := (run.within (Layout.inBank_start banks seeds) p member).2
  rcases run.code_cases member with ⟨_, encoded⟩ | ⟨directive, _⟩
  · have filled := List.length_pos_iff.mpr ((encodes_of_encode encoded).code_ne_nil plain)
    omega
  · exact absurd (Statement.role_of_isDirective plain) directive

/-- Only an instruction has a vector among its octets, and it counts a few steps. -/
theorem Pulls.owner_of_vector
    (run : Pulls (Assembly.start instructionSet source banks seeds) placed last) {owner : Placed}
    (member : owner ∈ placed) {direction : Direction} {steps : Nat} {position : Position}
    (slot : .vector direction steps position ∈ owner.code) :
    owner.statement.isDirective = false ∧ 1 ≤ steps ∧ steps ≤ 4 := by
  rcases run.code_cases member with ⟨role, encoded⟩ | ⟨_, empty⟩
  · obtain ⟨noData, operand, among, t, leaf, vector, rfl⟩ :=
      (encodes_of_encode encoded).exists_leaf_of_vector slot
    refine ⟨Statement.isDirective_of_role role noData, ?_⟩
    have inSource : owner.statement ∈ (Statement.ofSource source).items := by
      have pending : Statement.ofSource source = _ := run.pending_eq
      rw [pending]
      exact List.mem_append_left _ (List.mem_map_of_mem member)
    exact Token.steps_of_mem_ofSource
      (Statement.mem_tokens_of_mem_ofSource inSource operand among t leaf) vector
  · rw [empty] at slot
    cases slot

/-- The label of an instruction stands for its address in the program. -/
theorem find?_of_label {program : Program}
    (finished : (Assembly.start table source banks seeds).finish = .ok program)
    {number : Nat} {p : Placed} {label : Label} (found : program.placed[number]? = some p)
    (plain : p.statement.isDirective = false) (labelled : p.statement.label = some label) :
    ∃ value, program.labels.find? label.name = some value ∧ value.toNat = p.address := by
  obtain ⟨bound, law⟩ := labelLaw_of_finish finished
  obtain ⟨earlier, value, later, code, entries, _, _, labels⟩ :=
    law.values _ p _ label (Placed.split_of_getElem? found) labelled
  have role := Statement.role_of_isDirective plain
  refine ⟨value, LabelTable.find?_of_entries entries law.distinct, ?_⟩
  cases labels with
  | address _ _ same => exact same
  | byte assign => simp [role] at assign
  | entry assign => simp [role] at assign

/-- What a vector of the statement with a number resolves to: the address of a `target`
a few steps away, in one region of instructions with the owner, which is as far away as
the octets between them are long, and which a label of the target stands for. -/
structure Displaces (program : Program) (index : Nat) (owner : Placed) (direction : Direction)
    (steps : Nat) (value : UInt8) (goal : Nat) (target : Placed) : Prop where
  few : 1 ≤ steps ∧ steps ≤ 4
  leads : direction.Leads index steps goal
  found : program.placed[goal]? = some target
  region : ∀ number, min index goal ≤ number → number ≤ max index goal →
    ∃ p, program.placed[number]? = some p ∧ p.statement.isDirective = false ∧ p.bank = owner.bank
  byte : value.toNat = target.address
  distance :
    match direction with
    | .backward => target.address + extent program.placed goal index = owner.address
    | .forward => target.address = owner.address + extent program.placed index goal
  label : ∀ label, target.statement.label = some label →
    program.labels.find? label.name = some value

/-- Instructions in both directions from one of a run stand in its bank. -/
theorem Pulls.bank_eq (run : Pulls (Assembly.start table source banks seeds) placed last)
    {index number : Nat} {owner p : Placed} (owned : placed[index]? = some owner)
    (here : placed[number]? = some p)
    (plain : ∀ other, min index number ≤ other → other ≤ max index number →
      HasInstruction placed other) :
    p.bank = owner.bank := by
  rcases Nat.le_total index number with forward | backward
  · refine (run.region forward owned here fun other low high => plain other ?_ ?_).1 <;> omega
  · refine (run.region backward here owned fun other low high => plain other ?_ ?_).1.symm <;> omega

/-- The way to an instruction in either direction is as long as the octets between. -/
theorem Pulls.distance (run : Pulls (Assembly.start table source banks seeds) placed last)
    {direction : Direction} {index steps goal : Nat} {owner target : Placed}
    (leads : direction.Leads index steps goal) (owned : placed[index]? = some owner)
    (found : placed[goal]? = some target)
    (plain : ∀ number, min index goal ≤ number → number ≤ max index goal →
      HasInstruction placed number) :
    match direction with
    | .backward => target.address + extent placed goal index = owner.address
    | .forward => target.address = owner.address + extent placed index goal := by
  cases direction with
  | backward =>
    simp only [Direction.Leads] at leads
    have ordered : goal ≤ index := by omega
    refine (run.region ordered found owned fun number low high => plain number ?_ ?_).2.symm
    · omega
    · omega
  | forward =>
    simp only [Direction.Leads] at leads
    have ordered : index ≤ goal := by omega
    refine (run.region ordered owned found fun number low high => plain number ?_ ?_).2
    · omega
    · omega

/-- A vector that resolves to a byte is an exact displacement within one region of
instructions: a few steps, none of them over or onto a directive, to the address of an
instruction of the same bank, which is the address of its own statement and the octets
between them, and what a label there stands for. -/
theorem displaces_of_resolve {program : Program} {index : Nat} {owner : Placed}
    {direction : Direction} {steps : Nat} {position : Position} {value : UInt8}
    (assembled : assemble source banks seeds = .ok program)
    (owned : program.placed[index]? = some owner)
    (slot : .vector direction steps position ∈ owner.code)
    (resolved : program.resolve index (.vector direction steps position) = .ok value) :
    ∃ goal target, Displaces program index owner direction steps value goal target := by
  obtain ⟨last, run, _⟩ := pulls_of_finish assembled
  obtain ⟨ownerPlain, few⟩ := run.owner_of_vector (List.mem_of_getElem? owned) slot
  obtain ⟨goal, target, leads, found, rfl, passed⟩ := Program.exists_goal_of_walk resolved
  -- The walk looks at every statement but the one that it starts from.
  have plain : ∀ number, min index goal ≤ number → number ≤ max index goal →
      HasInstruction program.placed number := by
    intro number low high
    by_cases own : number = index
    · rw [own]
      exact ⟨owner, owned, ownerPlain⟩
    · exact passed number own low high
  obtain ⟨other, sameGoal, targetPlain⟩ := plain goal (by omega) (by omega)
  obtain rfl : target = other := Option.some.inj (found.symm.trans sameGoal)
  have room := run.address_lt (List.mem_of_getElem? found) targetPlain
  have byte := Layout.toNat_ofNat_of_lt_bankSize room
  refine ⟨goal, target, few, leads, found, ?_, byte, ?_, ?_⟩
  · intro number low high
    obtain ⟨p, here, instruction⟩ := plain number low high
    refine ⟨p, here, instruction, run.bank_eq owned here ?_⟩
    intro between above below
    exact plain between (by omega) (by omega)
  · exact run.distance leads owned found plain
  · intro label labelled
    obtain ⟨value, known, same⟩ := find?_of_label assembled found targetPlain labelled
    rw [known, Option.some.injEq, ← UInt8.toNat_inj, same, byte]

/-- A jump two statements back in the second bank, to a label. -/
theorem displaces_of_resolve_backward :
    ∃ program owner,
      assemble "LOCATE 1 [#10]\nback: add 1\nnop\njump <<" 2 [] = .ok program ∧
      program.placed[3]? = some owner ∧ .vector .backward 2 ⟨4, 6⟩ ∈ owner.code ∧
      program.resolve 3 (.vector .backward 2 ⟨4, 6⟩) = .ok 0x10 ∧
      ∃ goal target, Displaces program 3 owner .backward 2 0x10 goal target := by
  obtain ⟨program, assembled, seen⟩ :=
    Outcome.exists_of_toOption_map
      (assemble "LOCATE 1 [#10]\nback: add 1\nnop\njump <<" 2 [])
      (fun program => (program.placed[3]?.map (·.code),
        (program.resolve 3 (.vector .backward 2 ⟨4, 6⟩)).toOption))
      (some [.byte 0x0E, .vector .backward 2 ⟨4, 6⟩], some 0x10) (by decide +kernel)
  obtain ⟨code, byte⟩ := Prod.mk.inj seen
  obtain ⟨owner, owned, octets⟩ := Option.map_eq_some_iff.mp code
  have slot : .vector .backward 2 ⟨4, 6⟩ ∈ owner.code := by simp [octets]
  have resolved : program.resolve 3 (.vector .backward 2 ⟨4, 6⟩) = .ok 0x10 := by
    cases outcome : program.resolve 3 (.vector .backward 2 ⟨4, 6⟩) with
    | error failure => simp [outcome, Except.toOption] at byte
    | ok value => simpa [outcome, Except.toOption] using byte
  exact ⟨program, owner, assembled, owned, slot, resolved,
    displaces_of_resolve assembled owned slot resolved⟩

end Assembly

end BankAsm
