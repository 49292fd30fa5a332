import BankAsm.Proofs.Assembly.Bounds
import BankAsm.Proofs.Assembly.Finishing
import BankAsm.Proofs.Assembly.Offers
import BankAsm.Proofs.Program.Widening

/-!
# More banks never hurt

How many banks there are is looked at in one place: where a relocation leads. So a statement
that is placed in a bank is placed there whatever the number of banks, as long as the bank is
among them (`Places.withBanks`), and so is a run (`Pulls.withBanks`). With more banks a source
has the same program, and with fewer it fails, if at all, at the first relocation to a bank
that is missing (`Widens`).
-/

namespace BankAsm

/-- The bank that a relocation selects, if it selects one. -/
def Relocation.bank? : Relocation → Option Nat
  | .bank number => some number.toNat
  | .address _ => none
  | .both number _ => some number.toNat

namespace Layout

open LabelTable (Binds)

variable {before after : Layout} {s : Statement} {code : List Octet} {p : Placed}

/-- The layout with another number of banks. -/
def withBanks (layout : Layout) (banks : Nat) : Layout := { layout with banks }

/-- A relocation that leads to another bank selects it. -/
theorem bank?_eq_of_move {relocation : Relocation}
    (elsewhere : (before.move relocation).bank ≠ before.bank) :
    relocation.bank? = some (before.move relocation).bank := by
  cases relocation with
  | bank bank => rfl
  | address address => exact absurd rfl elsewhere
  | both bank address => rfl

/-- The number of banks does not matter to where a relocation leads. -/
theorem move_withBanks (layout : Layout) (banks : Nat) (relocation : Relocation) :
    (layout.withBanks banks).move relocation = (layout.move relocation).withBanks banks := by
  cases relocation <;> rfl

/-- The number of banks does not matter to a constant. -/
theorem constant_withBanks (layout : Layout) (banks : Nat) (octet : Octet) :
    (layout.withBanks banks).constant octet = layout.constant octet := by
  cases octet <;> rfl

/-- Nor does it matter to constants in order. -/
theorem constants_withBanks (layout : Layout) (banks : Nat) (octets : List Octet) :
    (layout.withBanks banks).constants octets = layout.constants octets := by
  induction octets with
  | nil => rfl
  | cons octet octets inductionHypothesis =>
    rw [constants, constants, constant_withBanks, inductionHypothesis]

/-- Octets spell the same relocation with any number of banks. -/
theorem Spells.withBanks {relocation : Relocation} (spells : before.Spells code relocation)
    (banks : Nat) : (before.withBanks banks).Spells code relocation := by
  obtain ⟨mode, octets, values, spelled, known, relocates⟩ := spells
  exact ⟨mode, octets, values, spelled, (constants_withBanks before banks octets).trans known,
    relocates⟩

/-- A statement is placed alike with any number of banks that its own is among. -/
theorem Places.withBanks (places : Places before s code after p) {banks : Nat}
    (inside : p.bank < banks) :
    Places (before.withBanks banks) s code (after.withBanks banks) p := by
  cases places with
  | assign role spelled known bound =>
    exact .assign role spelled ((constant_withBanks before banks _).trans known) bound
  | locate role spelled known relocates target populated room bound =>
    subst target
    have targetToo := move_withBanks before banks
    exact .locate role spelled ((constants_withBanks before banks _).trans known) relocates
      (targetToo _).symm inside room bound
  | emit role room fits bound => exact .emit role room fits bound

/-- A statement that is placed in a bank which is missing with fewer banks, behind one which
is not, is a relocation that selects it, and is refused with fewer banks. -/
theorem Places.fails_withBanks (places : Places before s code after p) {banks : Nat}
    (here : before.bank < banks) (beyond : banks ≤ p.bank) :
    s.role = .locate ∧
      (∃ relocation, before.Spells code relocation ∧ relocation.bank? = some p.bank) ∧
      ∃ reached, Fails (before.withBanks banks) s code reached ⟨.voidBank p.bank, s.position⟩ := by
  cases places with
  | assign => exact absurd here (Nat.not_lt.mpr beyond)
  | @locate mode octets values relocation moved labels role spelled known relocates target =>
    have spells : before.Spells code relocation := ⟨mode, octets, values, spelled, known, relocates⟩
    subst target
    have elsewhere : (before.move relocation).bank ≠ before.bank := by
      simp only at beyond
      omega
    have fails : Fails (before.withBanks banks) s code ((before.move relocation).withBanks banks)
        ⟨.voidBank ((before.move relocation).withBanks banks).bank, s.position⟩ :=
      .vacant role (spells.withBanks banks) (move_withBanks before banks relocation).symm beyond
    exact ⟨role, ⟨relocation, spells, bank?_eq_of_move elsewhere⟩, _, fails⟩
  | emit => exact absurd here (Nat.not_lt.mpr beyond)

end Layout

namespace Assembly

open Layout (Spells)

/-- The assembly with another number of banks. -/
def withBanks (assembly : Assembly) (banks : Nat) : Assembly :=
  { assembly with layout := assembly.layout.withBanks banks }

section Runs

variable {start current after : Assembly} {placed : List Placed} {p : Placed} {banks : Nat}

/-- The number of banks does not matter to what is offered. -/
theorem Offers.withBanks {s : Statement} {code : List Octet} (offers : current.Offers s code)
    (banks : Nat) : (current.withBanks banks).Offers s code :=
  ⟨offers.next, offers.encoded⟩

/-- A pull gives a statement with any number of banks that its own is among. -/
theorem pull_withBanks (pulled : current.pull = (some (.ok p), after)) (inside : p.bank < banks) :
    (current.withBanks banks).pull = (some (.ok p), after.withBanks banks) := by
  obtain ⟨code, offers, places⟩ := exists_offers_of_pull pulled
  rw [(Prod.mk.inj (pulled.symm.trans (offers.pull_of_places places))).2]
  exact (offers.withBanks banks).pull_of_places (places.withBanks inside)

/-- A run is a run with any number of banks that those of its statements are among. -/
theorem Pulls.withBanks (run : Pulls start placed current) (inside : ∀ p ∈ placed, p.bank < banks) :
    Pulls (start.withBanks banks) placed (current.withBanks banks) := by
  induction run with
  | refl => exact .refl
  | step _ pulled inductionHypothesis =>
    obtain ⟨earlier, last⟩ := List.forall_mem_append.mp inside
    have here := last _ (List.mem_singleton_self _)
    exact .step (inductionHypothesis earlier) (pull_withBanks pulled here)

/-- Behind each of the pulls of a run the assemblies differ in the number of banks only. -/
theorem Pulls.behind_withBanks (run : Pulls start placed current)
    (inside : ∀ p ∈ placed, p.bank < banks) {number : Nat} (upTo : number ≤ placed.length) :
    (start.withBanks banks).behind number = (start.behind number).withBanks banks := by
  have runToo := (run.take upTo).withBanks fun p member => inside p (List.mem_of_mem_take member)
  have reached := runToo.behind_eq
  rwa [List.length_take_of_le upTo] at reached

/-- A program is the same with any number of banks that those of its statements are among. -/
theorem finish_withBanks {program : Program} (finished : start.finish = .ok program)
    (inside : ∀ p ∈ program.placed, p.bank < banks) :
    (start.withBanks banks).finish = .ok (program.withBanks banks) := by
  obtain ⟨last, run, ended, labels, _⟩ := pulls_of_finish finished
  have endedToo : (last.withBanks banks).pending = .done := ended
  rw [(run.withBanks inside).finish_eq, finish_of_done endedToo]
  simp only [Except.map, List.append_nil, Program.withBanks, labels]
  rfl

/-- The first statement of a run that is placed in a bank which is missing with fewer banks:
a relocation that selects it, behind others in banks which are not missing. -/
structure Departs (start : Assembly) (banks : Nat) (placed front : List Placed) (p : Placed) :
    Prop where
  among : front ++ [p] <+: placed
  inside : ∀ q ∈ front, q.bank < banks
  role : p.statement.role = .locate
  selects : ∃ code relocation, start.table.encode p.statement = .ok code ∧
    (start.behind front.length).layout.Spells code relocation ∧ relocation.bank? = some p.bank
  beyond : banks ≤ p.bank

/-- A run with a statement in a bank that is missing with fewer banks is refused there with
them. -/
theorem Pulls.exists_departs (run : Pulls start placed current)
    (inBank : (start.withBanks banks).layout.InBank) (missing : ∃ p ∈ placed, banks ≤ p.bank) :
    ∃ front p, Departs start banks placed front p ∧
      Pulls start front (start.behind front.length) ∧
      (start.withBanks banks).answer front.length =
        some (.error (.reported ⟨.voidBank p.bank, p.statement.position⟩)) := by
  have found : (placed.find? fun p => banks ≤ p.bank).isSome := by
    simpa [List.find?_isSome] using missing
  obtain ⟨p, here⟩ := Option.isSome_iff_exists.mp found
  obtain ⟨outside, front, back, rfl, earlier⟩ := List.find?_eq_some_iff_append.mp here
  have beyond : banks ≤ p.bank := by simpa using outside
  have inside : ∀ q ∈ front, q.bank < banks := by simpa using earlier
  obtain ⟨middle, after, prior, pulled, _⟩ := run.exists_pull
  have priorToo := prior.withBanks inside
  have reached := prior.behind_eq
  obtain ⟨code, offers, places⟩ := exists_offers_of_pull pulled
  obtain ⟨role, ⟨relocation, spells, selected⟩, left, refused⟩ :=
    places.fails_withBanks (priorToo.inBank inBank).bank_lt beyond
  refine ⟨front, p, ?_, reached.symm ▸ prior, ?_⟩
  · exact {
      among := ⟨back, by simp⟩
      inside
      role
      selects := by
        refine ⟨code, relocation, ?_, reached.symm ▸ spells, selected⟩
        rw [← prior.table_eq]
        exact offers.encoded
      beyond }
  · rw [answer, priorToo.behind_eq, (offers.withBanks banks).pull_of_fails refused]

end Runs

/-- What the number of banks does to the assembly of a source. -/
structure Widens (table : EncodingTable) (source : String) (seeds : List (String × UInt8))
    (fewer more : Nat) : Prop where
  /-- A program with fewer banks is one with more banks: with the same statements, labels and
  flat bytes, and with further images of the fill byte, or the same failure of the images. -/
  succeeds : ∀ program, (start table source fewer seeds).finish = .ok program →
    ∃ wider, (start table source more seeds).finish = .ok wider ∧
      wider.placed = program.placed ∧ wider.labels = program.labels ∧ wider.flat = program.flat ∧
      ∀ fill, wider.images fill = (program.images fill).map
        (· ++ List.replicate (more - fewer) (List.replicate bankSize fill))
  /-- If there is a program with more banks only, with fewer it fails at the first relocation
  to a bank that is missing, behind the same statements at the same places. -/
  fails : ∀ program failure, (start table source more seeds).finish = .ok program →
    (start table source fewer seeds).finish = .error failure →
    ∃ front p, Departs (start table source more seeds) fewer program.placed front p ∧
      failure = .reported ⟨.voidBank p.bank, p.statement.position⟩ ∧
      (start table source fewer seeds).answer front.length = some (.error failure) ∧
      (∀ number q, front[number]? = some q →
        (start table source fewer seeds).answer number = some (.ok q) ∧
        (start table source more seeds).answer number = some (.ok q)) ∧
      ∀ number ≤ front.length, (start table source fewer seeds).behind number =
        ((start table source more seeds).behind number).withBanks fewer

/-- Assemblies of one source differ in the number of banks only, if there are any. -/
theorem start_withBanks (table : EncodingTable) (source : String) (banks : Nat)
    (seeds : List (String × UInt8)) {fewer : Nat} (positive : 1 ≤ fewer) :
    (start table source banks seeds).withBanks fewer = start table source fewer seeds := by
  simp only [start, withBanks, Layout.start, Layout.withBanks, Nat.max_eq_right positive]

/-- More banks never hurt: a source that has a program with so many banks has the same one
with more of them, and if it has none with fewer, that is reported at the first relocation
which selects a bank that is missing. -/
theorem widens_of_le (table : EncodingTable) (source : String) (seeds : List (String × UInt8))
    {fewer more : Nat} (positive : 1 ≤ fewer) (ordered : fewer ≤ more) :
    Widens table source seeds fewer more where
  succeeds := by
    intro program finished
    have within := cellsInside_of_finish (Layout.inBank_start fewer seeds) finished
    obtain ⟨last, run, _, _, banks⟩ := pulls_of_finish finished
    have start_banks : (start table source fewer seeds).layout.banks = fewer :=
      Nat.max_eq_right positive
    have count : program.banks = fewer := by rw [banks, run.banks_eq, start_banks]
    have inside : ∀ p ∈ program.placed, p.bank < more := by
      intro p member
      have here := (run.within (Layout.inBank_start fewer seeds) p member).1
      omega
    have wider := finish_withBanks finished inside
    rw [start_withBanks _ _ _ _ (Nat.le_trans positive ordered)] at wider
    refine ⟨_, wider, rfl, rfl, Program.flat_withBanks program more, fun fill => ?_⟩
    rw [Program.images_withBanks within (by omega), count]
  fails := by
    intro program failure finished failed
    obtain ⟨last, run, _⟩ := pulls_of_finish finished
    have narrow := start_withBanks table source more seeds positive
    have missing : ∃ p ∈ program.placed, fewer ≤ p.bank := by
      by_contra none
      have finishedToo : ((start table source more seeds).withBanks fewer).finish = _ :=
        finish_withBanks finished fun p member =>
          Nat.not_le.mp fun beyond => none ⟨p, member, beyond⟩
      rw [narrow, failed] at finishedToo
      cases finishedToo
    obtain ⟨front, p, departs, prior, refused⟩ :=
      run.exists_departs (narrow ▸ Layout.inBank_start fewer seeds) missing
    have priorToo := prior.withBanks departs.inside
    rw [narrow] at priorToo refused
    have same : failure = .reported ⟨.voidBank p.bank, p.statement.position⟩ := by
      have whole := priorToo.finish_eq
      rw [← priorToo.behind_eq, finish_of_pull_error refused, failed] at whole
      exact Except.error.inj whole
    refine ⟨front, p, departs, same, same ▸ refused, fun number q found => ?_, ?_⟩
    · exact ⟨priorToo.answer_eq found, prior.answer_eq found⟩
    · intro number upTo
      rw [← narrow]
      exact prior.behind_withBanks departs.inside upTo

/-- Relocations to the second bank and, by the byte of a label, to the third one: with three
banks there is a program, and with two the second relocation is refused. -/
theorem widens_of_le_to_third_bank :
    ∃ program,
      (start instructionSet "third: 2\nLOCATE 1\nhalt\nLOCATE third\nhalt" 3 []).finish =
        .ok program ∧
      (start instructionSet "third: 2\nLOCATE 1\nhalt\nLOCATE third\nhalt" 2 []).finish =
        .error (.reported ⟨.voidBank 2, ⟨4, 1⟩⟩) ∧
      ∃ front p, p.bank = 2 ∧ p.statement.position = ⟨4, 1⟩ ∧
        Departs (start instructionSet "third: 2\nLOCATE 1\nhalt\nLOCATE third\nhalt" 3 []) 2
          program.placed front p := by
  obtain ⟨program, finished, _⟩ := Outcome.exists_of_toOption_map
    (start instructionSet "third: 2\nLOCATE 1\nhalt\nLOCATE third\nhalt" 3 []).finish
    (fun _ => ()) () (by decide +kernel)
  have shown : ((start instructionSet "third: 2\nLOCATE 1\nhalt\nLOCATE third\nhalt" 2
      []).finish.map fun _ => ()) = .error (.reported ⟨.voidBank 2, ⟨4, 1⟩⟩) := by decide +kernel
  have failed := Outcome.map_eq_error_iff.mp shown
  have widens := widens_of_le instructionSet "third: 2\nLOCATE 1\nhalt\nLOCATE third\nhalt" []
    (by decide : 1 ≤ 2) (by decide : 2 ≤ 3)
  obtain ⟨front, p, departs, same, _⟩ := widens.fails program _ finished failed
  simp only [Failure.reported.injEq, Diagnostic.mk.injEq, Cause.voidBank.injEq] at same
  exact ⟨program, finished, failed, front, p, same.1.symm, same.2.symm, departs⟩

end Assembly

end BankAsm
