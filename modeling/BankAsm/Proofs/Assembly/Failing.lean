import BankAsm.Proofs.Assembly.Answers
import BankAsm.Proofs.Assembly.Labels
import BankAsm.Proofs.Assembly.Offers
import BankAsm.Proofs.Outcome
import Mathlib.Data.Nat.Init

/-!
# What a pull leaves when it fails

A pull that fails leaves the layout as it was, but for two kinds of statements: one whose
octets have no room behind its label, and a relocation that is refused where it leads
(`Aftermath`). Labels are kept by every pull (`grows_pull`, `grows_behind`), and behind a
failure nothing changes any more (`FailsAt`).
-/

namespace BankAsm

namespace Assembly

open Layout (Spells Fails)
open LabelTable (Binds)

variable {assembly : Assembly} {failure : Failure}

/-- A statement that fills its place is refused since its octets do not fit, though its
label, if it has one, can stand where they start. -/
structure Overruns (assembly : Assembly) (failure : Failure) (s : Statement)
    (code : List Octet) : Prop where
  offers : assembly.Offers s code
  role : s.role = .emit
  kind : failure.kind? = some .bankOverflow
  room : s.label.isSome → assembly.layout.address < bankSize
  exceeds : bankSize < assembly.layout.address + code.length

/-- A relocation is refused where it leads: the bank does not exist, or its label cannot
stand there. -/
structure Strays (assembly : Assembly) (failure : Failure) (s : Statement)
    (relocation : Relocation) : Prop where
  offers : ∃ code, assembly.Offers s code ∧ assembly.layout.Spells code relocation
  role : s.role = .locate
  kind : failure.kind? = some .voidBank ∨
    s.label.isSome ∧ (failure.kind? = some .duplicateLabel ∨ failure.kind? = some .bankOverflow)

/-- The layout behind a pull that fails. -/
inductive Aftermath (assembly : Assembly) (failure : Failure) : Layout → Prop where
  /-- The label is bound to where the octets start, and the address is behind them. -/
  | overrun {s code labels}
      (overruns : assembly.Overruns failure s code)
      (bound : Binds assembly.layout.labels s.label (UInt8.ofNat assembly.layout.address) labels) :
      Aftermath assembly failure
        { assembly.layout with address := assembly.layout.address + code.length, labels }
  /-- The parts of the place that the relocation sets are set, and no label is bound. -/
  | moved {s relocation}
      (strays : assembly.Strays failure s relocation) :
      Aftermath assembly failure (assembly.layout.move relocation)
  /-- Whatever else is refused, nothing has changed. -/
  | kept
      (fits : ∀ s code, ¬assembly.Overruns failure s code)
      (stays : ∀ s relocation, ¬assembly.Strays failure s relocation) :
      Aftermath assembly failure assembly.layout

section Aftermath

variable {s : Statement} {code : List Octet}

/-- Only a statement that fills its place overruns. -/
theorem Offers.not_overruns (offers : assembly.Offers s code) (role : s.role ≠ .emit)
    (other : Statement) (octets : List Octet) : ¬assembly.Overruns failure other octets := by
  intro overruns
  obtain ⟨rfl, _⟩ := offers.unique overruns.offers
  exact role overruns.role

/-- Only a relocation strays. -/
theorem Offers.not_strays (offers : assembly.Offers s code) (role : s.role ≠ .locate)
    (other : Statement) (relocation : Relocation) : ¬assembly.Strays failure other relocation := by
  intro strays
  obtain ⟨octets, again, _⟩ := strays.offers
  obtain ⟨rfl, _⟩ := offers.unique again
  exact role strays.role

/-- What a statement leaves that is offered and refused. -/
theorem aftermath_of_fails {after : Layout} {d : Diagnostic} (offers : assembly.Offers s code)
    (fails : Fails assembly.layout s code after d) :
    Aftermath assembly (.reported d) after := by
  cases fails with
  | assign role =>
    exact .kept (offers.not_overruns (by simp [role])) (offers.not_strays (by simp [role]))
  | relocate role refused =>
    refine .kept (offers.not_overruns (by simp [role])) fun other relocation strays => ?_
    obtain ⟨octets, again, spells⟩ := strays.offers
    obtain ⟨rfl, rfl⟩ := offers.unique again
    have relocated := Layout.relocate_eq_ok_iff (s := s).mpr ⟨relocation, spells, rfl⟩
    rw [refused] at relocated
    cases relocated
  | vacant role spells target =>
    rw [target]
    exact .moved ⟨⟨code, offers, spells⟩, role, .inl rfl⟩
  | arrive role spells target _ refused =>
    obtain ⟨labelled, kind⟩ := Layout.kind_of_bindHere refused
    rw [target]
    refine .moved ⟨⟨code, offers, spells⟩, role, .inr ⟨labelled, ?_⟩⟩
    rcases kind with ⟨_, overflow⟩ | ⟨_, duplicate⟩
    · exact .inr (congrArg some overflow)
    · exact .inl (congrArg some duplicate)
  | bind role refused =>
    refine .kept (fun other octets overruns => ?_) (offers.not_strays (by simp [role]))
    obtain ⟨rfl, rfl⟩ := offers.unique overruns.offers
    -- The label was refused with room for it, so it is a duplicate.
    obtain ⟨labelled, ⟨full, _⟩ | ⟨_, duplicate⟩⟩ := Layout.kind_of_bindHere refused
    · exact absurd (overruns.room labelled) (Nat.not_lt.mpr full)
    · have overflow : d.kind = .bankOverflow := Option.some.inj overruns.kind
      rw [duplicate] at overflow
      cases overflow
  | overrun role room bound exceeds => exact .overrun ⟨offers, role, rfl, room, exceeds⟩ bound

/-- What a pull that fails leaves of the layout. -/
theorem aftermath_of_pull (fails : assembly.pull.1 = some (.error failure)) :
    Aftermath assembly failure assembly.pull.2.layout := by
  rcases refused_of_pull fails with ⟨same, nothing⟩ | ⟨s, code, d, offers, rfl, refused⟩
  · rw [same]
    refine .kept (fun s code overruns => nothing s code overruns.offers) fun s _ strays => ?_
    obtain ⟨code, offers, _⟩ := strays.offers
    exact nothing s code offers
  · exact aftermath_of_fails offers refused

end Aftermath

/-- A pull keeps all labels, whatever it gives. -/
theorem grows_pull (assembly : Assembly) :
    assembly.layout.labels.Grows assembly.pull.2.layout.labels := by
  cases given : assembly.pull.1 with
  | none =>
    rw [pull_of_done (pending_of_pull_none given)]
    exact List.prefix_rfl
  | some outcome =>
    cases outcome with
    | ok next =>
      obtain ⟨_, bound⟩ := binds_of_pull (Prod.ext given rfl)
      exact bound.grows
    | error failure =>
      rcases refused_of_pull given with ⟨same, _⟩ | ⟨_, _, _, _, _, refused⟩
      · rw [same]
        exact List.prefix_rfl
      · exact refused.grows

/-- So do pulls, as many as there are. -/
theorem grows_behind (assembly : Assembly) {earlier later : Nat} (ordered : earlier ≤ later) :
    (assembly.behind earlier).layout.labels.Grows (assembly.behind later).layout.labels := by
  induction later, ordered using Nat.le_induction with
  | base => exact List.prefix_rfl
  | succ later _ inductionHypothesis => exact inductionHypothesis.trans (grows_pull _)

/-- What becomes of an assembly whose pull behind so many others fails. -/
structure FailsAt (assembly : Assembly) (count : Nat) (failure : Failure) : Prop where
  /-- The failure leaves of the layout what its statement has to answer for. -/
  aftermath : Aftermath (assembly.behind count) failure (assembly.behind (count + 1)).layout
  /-- No label that was bound at some time stands for another byte later. -/
  keeps : ∀ earlier later, earlier ≤ later → ∀ name value,
    (assembly.behind earlier).layout.labels.find? name = some value →
    (assembly.behind later).layout.labels.find? name = some value
  /-- Later pulls give nothing and leave the assembly as it is. -/
  ended : ∀ later, count < later →
    assembly.answer later = none ∧ assembly.behind later = assembly.behind (count + 1)

/-- A pull that fails changes no more than it must, from whatever source and by whatever
table. It adds a label only if the octets of its statement do not fit, and there the address
is left behind them. It moves only to where a relocation leads that is refused there. In all
other cases it changes nothing, and it is the last pull that changes anything. -/
theorem failsAt_of_answer {table : EncodingTable} {source : String} {banks : Nat}
    {seeds : List (String × UInt8)} {count : Nat}
    (fails : (start table source banks seeds).answer count = some (.error failure)) :
    FailsAt (start table source banks seeds) count failure where
  aftermath := aftermath_of_pull fails
  keeps _ _ ordered _ _ := (grows_behind _ ordered).find?_eq
  ended := by
    intro later after
    obtain ⟨stays, ended⟩ := behind_of_answer_error fails after
    exact ⟨congrArg Prod.fst (pull_of_done ended), stays⟩

/-- A statement of two octets at the last address of a bank: its label is bound to this
address, and the address moves beyond the end of the bank. -/
theorem failsAt_of_answer_at_last_address :
    ∃ failure, (start instructionSet "LOCATE [#FF]\nend: load 1" 1 []).answer 1 =
        some (.error failure) ∧
      ((start instructionSet "LOCATE [#FF]\nend: load 1" 1 []).behind 2).layout =
        ⟨1, 0, 257, ⟨[("end", 255)]⟩⟩ ∧
      FailsAt (start instructionSet "LOCATE [#FF]\nend: load 1" 1 []) 1 failure := by
  obtain ⟨failure, fails⟩ := exists_failure_of_answer
    (start instructionSet "LOCATE [#FF]\nend: load 1" 1 []) 1 (by decide +kernel)
  exact ⟨failure, fails, by decide +kernel, failsAt_of_answer fails⟩

end Assembly

end BankAsm
