import BankAsm.Proofs.Assembly.Bounds
import BankAsm.Proofs.Assembly.Finishing
import BankAsm.Proofs.Assembly.Labels
import BankAsm.Proofs.Assembly.Offers
import BankAsm.Proofs.Encoding.InstructionSet
import Mathlib.Algebra.Ring.Nat

/-!
# Filling the first bank

Statements that fill their places stand one behind the other in the first bank: each starts
where the octets in front of it end (`Filling.offset`). They are placed as long as this goes
well (`Emits.pulls`), and the first that does not fit is refused, be it that its octets go
beyond the end of the bank, or that its label would stand there (`FillsBank`).
-/

namespace BankAsm

namespace LabelTable

/-- A label whose name has no byte can be bound to any. -/
theorem exists_binds {table : LabelTable} {label : Option Label} (value : UInt8)
    (fresh : ∀ name ∈ label.map (·.name), table.find? name = none) :
    ∃ after, Binds table label value after := by
  cases label with
  | none => exact ⟨table, .none table value⟩
  | some label => exact ⟨_, .insert value (fresh label.name (by simp))⟩

end LabelTable

namespace Filling

variable {encoded : List (Statement × List Octet)} {number : Nat} {s : Statement}
  {code : List Octet}

/-- How many octets the statements in front of the one with a number have. -/
def offset (encoded : List (Statement × List Octet)) (number : Nat) : Nat :=
  ((encoded.take number).map fun entry => entry.2.length).sum

/-- The statements in the first bank, one behind the other. -/
def placed (encoded : List (Statement × List Octet)) : List Placed :=
  encoded.zipIdx.map fun (entry, number) => ⟨entry.1, 0, offset encoded number, entry.2⟩

/-- There is no room for the statement with a number: its octets go beyond the end of the
bank, or it has a label and starts at the end. -/
def Overflows (encoded : List (Statement × List Octet)) (number : Nat) : Prop :=
  ∃ entry ∈ encoded[number]?, bankSize < offset encoded (number + 1) ∨
    offset encoded number = bankSize ∧ entry.1.label.isSome

/-- A statement ends behind its own octets. -/
theorem offset_succ (found : encoded[number]? = some (s, code)) :
    offset encoded (number + 1) = offset encoded number + code.length := by
  simp [offset, List.take_add_one, found]

/-- Where a statement stands. -/
theorem getElem?_placed (found : encoded[number]? = some (s, code)) :
    (placed encoded)[number]? = some ⟨s, 0, offset encoded number, code⟩ := by
  simp [placed, found]

/-- The statements are as many as were given. -/
@[simp] theorem length_placed : (placed encoded).length = encoded.length := by simp [placed]

/-- The statements are those that were given. -/
theorem map_statement_placed : (placed encoded).map (·.statement) = encoded.map (·.1) := by
  calc (placed encoded).map (·.statement)
    _ = (encoded.zipIdx.map Prod.fst).map (·.1) := by
      simp only [placed, List.map_map]
      rfl
    _ = encoded.map (·.1) := by rw [List.zipIdx_map_fst]

/-- The statements have all the octets that were given. -/
theorem length_octets_placed :
    ((placed encoded).flatMap (·.code)).length = offset encoded encoded.length := by
  have octets : (placed encoded).map (·.code) = encoded.map (·.2) := by
    calc (placed encoded).map (·.code)
      _ = (encoded.zipIdx.map Prod.fst).map (·.2) := by
        simp only [placed, List.map_map]
        rfl
      _ = encoded.map (·.2) := by rw [List.zipIdx_map_fst]
  rw [List.flatMap_def, octets, List.length_flatten, offset, List.take_length, List.map_map]
  rfl

/-- No statement starts behind all octets. -/
theorem offset_le_length (encoded : List (Statement × List Octet)) (number : Nat) :
    offset encoded number ≤ offset encoded encoded.length := by
  have parts := congrArg (fun entries => (entries.map fun entry => entry.2.length).sum)
    (List.take_append_drop number encoded)
  simp only [List.map_append, List.sum_append_nat] at parts
  rw [offset, offset, List.take_length]
  omega

/-- Where statements in front of another one end. -/
theorem frontier_take (inside : number ≤ encoded.length) :
    Placed.frontier ((placed encoded).take number) = ⟨0, offset encoded number⟩ := by
  cases number with
  | zero => rfl
  | succ number =>
    have found : encoded[number]? = some encoded[number] := List.getElem?_eq_getElem inside
    rw [List.take_add_one, getElem?_placed found, Option.toList_some, Placed.frontier_concat,
      offset_succ found]
    rfl

end Filling

open Filling (offset placed Overflows)
open Layout (Places Fails)
open LabelTable (Binds)

variable {table : EncodingTable} {source : String} {banks : Nat}
  {seeds : List (String × UInt8)} {encoded : List (Statement × List Octet)}

namespace Assembly

/-- Statements that fill their places, with the octets that a table gives them. No two bind
the same name, and none binds that of a seed. -/
structure Emits (table : EncodingTable) (seeds : List (String × UInt8))
    (encoded : List (Statement × List Octet)) : Prop where
  roles : ∀ entry ∈ encoded, entry.1.role = .emit
  octets : ∀ entry ∈ encoded, table.encode entry.1 = .ok entry.2
  distinct : (Statement.labelNames (encoded.map (·.1))).Nodup
  unseeded : ∀ name ∈ Statement.labelNames (encoded.map (·.1)), name ∉ seeds.map (·.1)

section Run

variable {number : Nat} {current : Assembly} {s : Statement} {code : List Octet}

/-- An assembly that stands where the statement with a number belongs, and has it before it. -/
structure Awaits (encoded : List (Statement × List Octet)) (number : Nat) (s : Statement)
    (code : List Octet) (current : Assembly) : Prop where
  found : encoded[number]? = some (s, code)
  role : s.role = .emit
  offers : current.Offers s code
  bank : current.layout.bank = 0
  address : current.layout.address = offset encoded number
  fresh : ∀ name ∈ s.label.map (·.name), current.layout.labels.find? name = none

/-- The next statement, as long as it fits, is placed where the others end. -/
theorem Awaits.pull_of_fits (awaits : Awaits encoded number s code current)
    (fits : ¬Overflows encoded number) :
    current.pull.1 = some (.ok ⟨s, 0, offset encoded number, code⟩) := by
  have address := awaits.address
  have stop := Filling.offset_succ awaits.found
  have enough : current.layout.address + code.length ≤ bankSize := by
    have within : ¬bankSize < offset encoded (number + 1) := fun exceeds =>
      fits ⟨_, awaits.found, .inl exceeds⟩
    omega
  have room (labelled : s.label.isSome) : current.layout.address < bankSize := by
    have inside : offset encoded number ≠ bankSize := fun full =>
      fits ⟨_, awaits.found, .inr ⟨full, labelled⟩⟩
    omega
  obtain ⟨labels, bound⟩ :=
    LabelTable.exists_binds (UInt8.ofNat current.layout.address) awaits.fresh
  have places := Places.emit awaits.role room enough bound
  rw [awaits.offers.pull_of_places places, awaits.bank, address]

/-- The next statement, if there is no room for it, is refused. -/
theorem Awaits.pull_of_overflows (awaits : Awaits encoded number s code current)
    (overflows : Overflows encoded number) :
    current.pull.1 = some (.error (.reported ⟨.bankOverflow s.mnemonic 0, s.position⟩)) := by
  have address := awaits.address
  have stop := Filling.offset_succ awaits.found
  obtain ⟨entry, here, noRoom⟩ := overflows
  obtain rfl : (s, code) = entry := Option.some.inj (awaits.found.symm.trans here)
  have reported : current.layout.overflow s = ⟨.bankOverflow s.mnemonic 0, s.position⟩ := by
    rw [Layout.overflow, awaits.bank]
  rw [← reported]
  -- A label at the end of the bank is refused before its octets are looked at.
  by_cases labelAtEnd : s.label.isSome ∧ bankSize ≤ current.layout.address
  · have refused := Layout.bindHere_of_full labelAtEnd.1 labelAtEnd.2
    rw [awaits.offers.pull_of_fails (.bind awaits.role refused)]
  · have room (labelled : s.label.isSome) : current.layout.address < bankSize :=
      Nat.not_le.mp fun full => labelAtEnd ⟨labelled, full⟩
    have exceeds : bankSize < current.layout.address + code.length := by
      rcases noRoom with beyond | ⟨full, labelled⟩
      · omega
      · have inside := room labelled
        omega
    obtain ⟨labels, bound⟩ :=
      LabelTable.exists_binds (UInt8.ofNat current.layout.address) awaits.fresh
    rw [awaits.offers.pull_of_fails (.overrun awaits.role room bound exceeds)]

variable (emits : Emits table seeds encoded)
  (read : Statement.ofSource source = ⟨encoded.map (·.1), none⟩)

include read

/-- An assembly behind the first statements has all others pending. -/
theorem Pulls.pending_of_take
    (run : Pulls (start table source banks seeds) ((placed encoded).take number) current) :
    current.pending = ⟨(encoded.drop number).map (·.1), none⟩ := by
  have whole : Statement.ofSource source = _ := run.pending_eq
  rw [read, List.map_take, Filling.map_statement_placed, ← List.map_take] at whole
  obtain ⟨items, unbroken⟩ := Feed.mk.inj whole
  have split : encoded.map (·.1) =
      (encoded.take number).map (·.1) ++ (encoded.drop number).map (·.1) := by
    rw [← List.map_append, List.take_append_drop]
  rw [split] at items
  exact congrArg₂ Feed.mk (List.append_cancel_left items).symm unbroken.symm

include emits

omit read in
/-- The label of the next statement is not bound yet. -/
theorem Pulls.fresh_of_take
    (run : Pulls (start table source banks seeds) ((placed encoded).take number) current)
    (found : encoded[number]? = some (s, code)) :
    ∀ name ∈ s.label.map (·.name), current.layout.labels.find? name = none := by
  have upTo : Statement.labelNames ((encoded.take (number + 1)).map (·.1)) =
      Statement.labelNames ((encoded.take number).map (·.1)) ++ (s.label.map (·.name)).toList := by
    simp [List.take_add_one, found]
  have distinct : (Statement.labelNames ((encoded.take (number + 1)).map (·.1))).Nodup :=
    emits.distinct.sublist (((List.take_sublist _ _).map _).filterMap _)
  rw [upTo, List.nodup_append] at distinct
  have seedNames : (start table source banks seeds).layout.labels.names =
      (seeds.map (·.1)).eraseDups := LabelTable.names_ofList seeds
  intro name named
  have last : name ∈ (s.label.map (·.name)).toList := Option.mem_toList.mpr named
  have among : name ∈ Statement.labelNames (encoded.map (·.1)) :=
    List.mem_filterMap.mpr ⟨s, List.mem_map_of_mem (List.mem_of_getElem? found), named⟩
  rw [LabelTable.find?_eq_none_iff, run.names_eq, seedNames, List.map_take,
    Filling.map_statement_placed, ← List.map_take, List.mem_append, List.mem_eraseDups]
  rintro (seed | earlier)
  · exact emits.unseeded name among seed
  · exact distinct.2.2 name earlier name last rfl

/-- Behind the statements in front of it, an assembly awaits the one with a number. -/
theorem Pulls.awaits_of_take
    (run : Pulls (start table source banks seeds) ((placed encoded).take number) current)
    (found : encoded[number]? = some (s, code)) : Awaits encoded number s code current := by
  obtain ⟨inside, same⟩ := List.getElem?_eq_some_iff.mp found
  have member := List.mem_of_getElem? found
  have here := run.here_eq.trans (Filling.frontier_take (Nat.le_of_lt inside))
  exact {
    found
    role := emits.roles _ member
    offers := {
      next := by
        rw [run.pending_of_take read, List.drop_eq_getElem_cons inside, same]
        rfl
      encoded := by
        rw [run.table_eq]
        exact emits.octets _ member }
    bank := congrArg Place.bank here
    address := congrArg Place.address here
    fresh := run.fresh_of_take emits found }

variable (banks) in
/-- The statements in front of the one with a number are pulled, each at its place, if there
is room for all of them. -/
theorem Emits.pulls (inside : number ≤ encoded.length)
    (fits : ∀ earlier < number, ¬Overflows encoded earlier) :
    Pulls (start table source banks seeds) ((placed encoded).take number)
      ((start table source banks seeds).behind number) := by
  induction number with
  | zero => exact .refl
  | succ number inductionHypothesis =>
    have run := inductionHypothesis (Nat.le_of_succ_le inside) fun earlier less =>
      fits earlier (Nat.lt_succ_of_lt less)
    have found : encoded[number]? = some (encoded[number].1, encoded[number].2) :=
      List.getElem?_eq_getElem inside
    have awaits := run.awaits_of_take emits read found
    have pulled := awaits.pull_of_fits (fits number (Nat.lt_succ_self number))
    rw [List.take_add_one, Filling.getElem?_placed found, Option.toList_some]
    exact run.step (Prod.ext pulled rfl)

end Run

/-- What becomes of statements that fill their places, from the first one on. -/
structure FillsBank (assembly : Assembly) (encoded : List (Statement × List Octet)) : Prop where
  /-- All statements in front of the first without room are pulled, each behind the octets
  of those in front of it. This one is refused, and nothing comes behind it. -/
  overflows : ∀ number s code, encoded[number]? = some (s, code) →
    Overflows encoded number → (∀ earlier < number, ¬Overflows encoded earlier) →
      (∀ earlier < number, ∃ next octets, encoded[earlier]? = some (next, octets) ∧
        assembly.answer earlier = some (.ok ⟨next, 0, offset encoded earlier, octets⟩)) ∧
      assembly.answer number =
        some (.error (.reported ⟨.bankOverflow s.mnemonic 0, s.position⟩)) ∧
      ∀ later, number < later → assembly.answer later = none
  /-- If there is room for all of them, they make up the program. -/
  fits : (∀ number, ¬Overflows encoded number) →
    ∃ program, assembly.finish = .ok program ∧ program.placed = placed encoded ∧
      program.size = offset encoded encoded.length
  /-- That is so if their octets fill the bank and no label stands at its end. -/
  full : offset encoded encoded.length = bankSize →
    (∀ number s code, encoded[number]? = some (s, code) → s.label.isSome →
      offset encoded number < bankSize) →
    ∃ program, assembly.finish = .ok program ∧ program.size = bankSize

section Ends

variable (banks) (emits : Emits table seeds encoded)
  (read : Statement.ofSource source = ⟨encoded.map (·.1), none⟩)

include emits read

/-- The first statement without room is refused, and all in front of it are pulled. -/
theorem Emits.answers_of_overflows {number : Nat} {s : Statement} {code : List Octet}
    (found : encoded[number]? = some (s, code)) (overflows : Overflows encoded number)
    (first : ∀ earlier < number, ¬Overflows encoded earlier) :
    (∀ earlier < number, ∃ next octets, encoded[earlier]? = some (next, octets) ∧
        (start table source banks seeds).answer earlier =
          some (.ok ⟨next, 0, offset encoded earlier, octets⟩)) ∧
      (start table source banks seeds).answer number =
        some (.error (.reported ⟨.bankOverflow s.mnemonic 0, s.position⟩)) := by
  have inside := (List.getElem?_eq_some_iff.mp found).1
  constructor
  · intro earlier less
    have foundToo : encoded[earlier]? = some (encoded[earlier].1, encoded[earlier].2) :=
      List.getElem?_eq_getElem (Nat.lt_trans less inside)
    have run := emits.pulls banks read (Nat.le_of_lt (Nat.lt_trans less inside))
      fun before lessToo => first before (Nat.lt_trans lessToo less)
    have awaits := run.awaits_of_take emits read foundToo
    exact ⟨_, _, foundToo, awaits.pull_of_fits (first earlier less)⟩
  · have run := emits.pulls banks read (Nat.le_of_lt inside) first
    exact (run.awaits_of_take emits read found).pull_of_overflows overflows

/-- Statements that all have room make up the program. -/
theorem Emits.exists_finish (fits : ∀ number, ¬Overflows encoded number) :
    ∃ program, (start table source banks seeds).finish = .ok program ∧
      program.placed = placed encoded ∧ program.size = offset encoded encoded.length := by
  have run := emits.pulls banks read (Nat.le_refl _) fun earlier _ => fits earlier
  have ended := run.pending_of_take read
  rw [List.drop_length] at ended
  have whole := run.finish_eq
  rw [finish_of_done ended, ← Filling.length_placed, List.take_length] at whole
  obtain ⟨program, finished, same⟩ : ∃ program,
      (start table source banks seeds).finish = .ok program ∧ program.placed = placed encoded :=
    ⟨_, whole, List.append_nil _⟩
  exact ⟨program, finished, same, by rw [Program.size, same, Filling.length_octets_placed]⟩

end Ends

/-- Overflow is reported exactly. Take a source that is read to its end, into statements that
fill their places and bind names of their own. The first of them that does not fit is refused,
with all in front of it pulled. Without such a statement there is a program, in which every
statement stands in the first bank where those in front of it end. -/
theorem fillsBank_of_emits (emits : Emits table seeds encoded)
    (read : Statement.ofSource source = ⟨encoded.map (·.1), none⟩) (banks : Nat) :
    FillsBank (start table source banks seeds) encoded where
  overflows := by
    intro number s code found overflows first
    obtain ⟨pulled, refused⟩ := emits.answers_of_overflows banks read found overflows first
    refine ⟨pulled, refused, fun later behind => ?_⟩
    exact congrArg Prod.fst (pull_of_done (behind_of_answer_error refused behind).2)
  fits := emits.exists_finish banks read
  full := by
    intro whole inside
    obtain ⟨program, finished, _, size⟩ := emits.exists_finish banks read
      fun number overflows => by
        obtain ⟨⟨s, code⟩, found, beyond | ⟨atEnd, labelled⟩⟩ := overflows
        · have upTo := Filling.offset_le_length encoded (number + 1)
          omega
        · have before := inside number s code found labelled
          omega
    exact ⟨program, finished, size.trans whole⟩

/-- Data that fill the bank, and a label behind them: the label is refused, though its
statement has no octets. -/
theorem fillsBank_of_emits_of_label_at_end :
    ∃ source encoded,
      source = "DATA \"" ++ String.ofList (List.replicate 256 'a') ++ "\"\nend: DATA" ∧
      Statement.ofSource source = ⟨encoded.map (·.1), none⟩ ∧
      Emits instructionSet [("start", 0)] encoded ∧
      FillsBank (start instructionSet source 1 [("start", 0)]) encoded ∧
      offset encoded encoded.length = bankSize ∧
      (start instructionSet source 1 [("start", 0)]).answer 1 =
        some (.error (.reported ⟨.bankOverflow "DATA" 0, ⟨2, 6⟩⟩)) := by
  let text := String.ofList (List.replicate 256 'a')
  let data : Statement := ⟨none, "DATA", ⟨1, 1⟩, [.token ⟨.string, text, ⟨1, 6⟩⟩]⟩
  let last : Statement := ⟨some ⟨"end", ⟨2, 1⟩⟩, "DATA", ⟨2, 6⟩, []⟩
  let encoded : List (Statement × List Octet) :=
    [(data, List.replicate 256 (.byte 97)), (last, [])]
  -- Rewritten to characters first: to decode the bytes of a text takes the kernel long.
  have characters : text.toList = List.replicate 256 'a' := String.toList_ofList
  have read : Statement.ofSource ("DATA \"" ++ text ++ "\"\nend: DATA") =
      ⟨encoded.map (·.1), none⟩ := by
    rw [Statement.ofSource, Token.ofSource, String.toList_append, String.toList_append, characters]
    decide +kernel
  have emits : Emits instructionSet [("start", 0)] encoded := {
    roles := by decide +kernel
    octets := by
      refine List.forall_mem_cons.mpr ⟨?_, by decide +kernel⟩
      rw [encode_of_data rfl, Datum.octetsAll, Datum.octets, characters]
      decide +kernel
    distinct := by decide
    unseeded := by decide }
  have fills := fillsBank_of_emits emits read 1
  have atEnd : Overflows encoded 1 := ⟨_, rfl, .inr ⟨by decide +kernel, rfl⟩⟩
  have first : ∀ earlier < 1, ¬Overflows encoded earlier := by
    rintro earlier less ⟨_, found, beyond | ⟨full, _⟩⟩
    all_goals
      obtain rfl : earlier = 0 := by omega
    · exact absurd beyond (by decide +kernel)
    · exact absurd full (by decide +kernel)
  exact ⟨_, encoded, rfl, read, emits, fills, by decide +kernel,
    (fills.overflows 1 last [] rfl atEnd first).2.1⟩

end Assembly

end BankAsm
