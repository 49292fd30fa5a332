import BankAsm.Proofs.Rewording.Program

/-!
# Names of labels and positions do not matter

Two sources whose statements are the same, up to where they stand and to what labels are
called, are assembled in step: statement by statement at the same places, up to the same
failure, to the same bytes (`renames_of_statements`). Both are the same assembly in other
words, which is why no stage can tell them apart.
-/

namespace BankAsm

open Rewording (bare unplaced)

/-- A statement at the place of another one, and the same in other words. -/
structure Placed.Renames (w : Rewording) (first second : Placed) : Prop where
  statement : bare.statement second.statement = w.statement first.statement
  bank : second.bank = first.bank
  address : second.address = first.address
  code : second.code.map bare.octet = first.code.map w.octet

/-- A program with the statements and the labels of another one in other words, and with the
same bytes, or as many up to a failure of the same kind. -/
structure Program.Renames (w : Rewording) (first second : Program) : Prop where
  placed : List.Forall₂ (Placed.Renames w) first.placed second.placed
  labels : second.labels.entries = w.entries first.labels.entries
  banks : second.banks = first.banks
  flat : first.flat.Related Failure.SameKind second.flat
  images : ∀ fill, Outcome.Related Eq Failure.SameKind (first.images fill) (second.images fill)

/-- An assembly in step with another one: every pull gives the same statement in other
words, or a failure of the same kind, or nothing in both. -/
structure Assembly.Renames (w : Rewording) (first second : Assembly) : Prop where
  answers : ∀ count, Option.Rel (Outcome.Related (Placed.Renames w) Failure.SameKind)
    (first.answer count) (second.answer count)
  layouts : ∀ count, (second.behind count).layout = w.layout (first.behind count).layout
  finish : Outcome.Related (Program.Renames w) Failure.SameKind first.finish second.finish

section Words

variable {w : Rewording}

/-- Statements that are the same in other words stand at the same place. -/
theorem Placed.renames_of_placed_eq {first second : Placed}
    (same : w.placed first = bare.placed second) : Placed.Renames w first second := by
  obtain ⟨statement, bank, address, code⟩ := Placed.mk.inj same
  exact ⟨statement.symm, bank.symm, address.symm, code.symm⟩

/-- Programs that are the same in other words have the same bytes. -/
theorem Program.renames_of_program_eq {first second : Program}
    (same : w.program first = bare.program second) : Program.Renames w first second := by
  obtain ⟨placed, labels, banks⟩ := Program.mk.inj same
  have mirrors := Rewording.mirrors_of_program_eq same
  rw [← List.forall₂_eq_eq_eq, List.forall₂_map_left_iff, List.forall₂_map_right_iff] at placed
  exact {
    placed := placed.imp fun _ _ => Placed.renames_of_placed_eq
    labels := by
      have entries := congrArg LabelTable.entries labels
      simpa [Rewording.table, Rewording.entries, bare, unplaced] using entries.symm
    banks := banks.symm
    flat := mirrors.flat
    images := mirrors.images }

/-- Assemblies that are the same in other words are in step. -/
theorem Assembly.renames_of_assembly_eq {first second : Assembly}
    (language : first.table = instructionSet) (languageToo : second.table = instructionSet)
    (same : w.assembly first = bare.assembly second) : Assembly.Renames w first second where
  answers count := by
    have here := w.answer_assembly language count
    rw [same, bare.answer_assembly languageToo] at here
    cases answer : first.answer count with
    | none =>
      obtain nothing : second.answer count = none := by simpa [answer] using here
      rw [nothing]
      exact .none
    | some outcome =>
      obtain ⟨outcomeToo, answerToo, sameOutcome⟩ := Option.map_eq_some_iff.mp (answer ▸ here)
      rw [answerToo]
      exact .some ((Rewording.related_of_change_eq sameOutcome.symm).mono
        (fun _ _ => Placed.renames_of_placed_eq) fun _ _ kind => kind)
  layouts count := by
    have here := (w.behind_assembly language count).1
    rw [same, (bare.behind_assembly languageToo count).1] at here
    have layouts := congrArg Assembly.layout here
    simpa [Rewording.assembly, bare.layout_of_name_eq_id rfl] using layouts
  finish := by
    have here := w.finish_assembly language
    rw [same, bare.finish_assembly languageToo] at here
    exact (Rewording.related_of_change_eq here.symm).mono
      (fun _ _ => Program.renames_of_program_eq) fun _ _ kind => kind

end Words

namespace Assembly

/-- Positions and the names of labels have no say in what is assembled. Take two sources
that are read to the end, and statements of which are the same when positions are left out
and the labels and references of the first one are called by other names, no two of them the
same. With seeds of the other names, both are assembled in step. -/
theorem renames_of_statements {name : String → String} (injective : Function.Injective name)
    {source renamed : String} {items others : List Statement}
    (read : Statement.ofSource source = ⟨items, none⟩)
    (readToo : Statement.ofSource renamed = ⟨others, none⟩)
    (same : others.map bare.statement = items.map (unplaced name injective).statement)
    (banks : Nat) (seeds : List (String × UInt8)) :
    Renames (unplaced name injective) (start instructionSet source banks seeds)
      (start instructionSet renamed banks (seeds.map fun seed => (name seed.1, seed.2))) := by
  refine renames_of_assembly_eq rfl rfl ?_
  have layouts := (unplaced name injective).start_entries banks seeds
  simp only [Rewording.assembly, start, read, readToo, bare.layout_of_name_eq_id rfl,
    Rewording.statements, Feed.change, same, Option.map_none, ← layouts]
  rfl

/-- Names with the same behind them are different if the names are. -/
theorem append_injective (suffix : String) :
    Function.Injective fun name : String => name ++ suffix := fun _ _ same =>
  (String.append_left_inj suffix).mp same

/-- A seed, a label on another line, and a reference that is never assigned. -/
theorem renames_of_statements_of_undefined :
    Renames (unplaced _ (append_injective "2"))
      (start instructionSet "top: load base\njump top\nDATA end" 1 [("base", 7)])
      (start instructionSet "\ntop2: load base2, jump top2\nDATA end2" 1 [("base2", 7)]) := by
  have read : ∀ source ∈ ["top: load base\njump top\nDATA end",
      "\ntop2: load base2, jump top2\nDATA end2"],
      Statement.ofSource source = ⟨(Statement.ofSource source).items, none⟩ := by
    decide +kernel
  have same : (Statement.ofSource "\ntop2: load base2, jump top2\nDATA end2").items.map
      bare.statement = (Statement.ofSource "top: load base\njump top\nDATA end").items.map
        (unplaced _ (append_injective "2")).statement := by
    decide +kernel
  exact renames_of_statements (append_injective "2") (read _ (by simp)) (read _ (by simp)) same 1
    [("base", 7)]

end Assembly

end BankAsm
