import BankAsm.Program.Resolve
import BankAsm.Proofs.Assembly.Pulls
import BankAsm.Proofs.Layout.Labels

/-!
# The labels of a program

Along a run the label table only grows, by one entry for each labelled statement
(`Pulls.grows`, `Pulls.names_eq`). So the table of a program that is finished is
that of the seeds with the labels of the source behind them, and a byte that was
read from the table on the way is the one that the name stands for in the end.
-/

namespace BankAsm

namespace Assembly

open Layout (Labels)
open LabelTable (Binds)

variable {table : EncodingTable} {source : String} {banks : Nat}
  {seeds : List (String × UInt8)} {start current last : Assembly} {placed : List Placed}

/-- Entries of seeds: every name where it came first, with the byte that came last. -/
structure Seeded (seeds entries : List (String × UInt8)) : Prop where
  names : entries.map (·.1) = (seeds.map (·.1)).eraseDups
  values : ∀ name, entries.lookup name = seeds.reverse.lookup name

/-- The labels of a program, given the entries of its seeds and those of its
statements. -/
structure LabelLaw (table : EncodingTable) (seeds : List (String × UInt8)) (program : Program)
    (seeded bound : List (String × UInt8)) : Prop where
  whole : program.labels.entries = seeded ++ bound
  seeds : Seeded seeds seeded
  /-- There is one entry for each labelled statement, in order. -/
  names : bound.map (·.1) = Statement.labelNames (program.placed.map (·.statement))
  distinct : program.labels.names.Nodup
  /-- The byte of a labelled statement follows from where it is placed, from its
  octets, and from the entries in front of its own. -/
  values : ∀ front next back label, program.placed = front ++ next :: back →
    next.statement.label = some label →
    ∃ earlier value later code, program.labels.entries = earlier ++ (label.name, value) :: later ∧
      earlier.map (·.1) =
        seeded.map (·.1) ++ Statement.labelNames (front.map (·.statement)) ∧
      table.encode next.statement = .ok code ∧ Labels earlier code next value

/-- A pull binds the label of its statement, if it has one, behind all others. -/
theorem binds_of_pull {after : Assembly} {next : Placed}
    (pulled : current.pull = (some (.ok next), after)) :
    ∃ value, Binds current.layout.labels next.statement.label value after.layout.labels := by
  obtain ⟨_, _, places⟩ := places_of_pull pulled
  obtain ⟨value, bound, _⟩ := places.binds
  exact ⟨value, bound⟩

/-- A run keeps all labels. -/
theorem Pulls.grows (run : Pulls start placed current) :
    start.layout.labels.Grows current.layout.labels := by
  induction run with
  | refl => exact List.prefix_rfl
  | step _ pulled inductionHypothesis =>
    obtain ⟨_, bound⟩ := binds_of_pull pulled
    exact inductionHypothesis.trans bound.grows

/-- A run adds the names of its statements behind all others. -/
theorem Pulls.names_eq (run : Pulls start placed current) :
    current.layout.labels.names =
      start.layout.labels.names ++ Statement.labelNames (placed.map (·.statement)) := by
  induction run with
  | refl => simp
  | step _ pulled inductionHypothesis =>
    obtain ⟨_, bound⟩ := binds_of_pull pulled
    rw [bound.names_eq, inductionHypothesis]
    simp

/-- A run keeps the names distinct. -/
theorem Pulls.names_nodup (run : Pulls start placed current)
    (distinct : start.layout.labels.names.Nodup) : current.layout.labels.names.Nodup := by
  induction run with
  | refl => exact distinct
  | step _ pulled inductionHypothesis =>
    obtain ⟨_, bound⟩ := binds_of_pull pulled
    exact bound.nodup inductionHypothesis

/-- The entry of a labelled statement in the table that a run leaves. -/
theorem Pulls.exists_entry {front back : List Placed} {next : Placed} {label : Label}
    (run : Pulls start (front ++ next :: back) last)
    (labelled : next.statement.label = some label) :
    ∃ earlier value later code,
      last.layout.labels.entries = earlier ++ (label.name, value) :: later ∧
      earlier.map (·.1) =
        start.layout.labels.names ++ Statement.labelNames (front.map (·.statement)) ∧
      start.table.encode next.statement = .ok code ∧ Labels earlier code next value := by
  obtain ⟨current, after, before, pulled, rest⟩ := run.exists_pull
  obtain ⟨code, encoded, places⟩ := places_of_pull pulled
  obtain ⟨value, bound, labels⟩ := places.binds
  obtain ⟨later, whole⟩ := rest.grows
  have added : after.layout.labels.entries =
      current.layout.labels.entries ++ [(label.name, value)] := by
    rw [bound.entries, labelled]
    rfl
  -- What stands in front of the entry is the table that the statement was placed with.
  refine ⟨current.layout.labels.entries, value, later, code, ?_, before.names_eq, ?_, ?_⟩
  · rw [← whole, added]
    simp
  · rw [← before.table_eq]
    exact encoded
  · exact labels (by simp [labelled])

/-- The labels of a program that is finished from the first statement on. -/
theorem labelLaw_of_finish {program : Program}
    (finished : (Assembly.start table source banks seeds).finish = .ok program) :
    ∃ bound, LabelLaw table seeds program (LabelTable.ofList seeds).entries bound := by
  obtain ⟨last, run, _, labels_eq, _⟩ := pulls_of_finish finished
  obtain ⟨bound, whole⟩ := run.grows
  have names_eq := run.names_eq
  have seedNames : (LabelTable.ofList seeds).names = (seeds.map (·.1)).eraseDups :=
    LabelTable.names_ofList seeds
  refine ⟨bound, ?_⟩
  exact {
    whole := by
      rw [labels_eq, ← whole]
      rfl
    seeds := ⟨seedNames, LabelTable.find?_ofList seeds⟩
    names := by
      unfold LabelTable.names at names_eq
      rw [← whole, List.map_append] at names_eq
      exact List.append_cancel_left names_eq
    distinct := by
      rw [labels_eq]
      refine run.names_nodup ?_
      rw [show (Assembly.start table source banks seeds).layout.labels.names = _ from seedNames]
      exact LabelTable.nodup_eraseDups _
    values := by
      intro front next back label split labelled
      rw [split] at run
      rw [labels_eq]
      exact run.exists_entry labelled }

/-- A program that is finished has every statement of its source, and the source is
read to its end. -/
theorem source_eq_of_finish {program : Program}
    (finished : (Assembly.start table source banks seeds).finish = .ok program) :
    Statement.ofSource source = ⟨program.placed.map (·.statement), none⟩ := by
  obtain ⟨last, run, ended, _, _⟩ := pulls_of_finish finished
  have pending := run.pending_eq
  simp only [ended, Feed.done, List.append_nil] at pending
  exact pending

/-- A label that an assignment or a relocation reads on the way to a program stands
for the same byte in the program. -/
theorem resolve_eq_of_reads {program : Program} {after : Assembly} {next : Placed}
    {code : List Octet} {name : String} {position : Position}
    (finished : current.finish = .ok program)
    (pulled : current.pull = (some (.ok next), after))
    (role : next.statement.role ≠ .emit)
    (encoded : current.table.encode next.statement = .ok code)
    (member : .label name position ∈ code) :
    ∃ value, current.layout.constant (.label name position) = .ok value ∧
      ∀ index reference, program.resolve index (.label name reference) = .ok value := by
  obtain ⟨spelled, encodedHere, places⟩ := places_of_pull pulled
  obtain rfl : spelled = code := Except.ok.inj (encodedHere.symm.trans encoded)
  obtain ⟨value, known⟩ := places.reads role member
  refine ⟨value, known, ?_⟩
  intro index reference
  obtain ⟨last, run, _, labels_eq, _⟩ := pulls_of_finish finished
  have found : current.layout.labels.find? name = some value := by
    obtain equal | ⟨_, _, equal, found⟩ := Layout.constant_cases known
    · cases equal
    · cases equal
      exact found
  -- The directive may stand in front of labels that are bound later: they come behind.
  have kept : program.labels.find? name = some value := by
    rw [labels_eq]
    exact run.grows.find?_eq found
  simp [Program.resolve, kept]

/-- The labels of any program. They are the seeds, each name once and with its last
byte, and behind them one entry for each labelled statement of the source, in order,
with its address or with what it assigns. All names are distinct, so no source that
binds a name twice has a program. And whatever a directive reads of the labels on
the way, wherever it stands, is what a reference to the same name gives in the end. -/
theorem labels_of_finish {program : Program}
    (finished : (Assembly.start table source banks seeds).finish = .ok program) :
    Statement.ofSource source = ⟨program.placed.map (·.statement), none⟩ ∧
      (∃ seeded bound, LabelLaw table seeds program seeded bound) ∧
      ((seeds.map (·.1)).eraseDups
        ++ Statement.labelNames (Statement.ofSource source).items).Nodup ∧
      ∀ placed current next after code name position,
        Pulls (Assembly.start table source banks seeds) placed current →
        current.pull = (some (.ok next), after) → next.statement.role ≠ .emit →
        table.encode next.statement = .ok code → .label name position ∈ code →
        ∃ value, current.layout.constant (.label name position) = .ok value ∧
          ∀ index reference, program.resolve index (.label name reference) = .ok value := by
  have whole := source_eq_of_finish finished
  obtain ⟨bound, law⟩ := labelLaw_of_finish finished
  refine ⟨whole, ⟨_, bound, law⟩, ?_, ?_⟩
  · have distinct := law.distinct
    unfold LabelTable.names at distinct
    rw [law.whole, List.map_append, law.names, law.seeds.names] at distinct
    rw [whole]
    exact distinct
  · intro placed current next after code name position run pulled role encoded member
    obtain ⟨remaining, finishedHere, rest⟩ :=
      Outcome.map_eq_ok_iff.mp (run.finish_eq.symm.trans finished)
    have encodedHere : current.table.encode next.statement = .ok code := by
      rw [run.table_eq]
      exact encoded
    obtain ⟨value, known, resolved⟩ :=
      resolve_eq_of_reads finishedHere pulled role encodedHere member
    refine ⟨value, known, ?_⟩
    intro index reference
    rw [← rest]
    exact resolved index reference

/-- A seed that is given twice and is the bank of a relocation, a label of the
relocation, and an assignment of that label. -/
theorem labels_of_finish_of_seeds :
    ∃ program,
      (Assembly.start instructionSet
        "jump here\nhere: LOCATE base [#10]\nsame: ASSIGN here\nDATA same" 1
        [("base", 7), ("base", 0)]).finish = .ok program ∧
      program.labels.entries = [("base", 0), ("here", 0x10), ("same", 0x10)] ∧
      ∃ seeded bound,
        LabelLaw instructionSet [("base", 7), ("base", 0)] program seeded bound := by
  obtain ⟨program, finished, entries⟩ :=
    Outcome.exists_of_toOption_map
      (Assembly.start instructionSet
        "jump here\nhere: LOCATE base [#10]\nsame: ASSIGN here\nDATA same" 1
        [("base", 7), ("base", 0)]).finish
      (fun program => program.labels.entries)
      [("base", 0), ("here", 0x10), ("same", 0x10)] (by decide +kernel)
  exact ⟨program, finished, entries, (labels_of_finish finished).2.1⟩

end Assembly

end BankAsm
