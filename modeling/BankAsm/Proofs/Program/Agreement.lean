import BankAsm.Proofs.Assembly.Bounds

/-!
# Flat bytes and bank images agree

The flat bytes and the bank images of a program are two readings of its cells.
`Program.Agrees` says how they hang together: both resolve the cells in order, so
they meet the same failures, and where the images exist they hold the flat bytes.
Every program that an assembly finishes agrees in this sense.
-/

namespace BankAsm

section Answers

variable {ε α : Type} {feed : Feed ε α} {answers behind : List (Except ε α)}

/-- Without an error nothing is cut off. -/
theorem throughFirstError_eq_self (values : ∀ answer ∈ answers, ∃ value, answer = .ok value) :
    throughFirstError answers = answers := by
  induction answers with
  | nil => rfl
  | cons answer rest inductionHypothesis =>
    obtain ⟨value, rfl⟩ := values answer List.mem_cons_self
    rw [throughFirstError, inductionHypothesis fun other member =>
      values other (List.mem_cons_of_mem _ member)]

/-- What stands behind the first error is cut off. -/
theorem throughFirstError_append_error
    (values : ∀ answer ∈ answers, ∃ value, answer = .ok value) (e : ε) :
    throughFirstError (answers ++ .error e :: behind) = answers ++ [.error e] := by
  induction answers with
  | nil => rfl
  | cons answer rest inductionHypothesis =>
    obtain ⟨value, rfl⟩ := values answer List.mem_cons_self
    rw [List.cons_append, throughFirstError, inductionHypothesis fun other member =>
      values other (List.mem_cons_of_mem _ member)]
    rfl

/-- If no error is left, none was cut off. -/
theorem eq_of_throughFirstError {values : List α}
    (same : throughFirstError answers = values.map .ok) : answers = values.map .ok := by
  induction answers generalizing values with
  | nil => exact same
  | cons answer rest inductionHypothesis =>
    cases answer with
    | error e =>
      have member : Except.error e ∈ values.map (Except.ok (ε := ε)) := by
        rw [← same]
        exact List.mem_singleton_self _
      simp at member
    | ok value =>
      cases values with
      | nil => cases same
      | cons first others =>
        obtain ⟨sameValue, sameRest⟩ := List.cons.inj same
        rw [inductionHypothesis sameRest, sameValue]
        rfl

/-- A feed that is over has values for answers. -/
theorem Feed.answers_of_failure_eq_none (unbroken : feed.failure = none) :
    feed.answers = feed.items.map .ok := by
  simp [Feed.answers, unbroken]

/-- A feed is read back from its answers. -/
theorem Feed.ofResults_answers (feed : Feed ε α) :
    Feed.ofResults (fun answer : Except ε α => answer.map some) feed.answers = feed := by
  obtain ⟨items, failure⟩ := feed
  induction items with
  | nil => cases failure <;> rfl
  | cons first rest inductionHypothesis => exact congrArg (Feed.cons first) inductionHypothesis

/-- Feeds with the same answers are the same. -/
theorem Feed.eq_of_answers_eq {other : Feed ε α} (same : feed.answers = other.answers) :
    feed = other := by
  rw [← Feed.ofResults_answers feed, same, Feed.ofResults_answers]

/-- A feed with nothing but values for answers consists of them. -/
theorem Feed.eq_of_answers {values : List α} (same : feed.answers = values.map .ok) :
    feed = ⟨values, none⟩ := by
  apply Feed.eq_of_answers_eq
  rw [same, Feed.answers_of_failure_eq_none rfl]

/-- A feed whose answers end in an error breaks off with it. -/
theorem Feed.failure_of_answers {e : ε} (ends : feed.answers = answers ++ [.error e]) :
    feed.failure = some e := by
  cases broken : feed.failure with
  | none =>
    rw [Feed.answers_of_failure_eq_none broken] at ends
    have member : Except.error e ∈ feed.items.map (Except.ok (ε := ε)) := by simp [ends]
    simp at member
  | some other =>
    have last : feed.items.map Except.ok ++ [Except.error other] = answers ++ [.error e] := by
      simpa [Feed.answers, broken] using ends
    have equal := (List.append_singleton_inj.mp last).2
    rw [Except.error.inj equal]

end Answers

/-- The octets of a statement, each with its place. -/
def Placed.row (placed : Placed) : List (Place × Octet) :=
  placed.code.zipIdx.map fun (octet, offset) => (⟨placed.bank, placed.address + offset⟩, octet)

/-- The byte of images at a place. -/
def byteAt (images : List (List UInt8)) (place : Place) : Option UInt8 :=
  images[place.bank]?.bind fun image => image[place.address]?

namespace Program

/-- The octets of the cells, and their places, are those of the statements in order. -/
theorem map_cells (program : Program) :
    program.cells.map (fun cell => (cell.place, cell.octet)) = program.placed.flatMap (·.row) := by
  have rows : ∀ (placed : List Placed) (index : Nat),
      (cellsFrom index 0 placed).map (fun cell => (cell.place, cell.octet)) =
        placed.flatMap (·.row) := by
    intro placed
    induction placed with
    | nil => intro index; rfl
    | cons first rest inductionHypothesis =>
      intro index
      rw [cellsFrom, List.drop_zero, List.map_append, inductionHypothesis, List.flatMap_cons]
      congr 1
      simp [Placed.cells, Placed.row, Cell.place, Function.comp_def]
  rw [Program.cells, flatMap_zipIdx_cells, rows]

/-- The octets of the cells are those of the statements in order. -/
theorem map_octet_cells (program : Program) :
    program.cells.map (·.octet) = program.placed.flatMap (·.code) := by
  have octets (placed : Placed) : placed.row.map (·.2) = placed.code := by
    simp [Placed.row, Function.comp_def]
  have rows := congrArg (List.map (·.2)) program.map_cells
  simpa only [List.map_map, Function.comp_def, List.map_flatMap, octets] using rows

/-- There are as many cells as the program has bytes. -/
theorem length_cells (program : Program) : program.cells.length = program.size := by
  rw [Program.size, ← map_octet_cells, List.length_map]

/-- The flat bytes answer for the cells in order, up to the first failure. -/
theorem answers_flat (program : Program) :
    program.flat.answers = throughFirstError (program.answers program.cells) := by
  rw [Program.flat, ByteStream.answers_drain, ByteStream.cells_start]
  rfl

/-- The flat bytes are values without a failure exactly if these are what the cells answer. -/
theorem flat_eq_iff {program : Program} {values : List UInt8} :
    program.flat = ⟨values, none⟩ ↔ program.answers program.cells = values.map .ok := by
  constructor
  · intro whole
    have answers := program.answers_flat
    rw [Feed.answers_of_failure_eq_none (congrArg Feed.failure whole), whole] at answers
    exact eq_of_throughFirstError answers.symm
  · intro whole
    apply Feed.eq_of_answers
    rw [answers_flat, whole, throughFirstError_eq_self]
    simp

/-- Images beside flat bytes: there is one image for each bank, the place of every
cell holds the byte that the flat bytes have for it, and all other places hold the
fill byte. -/
structure Depicts (program : Program) (fill : UInt8) (images : List (List UInt8)) : Prop where
  count : images.length = program.banks
  sizes : ∀ image ∈ images, image.length = bankSize
  filled : ∀ (number : Nat) (cell : Cell), program.cells[number]? = some cell →
    ∃ value, program.flat.items[number]? = some value ∧ byteAt images cell.place = some value
  blank : ∀ place : Place, place.bank < program.banks → place.address < bankSize →
    (∀ cell ∈ program.cells, cell.place ≠ place) → byteAt images place = some fill

/-- How the flat bytes and the images of a program hang together. -/
structure Agrees (program : Program) (fill : UInt8) : Prop where
  /-- A byte stream answers for the cells in order up to the first failure, and then
  nothing for ever. -/
  answer_eq : ∀ count, (ByteStream.start program).answer count =
    (throughFirstError (program.answers program.cells))[count]?
  /-- The flat bytes are the answers of the stream. -/
  flat_eq : program.flat.answers = throughFirstError (program.answers program.cells)
  /-- Flat bytes without a failure are as many as the program has. -/
  size_eq : program.flat.failure = none → program.flat.items.length = program.size
  /-- There are images if every cell has a byte and a place of its own, and only then. -/
  images_iff : (∃ images, program.images fill = .ok images) ↔ program.Writable program.cells
  depicts : ∀ images, program.images fill = .ok images → program.Depicts fill images
  /-- Otherwise the first cell that stops the writing decides the failure. -/
  failure_iff : ∀ failure, program.images fill = .error failure ↔
    ∃ earlier cell later, program.cells = earlier ++ cell :: later ∧
      program.Writable earlier ∧ program.Stops earlier cell failure
  /-- If that cell has no byte, the flat bytes break off with the same failure. -/
  same_failure : ∀ earlier cell later failure, program.cells = earlier ++ cell :: later →
    program.Writable earlier → program.resolveCell cell = .error failure →
    program.flat.failure = some failure

/-- Cells that all have a byte make up all of the flat bytes. -/
theorem items_flat {program : Program} (writable : program.Writable program.cells) :
    program.flat.items.map .ok = program.answers program.cells := by
  have values : ∀ answer ∈ program.answers program.cells, ∃ value, answer = .ok value := by
    intro answer member
    obtain ⟨cell, cellMember, rfl⟩ := List.mem_map.mp member
    exact writable.resolves cell cellMember
  have whole := program.answers_flat
  rw [throughFirstError_eq_self values] at whole
  cases broken : program.flat.failure with
  | none => rw [← whole, Feed.answers_of_failure_eq_none broken]
  | some failure =>
    have member : Except.error failure ∈ program.answers program.cells := by
      rw [← whole]
      simp [Feed.answers, broken]
    obtain ⟨value, equal⟩ := values _ member
    cases equal

/-- The images of a program depict its flat bytes. -/
theorem depicts_of_images {program : Program} {fill : UInt8} {images : List (List UInt8)}
    (inside : CellsInside program.banks program.cells)
    (shown : program.images fill = .ok images) : program.Depicts fill images := by
  obtain ⟨memory, wrote, rfl⟩ := Outcome.map_eq_ok_iff.mp shown
  rcases writeAll_outcome (Memory.holds_blank program program.banks) ⟨by simp, by simp⟩ inside with
    ⟨final, wroteToo, holds, writable⟩ | ⟨_, _, _, failure, _, failed, _⟩
  · rw [wrote] at wroteToo
    cases wroteToo
    rw [List.nil_append] at holds writable
    refine ⟨by simpa [Memory.fill] using holds.shape.length_eq, ?_, ?_, ?_⟩
    · intro image member
      obtain ⟨cells, cellsMember, rfl⟩ := List.mem_map.mp member
      simpa using holds.shape.sizes cells cellsMember
    · intro number cell numbered
      obtain ⟨value, resolved, stands⟩ := holds.filled cell (List.mem_of_getElem? numbered)
      refine ⟨value, ?_, ?_⟩
      · have answered : (program.flat.items.map Except.ok)[number]? =
            some (Except.ok (ε := Failure) value) := by
          rw [items_flat writable, answers, List.getElem?_map, numbered]
          exact congrArg some resolved
        simpa using answered
      · rw [byteAt, Memory.getElem?_fill, stands]
        rfl
    · intro place bankInside addressInside absent
      have nothing : place ∉ program.cells.map Cell.place := by
        intro member
        obtain ⟨cell, cellMember, same⟩ := List.mem_map.mp member
        exact absent cell cellMember same
      rw [byteAt, Memory.getElem?_fill, holds.blank place bankInside addressInside nothing]
      rfl
  · rw [wrote] at failed
    cases failed

/-- A program whose cells lie inside its banks has flat bytes and images that agree. -/
theorem agrees_of_cellsInside {program : Program}
    (inside : CellsInside program.banks program.cells) (fill : UInt8) : program.Agrees fill where
  answer_eq count := by
    rw [ByteStream.answer_eq, ByteStream.cells_start]
    rfl
  flat_eq := program.answers_flat
  size_eq unbroken := by
    have whole := program.answers_flat
    rw [Feed.answers_of_failure_eq_none unbroken] at whole
    have equal := congrArg List.length (eq_of_throughFirstError whole.symm)
    rw [answers, List.length_map, List.length_map, length_cells] at equal
    exact equal.symm
  images_iff := by
    rw [← writeAll_blank_isOk_iff inside]
    constructor
    · rintro ⟨images, shown⟩
      obtain ⟨memory, wrote, _⟩ := Outcome.map_eq_ok_iff.mp shown
      exact ⟨memory, wrote⟩
    · rintro ⟨memory, wrote⟩
      exact ⟨memory.fill fill, Outcome.map_eq_ok_iff.mpr ⟨memory, wrote, rfl⟩⟩
  depicts images shown := depicts_of_images inside shown
  failure_iff failure := by
    rw [images, Outcome.map_eq_error_iff]
    exact writeAll_blank_eq_error_iff inside
  same_failure earlier cell later failure split writable failed := by
    have values : ∀ answer ∈ program.answers earlier, ∃ value, answer = .ok value := by
      intro answer member
      obtain ⟨other, otherMember, rfl⟩ := List.mem_map.mp member
      exact writable.resolves other otherMember
    have parts : program.answers program.cells =
        program.answers earlier ++ .error failure :: program.answers later := by
      simp [answers, split, failed]
    have whole := program.answers_flat
    rw [parts, throughFirstError_append_error values] at whole
    exact Feed.failure_of_answers whole

end Program

/-- The flat bytes and the images of every program that is finished, from any source
and by any table, agree for every fill byte. -/
theorem flat_agrees_with_images {table : EncodingTable} {source : String} {banks : Nat}
    {seeds : List (String × UInt8)} {program : Program}
    (finished : (Assembly.start table source banks seeds).finish = .ok program) (fill : UInt8) :
    program.Agrees fill :=
  Program.agrees_of_cellsInside
    (Assembly.cellsInside_of_finish (Layout.inBank_start banks seeds) finished) fill

/-- Two statements that overlap: there are no images, and so the cells are not
writable. -/
theorem flat_agrees_with_images_of_overlap :
    ∃ program,
      (Assembly.start instructionSet "load 1\nLOCATE [1]\nhalt" 1 []).finish = .ok program ∧
      program.images 0xFF = .error (.reported ⟨.overlap "halt" 0 1, ⟨3, 1⟩⟩) ∧
      program.Agrees 0xFF := by
  obtain ⟨program, finished, failed⟩ :=
    Outcome.exists_of_toOption_map
      (Assembly.start instructionSet "load 1\nLOCATE [1]\nhalt" 1 []).finish
      (fun program => program.images 0xFF)
      (.error (.reported ⟨.overlap "halt" 0 1, ⟨3, 1⟩⟩)) (by decide +kernel)
  exact ⟨program, finished, failed, flat_agrees_with_images finished 0xFF⟩

end BankAsm
