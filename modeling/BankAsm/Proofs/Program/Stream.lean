import BankAsm.Program.Stream

/-!
# What a byte stream gives

The cells that a stream has not given yet are its only view: each pull takes the
first of them (`pull_of_cells_eq_cons`), so the answers of a stream are the bytes of
its cells up to the first failure, and none behind it (`answer_eq`). Draining the
stream gives the same answers (`answers_drain`).
-/

namespace BankAsm

/-- Answers in order, up to the first failure with the failure itself. -/
def throughFirstError {ε α : Type} : List (Except ε α) → List (Except ε α)
  | [] => []
  | .ok value :: rest => .ok value :: throughFirstError rest
  | .error e :: _ => [.error e]

/-- Cutting answers off makes no new ones. -/
theorem mem_of_mem_throughFirstError {ε α : Type} {answers : List (Except ε α)}
    {answer : Except ε α} (member : answer ∈ throughFirstError answers) : answer ∈ answers := by
  induction answers with
  | nil => exact member
  | cons first rest inductionHypothesis =>
    cases first with
    | ok value =>
      rcases List.mem_cons.mp member with rfl | later
      · exact List.mem_cons_self
      · exact List.mem_cons_of_mem _ (inductionHypothesis later)
    | error e =>
      rw [List.mem_singleton.mp member]
      exact List.mem_cons_self

/-- The items of a feed as answers, and the failure as the last one. -/
def Feed.answers {ε α : Type} (feed : Feed ε α) : List (Except ε α) :=
  feed.items.map .ok ++ feed.failure.toList.map .error

namespace Program

/-- The byte of a cell. -/
def resolveCell (program : Program) (cell : Cell) : Except Failure UInt8 :=
  program.resolve cell.index cell.octet

/-- The bytes of cells in order, or the failures in their place. -/
def answers (program : Program) (cells : List Cell) : List (Except Failure UInt8) :=
  cells.map program.resolveCell

end Program

/-- The cells of statements numbered from `index` on, of which the first has given so
many octets already. -/
def cellsFrom (index offset : Nat) : List Placed → List Cell
  | [] => []
  | placed :: rest => (placed.cells index).drop offset ++ cellsFrom (index + 1) 0 rest

/-- The cells of numbered statements, one statement after the other. -/
theorem flatMap_zipIdx_cells (placed : List Placed) (index : Nat) :
    ((placed.zipIdx index).flatMap fun (entry, number) => entry.cells number) =
      cellsFrom index 0 placed := by
  induction placed generalizing index with
  | nil => rfl
  | cons first rest inductionHypothesis =>
    simp only [List.zipIdx_cons, List.flatMap_cons, cellsFrom, List.drop_zero,
      inductionHypothesis]

/-- The cells of statements behind others. -/
theorem cellsFrom_append (index : Nat) (front back : List Placed) :
    cellsFrom index 0 (front ++ back) =
      cellsFrom index 0 front ++ cellsFrom (index + front.length) 0 back := by
  rw [← flatMap_zipIdx_cells, List.zipIdx_append, List.flatMap_append, flatMap_zipIdx_cells,
    flatMap_zipIdx_cells]

/-- The cells of a statement from one of its octets on. -/
theorem Placed.drop_cells {placed : Placed} {offset : Nat} {octet : Octet} (index : Nat)
    (here : placed.code[offset]? = some octet) :
    (placed.cells index).drop offset =
      ⟨index, placed, placed.address + offset, octet⟩ :: (placed.cells index).drop (offset + 1) := by
  obtain ⟨inside, equal⟩ := List.getElem?_eq_some_iff.mp here
  have bound : offset < (placed.cells index).length := by simpa [Placed.cells] using inside
  rw [List.drop_eq_getElem_cons bound]
  simp [Placed.cells, equal]

namespace ByteStream

/-- Statements without an octet to find have no cells left. -/
theorem cellsFrom_of_seek_eq_none {index offset : Nat} {placed : List Placed}
    (absent : seek index offset placed = none) : cellsFrom index offset placed = [] := by
  induction placed generalizing index offset with
  | nil => rfl
  | cons first rest inductionHypothesis =>
    unfold seek at absent
    split at absent
    case h_1 => cases absent
    case h_2 exhausted =>
      have beyond : first.code.length ≤ offset := List.getElem?_eq_none_iff.mp exhausted
      have nothing : (first.cells index).drop offset = [] := by
        simpa [Placed.cells] using beyond
      rw [cellsFrom, nothing, inductionHypothesis absent]
      rfl

/-- The octet that is found is that of the first cell that is left. -/
theorem cellsFrom_of_seek {index offset : Nat} {placed : List Placed} {found : NumberedOctet}
    (sought : seek index offset placed = some found) :
    ∃ cell, cell.index = found.index ∧ cell.octet = found.octet ∧
      cellsFrom index offset placed =
        cell :: cellsFrom found.index (found.offset + 1) (placed.drop (found.index - index)) := by
  induction placed generalizing index offset with
  | nil => cases sought
  | cons first rest inductionHypothesis =>
    have whole := sought
    unfold seek at sought
    split at sought
    case h_1 octet here =>
      cases sought
      refine ⟨⟨index, first, first.address + offset, octet⟩, rfl, rfl, ?_⟩
      rw [cellsFrom, Placed.drop_cells index here]
      simp [cellsFrom]
    case h_2 exhausted =>
      have beyond : first.code.length ≤ offset := List.getElem?_eq_none_iff.mp exhausted
      have nothing : (first.cells index).drop offset = [] := by
        simpa [Placed.cells] using beyond
      obtain ⟨cell, sameIndex, sameOctet, others⟩ := inductionHypothesis sought
      refine ⟨cell, sameIndex, sameOctet, ?_⟩
      have later : index + 1 ≤ found.index := by
        have advanced := (seek_advances sought).2
        omega
      have shift : found.index - index = (found.index - (index + 1)) + 1 := by omega
      rw [cellsFrom, nothing, others, shift]
      simp

/-- The cells that the stream has not given yet. -/
def cells (stream : ByteStream) : List Cell :=
  if stream.isOver then []
  else cellsFrom stream.index stream.offset (stream.program.placed.drop stream.index)

/-- A stream from the start has all cells of its program before it. -/
theorem cells_start (program : Program) : (start program).cells = program.cells := by
  simp [cells, start, Program.cells, flatMap_zipIdx_cells]

/-- A stream with no cells left gives nothing, now and later. -/
theorem pull_of_cells_eq_nil {stream : ByteStream} (nothing : stream.cells = []) :
    stream.pull.1 = none ∧ stream.pull.2.cells = [] := by
  by_cases ended : stream.isOver
  · simpa [pull, ended] using nothing
  · have left : cellsFrom stream.index stream.offset
        (stream.program.placed.drop stream.index) = [] := by
      simpa [cells, ended] using nothing
    cases sought : seek stream.index stream.offset (stream.program.placed.drop stream.index) with
    | none => simp [pull, ended, sought, cells]
    | some found =>
      obtain ⟨cell, _, _, others⟩ := cellsFrom_of_seek sought
      rw [left] at others
      cases others

/-- A stream gives the first cell that is left. Behind a failure none is left. -/
theorem pull_of_cells_eq_cons {stream : ByteStream} {cell : Cell} {others : List Cell}
    (left : stream.cells = cell :: others) :
    stream.pull.1 = some (stream.program.resolveCell cell) ∧
      stream.pull.2.program = stream.program ∧
      stream.pull.2.cells =
        match stream.program.resolveCell cell with
        | .ok _ => others
        | .error _ => [] := by
  by_cases ended : stream.isOver
  · simp [cells, ended] at left
  · simp only [cells, ended, Bool.false_eq_true, if_false] at left
    cases sought : seek stream.index stream.offset (stream.program.placed.drop stream.index) with
    | none =>
      rw [cellsFrom_of_seek_eq_none sought] at left
      cases left
    | some found =>
      obtain ⟨first, sameIndex, sameOctet, remaining⟩ := cellsFrom_of_seek sought
      have further : stream.index ≤ found.index := by
        have advanced := (seek_advances sought).2
        omega
      have behind : stream.index + (found.index - stream.index) = found.index := by omega
      rw [left, List.drop_drop, behind] at remaining
      obtain ⟨rfl, rest⟩ := List.cons.inj remaining
      cases resolved : stream.program.resolve found.index found.octet with
      | ok value =>
        simp [pull, ended, sought, resolved, Program.resolveCell, sameIndex, sameOctet, cells, rest]
      | error failure =>
        simp [pull, ended, sought, resolved, Program.resolveCell, sameIndex, sameOctet, cells]

/-- The answer to a pull behind so many others. -/
def answer (stream : ByteStream) : Nat → Option (Except Failure UInt8)
  | 0 => stream.pull.1
  | count + 1 => stream.pull.2.answer count

/-- Nothing is ever answered when no cells are left. -/
theorem answer_of_cells_eq_nil {stream : ByteStream} (nothing : stream.cells = [])
    (count : Nat) : stream.answer count = none := by
  induction count generalizing stream with
  | zero => exact (pull_of_cells_eq_nil nothing).1
  | succ count inductionHypothesis =>
    exact inductionHypothesis (pull_of_cells_eq_nil nothing).2

/-- The answers of a stream are the bytes of its cells in order, up to the first
failure, and none for ever behind them. -/
theorem answer_eq (stream : ByteStream) (count : Nat) :
    stream.answer count = (throughFirstError (stream.program.answers stream.cells))[count]? := by
  induction count generalizing stream with
  | zero =>
    cases left : stream.cells with
    | nil => exact (pull_of_cells_eq_nil left).1
    | cons cell others =>
      rw [answer, (pull_of_cells_eq_cons left).1]
      cases resolved : stream.program.resolveCell cell <;>
        simp [Program.answers, resolved, throughFirstError]
  | succ count inductionHypothesis =>
    cases left : stream.cells with
    | nil => exact answer_of_cells_eq_nil left (count + 1)
    | cons cell others =>
      obtain ⟨_, same, rest⟩ := pull_of_cells_eq_cons left
      rw [answer, inductionHypothesis, same, rest]
      cases resolved : stream.program.resolveCell cell <;>
        simp [Program.answers, resolved, throughFirstError]

/-- Draining a stream gives the bytes of its cells up to the first failure. -/
theorem answers_drain (stream : ByteStream) :
    stream.drain.answers = throughFirstError (stream.program.answers stream.cells) := by
  fun_induction drain stream with
  | case1 stream after pulled =>
    cases left : stream.cells with
    | nil => rfl
    | cons cell others =>
      have given := (pull_of_cells_eq_cons left).1
      rw [pulled] at given
      cases given
  | case2 stream failure after pulled =>
    cases left : stream.cells with
    | nil =>
      have given := (pull_of_cells_eq_nil left).1
      rw [pulled] at given
      cases given
    | cons cell others =>
      have given := (pull_of_cells_eq_cons left).1
      rw [pulled, Option.some.injEq] at given
      simp [Feed.answers, Feed.fail, Program.answers, ← given, throughFirstError]
  | case3 stream value after pulled inductionHypothesis =>
    cases left : stream.cells with
    | nil =>
      have given := (pull_of_cells_eq_nil left).1
      rw [pulled] at given
      cases given
    | cons cell others =>
      obtain ⟨given, same, rest⟩ := pull_of_cells_eq_cons left
      rw [pulled, Option.some.injEq] at given
      rw [pulled, ← given] at rest
      rw [pulled] at same
      simp only at same rest
      rw [same, rest] at inductionHypothesis
      simp only [Feed.answers, Feed.items_cons, Feed.failure_cons, List.map_cons,
        List.cons_append, Program.answers, ← given, throughFirstError]
      exact congrArg (Except.ok value :: ·) inductionHypothesis

end ByteStream

end BankAsm
