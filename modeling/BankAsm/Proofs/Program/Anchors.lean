import BankAsm.Program.Image
import BankAsm.Proofs.Encoding.Anchors
import BankAsm.Proofs.Layout.Place
import BankAsm.Proofs.Program.Stream

/-!
# Where programs fail

An octet without a byte is reported at the position that it kept, and a place that is
filled twice where the statement stands that fills it again. Either way it is the
position of a token (`Program.atToken_of_answer`, `Program.atToken_of_images`).
-/

namespace BankAsm

variable {ts : List Token} {d : Diagnostic}

/-- A placed statement that stands at tokens, and whose pending octets keep positions of
theirs. -/
structure Placed.Anchored (ts : List Token) (placed : Placed) : Prop where
  statement : placed.statement.Anchored ts
  octets : ∀ octet ∈ placed.code, octet.Marked ts

namespace Program

variable {program : Program}

/-- A program of such statements. -/
def Anchored (ts : List Token) (program : Program) : Prop :=
  ∀ placed ∈ program.placed, placed.Anchored ts

/-- A walk that is refused is reported at the position it was given. -/
theorem atToken_of_walk {placed : List Placed} {direction : Direction} {position : Position}
    {steps index : Nat} (marks : Marks ts position)
    (fails : walk placed direction position steps index = .error (.reported d)) :
    d.AtToken ts := by
  induction steps generalizing index with
  | zero =>
    unfold walk at fails
    split at fails
    case h_1 => cases fails
    case h_2 => cases fails
  | succ steps inductionHypothesis =>
    unfold walk at fails
    simp only at fails
    split at fails
    case h_1 =>
      obtain rfl := Failure.reported.inj (Except.error.inj fails)
      exact ⟨marks, rfl⟩
    case h_2 next _ =>
      split at fails
      case h_1 => cases fails
      case h_2 =>
        split at fails
        case isTrue =>
          obtain rfl := Failure.reported.inj (Except.error.inj fails)
          exact ⟨marks, rfl⟩
        case isFalse => exact inductionHypothesis fails

/-- An octet without a byte is reported at the position that it kept. -/
theorem atToken_of_resolve {index : Nat} {octet : Octet} (marked : octet.Marked ts)
    (fails : program.resolve index octet = .error (.reported d)) : d.AtToken ts := by
  cases octet with
  | byte value => cases fails
  | label name position =>
    simp only [resolve] at fails
    split at fails
    case h_1 => cases fails
    case h_2 =>
      obtain rfl := Failure.reported.inj (Except.error.inj fails)
      exact ⟨marked, rfl⟩
  | vector direction steps position => exact atToken_of_walk marked fails

/-- The octet of a cell belongs to a statement of the program. -/
theorem owner_of_mem_cells {cell : Cell} (member : cell ∈ program.cells) :
    cell.owner ∈ program.placed ∧ cell.octet ∈ cell.owner.code := by
  refine ⟨List.mem_of_getElem? (mem_cells member).1, ?_⟩
  obtain ⟨⟨owner, index⟩, _, cellOf⟩ := List.mem_flatMap.mp member
  obtain ⟨⟨octet, offset⟩, slot, rfl⟩ := List.mem_map.mp cellOf
  exact List.mem_of_getElem? (List.mem_zipIdx_iff_getElem?.mp slot)

/-- A byte that a stream of the program cannot give is reported at a token. -/
theorem atToken_of_answer (anchored : program.Anchored ts) {count : Nat}
    (fails : (ByteStream.start program).answer count = some (.error (.reported d))) :
    d.AtToken ts := by
  rw [ByteStream.answer_eq, ByteStream.cells_start] at fails
  have among := mem_of_mem_throughFirstError (List.mem_of_getElem? fails)
  obtain ⟨cell, member, failed⟩ := List.mem_map.mp among
  obtain ⟨owned, octet⟩ := owner_of_mem_cells member
  exact atToken_of_resolve ((anchored cell.owner owned).octets cell.octet octet) failed

/-- Where the writing of cells fails. -/
theorem atToken_of_writeAll (anchored : program.Anchored ts) {memory : Memory}
    {cells : List Cell} (inside : ∀ cell ∈ cells, cell ∈ program.cells)
    (fails : program.writeAll memory cells = .error (.reported d)) : d.AtToken ts := by
  induction cells generalizing memory with
  | nil => cases fails
  | cons cell cells inductionHypothesis =>
    obtain ⟨here, later⟩ := List.forall_mem_cons.mp inside
    obtain ⟨owned, octet⟩ := owner_of_mem_cells here
    have owner := anchored cell.owner owned
    unfold writeAll at fails
    split at fails
    case h_1 failure failed =>
      obtain rfl := Except.error.inj fails
      exact atToken_of_resolve (owner.octets cell.octet octet) failed
    case h_2 =>
      split at fails
      case h_1 => exact inductionHypothesis later fails
      case h_2 =>
        obtain rfl := Failure.reported.inj (Except.error.inj fails)
        exact ⟨owner.statement.position, rfl⟩
      case h_3 => cases fails

/-- What stands in the way of the images of the program is reported at a token. -/
theorem atToken_of_images (anchored : program.Anchored ts) {fill : UInt8}
    (fails : program.images fill = .error (.reported d)) : d.AtToken ts :=
  atToken_of_writeAll anchored (fun _ member => member) (Outcome.map_eq_error_iff.mp fails)

end Program

end BankAsm
