import BankAsm.Feed
import BankAsm.Program.Resolve

/-!
# Byte streams

A byte stream gives the bytes of a program one at a time. It stands at an octet of
a statement and passes over statements without further octets; nothing is given
behind a failure or behind the end. `Program.flat` is what a stream from the first
octet on gives altogether.
-/

namespace BankAsm

/-- A program whose octets are given up to one of a statement with a number. -/
structure ByteStream where
  program : Program
  index : Nat
  offset : Nat
  isOver : Bool

/-- An octet with the number of its statement and its own within it. -/
structure NumberedOctet where
  index : Nat
  offset : Nat
  octet : Octet
deriving DecidableEq

namespace ByteStream

/-- The stream of all bytes of a program. -/
def start (program : Program) : ByteStream := ⟨program, 0, 0, false⟩

/-- The next octet of statements, numbered from `index` on, of which the first has
given so many octets already. -/
def seek (index offset : Nat) : List Placed → Option NumberedOctet
  | [] => none
  | placed :: rest =>
    match placed.code[offset]? with
    | some octet => some ⟨index, offset, octet⟩
    | none => seek (index + 1) 0 rest

/-- An octet that is found stands in a statement with a later number, or further on
in the first one. -/
theorem seek_advances {index offset : Nat} {placed : List Placed} {found : NumberedOctet}
    (step : seek index offset placed = some found) :
    found.index < index + placed.length ∧
      (index < found.index ∨
        found.index = index ∧ found.offset = offset ∧
          ∃ first ∈ placed.head?, offset < first.code.length) := by
  induction placed generalizing index offset with
  | nil => cases step
  | cons first rest inductionHypothesis =>
    unfold seek at step
    split at step
    case h_1 octet here =>
      cases step
      have inside : offset < first.code.length := (List.getElem?_eq_some_iff.mp here).1
      refine ⟨by simp, .inr ⟨rfl, rfl, first, rfl, inside⟩⟩
    case h_2 =>
      obtain ⟨bound, further⟩ := inductionHypothesis step
      simp only [List.length_cons]
      omega

/-- The next byte, or the failure in its place, and the stream behind it. -/
def pull (stream : ByteStream) : Option (Except Failure UInt8) × ByteStream :=
  if stream.isOver then (none, stream)
  else
    match seek stream.index stream.offset (stream.program.placed.drop stream.index) with
    | none => (none, ⟨stream.program, stream.program.placed.length, 0, true⟩)
    | some found =>
      match stream.program.resolve found.index found.octet with
      | .ok value =>
        (some (.ok value), ⟨stream.program, found.index, found.offset + 1, false⟩)
      | .error failure =>
        (some (.error failure), ⟨stream.program, found.index, found.offset + 1, true⟩)

/-- How many statements are left, and how many octets of the first of them. -/
def left (stream : ByteStream) : Nat × Nat :=
  (stream.program.placed.length - stream.index,
    match stream.program.placed[stream.index]? with
    | some placed => placed.code.length - stream.offset
    | none => 0)

/-- A byte leaves less of the program. -/
theorem left_of_pull {stream after : ByteStream} {value : UInt8}
    (pulled : stream.pull = (some (.ok value), after)) :
    Prod.Lex (· < ·) (· < ·) after.left stream.left := by
  unfold pull at pulled
  split at pulled
  case isTrue => cases pulled
  case isFalse =>
    split at pulled
    case h_1 => cases pulled
    case h_2 found sought =>
      split at pulled
      case h_2 => cases pulled
      case h_1 =>
        cases pulled
        obtain ⟨bound, later | ⟨sameIndex, sameOffset, first, here, inside⟩⟩ :=
          seek_advances sought
        · rw [List.length_drop] at bound
          refine .left _ _ ?_
          simp only
          omega
        · rw [Option.mem_def, List.head?_drop] at here
          simp only [left, sameIndex, sameOffset, here]
          refine .right _ ?_
          omega

/-- The bytes of a stream up to its end or its failure. -/
def drain (stream : ByteStream) : Feed Failure UInt8 :=
  match _ : stream.pull with
  | (none, _) => .done
  | (some (.error failure), _) => .fail failure
  | (some (.ok value), after) => .cons value after.drain
termination_by stream.left
decreasing_by exact left_of_pull ‹_›

end ByteStream

/-- The bytes of the program in order, up to the first octet without one. -/
def Program.flat (program : Program) : Feed Failure UInt8 := (ByteStream.start program).drain

end BankAsm
