import BankAsm.Program

/-!
# Resolving octets

A label stands for its byte in the final table. A vector walks from its statement
to a neighbour: every step must meet a statement that is no directive, and the
address of the last one is the byte.
-/

namespace BankAsm

/-- The number of the neighbour of a statement, if there can be one. -/
def Direction.next? (direction : Direction) (count index : Nat) : Option Nat :=
  match direction with
  | .backward => if index = 0 then none else some (index - 1)
  | .forward => if index + 1 < count then some (index + 1) else none

namespace Program

/-- The address that so many steps from a statement lead to. A step beyond the
program or onto a directive is reported at a position; a walk among statements
that the program does not have is stuck. -/
def walk (placed : List Placed) (direction : Direction) (position : Position) (steps index : Nat) :
    Except Failure UInt8 :=
  match steps with
  | 0 =>
    match placed[index]? with
    | some last => .ok (UInt8.ofNat last.address)
    | none => .error .stuck
  | more + 1 =>
    let refuse (obstacle : Obstacle) : Except Failure UInt8 :=
      .error (.reported ⟨.badStep (more == 0) obstacle, position⟩)
    match direction.next? placed.length index with
    | none => refuse .emptySpace
    | some next =>
      match placed[next]? with
      | none => .error .stuck
      | some neighbour =>
        if neighbour.statement.isDirective then refuse .directive
        else walk placed direction position more next

/-- The byte of an octet of the statement with a number. -/
def resolve (program : Program) (index : Nat) : Octet → Except Failure UInt8
  | .byte value => .ok value
  | .label name position =>
    match program.labels.find? name with
    | some value => .ok value
    | none => .error (.reported ⟨.undefinedLabel name, position⟩)
  | .vector direction steps position => walk program.placed direction position steps index

end Program

end BankAsm
