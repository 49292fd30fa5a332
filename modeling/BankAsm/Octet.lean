import BankAsm.Token

/-!
# Octets

An encoding is a list of octets. An octet that depends on the rest of the program
is pending: it names a label, or counts steps to a neighbouring statement.
-/

namespace BankAsm

/-- Which way a vector steps. -/
inductive Direction where
  | backward
  | forward
deriving DecidableEq

/-- One byte of an encoding, settled or pending. -/
inductive Octet where
  | byte (value : UInt8)
  | label (name : String) (position : Position)
  | vector (direction : Direction) (steps : Nat) (position : Position)
deriving DecidableEq

/-- The octet that a numeric token stands for, if it is numeric. -/
def Token.octet? (t : Token) : Option Octet :=
  match t.kind with
  | .reference => some (.label t.text t.position)
  | .loop => some (.vector .backward t.steps t.position)
  | .skip => some (.vector .forward t.steps t.position)
  | _ => t.value?.map .byte

end BankAsm
