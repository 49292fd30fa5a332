import BankAsm.Encoding.Table

/-!
# Templates

A template is an encoding written as data: fixed bytes, and octets taken from the
operands of the statement. Filling it is stuck on a statement that lacks what the
template asks for, which a statement of a fitting signature does not.
-/

namespace BankAsm

/-- Where an operand token stands: on its own, or inside a group. -/
inductive Path where
  | direct (index : Nat)
  | inner (index inside : Nat)
deriving DecidableEq

namespace Path

/-- The token at a place among the operands. -/
def token? (path : Path) (operands : List Operand) : Option Token :=
  match path with
  | .direct index =>
    match operands[index]? with
    | some (.token t) => some t
    | _ => none
  | .inner index inside =>
    match operands[index]? with
    | some (.group members) =>
      match members[inside]? with
      | some (.token t) => some t
      | _ => none
    | _ => none

end Path

/-- The registers that an operation code can name, in the order of their numbers. -/
def encodableRegisters : List String := ["x", "y", "z", "pc", "sp", "fx"]

/-- An operation code counted on by the number of a register, within a byte. -/
def registerCode? (base : UInt8) (register : String) : Option UInt8 :=
  match encodableRegisters.idxOf? register with
  | some index =>
    if base.toNat + index < 256 then some (base + UInt8.ofNat index) else none
  | none => none

/-- One octet of a template. -/
inductive Part where
  | byte (value : UInt8)
  | number (path : Path)
  | register (base : UInt8) (path : Path)
deriving DecidableEq

/-- The octet that a part takes from the operands. -/
def Part.octet? (part : Part) (operands : List Operand) : Option Octet :=
  match part with
  | .byte value => some (.byte value)
  | .number path => (path.token? operands).bind Token.octet?
  | .register base path =>
    ((path.token? operands).bind fun t => registerCode? base t.text).map .byte

/-- An encoding written as data. -/
abbrev Template := List Part

namespace Template

/-- The octets of a template, if the operands hold what it asks for. -/
def fill? (template : Template) (operands : List Operand) : Option (List Octet) :=
  match template with
  | [] => some []
  | part :: parts =>
    match part.octet? operands, fill? parts operands with
    | some octet, some octets => some (octet :: octets)
    | _, _ => none

/-- The encoder that fills a template. -/
def encoder (template : Template) : Encoder := fun s =>
  match template.fill? s.operands with
  | some octets => .ok octets
  | none => .error .stuck

end Template

end BankAsm
