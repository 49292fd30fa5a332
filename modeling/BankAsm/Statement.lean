import BankAsm.Signature
import BankAsm.Token

/-!
# Statements

A statement is an optional label, a mnemonic and its operands. Brackets group
operands and may be nested. The signature of a statement is the concrete
signature under which its encoding is looked up.
-/

namespace BankAsm

/-- A name that a statement binds, and where it stands. -/
structure Label where
  name : String
  position : Position
deriving DecidableEq

/-- An operand: a token, or operands in brackets. -/
inductive Operand where
  | token (token : Token)
  | group (operands : List Operand)

namespace Operand

mutual

/-- Equality of operands is decided along their structure. -/
def decEq : (left right : Operand) → Decidable (left = right)
  | .token t, .token u => decidable_of_iff (t = u) (by simp)
  | .group operands, .group others =>
    match decEqList operands others with
    | isTrue equal => isTrue (by rw [equal])
    | isFalse unequal => isFalse (by simpa using unequal)
  | .token _, .group _ => isFalse (by simp)
  | .group _, .token _ => isFalse (by simp)

/-- Equality of lists of operands is decided element by element. -/
def decEqList : (left right : List Operand) → Decidable (left = right)
  | [], [] => isTrue rfl
  | [], _ :: _ => isFalse (by simp)
  | _ :: _, [] => isFalse (by simp)
  | operand :: operands, other :: others =>
    match decEq operand other, decEqList operands others with
    | isTrue heads, isTrue tails => isTrue (by rw [heads, tails])
    | isFalse heads, _ => isFalse (by simp [heads])
    | _, isFalse tails => isFalse (by simp [tails])

end

instance : DecidableEq Operand := decEq

end Operand

/-- An instruction or a directive. -/
structure Statement where
  label : Option Label
  mnemonic : String
  position : Position
  operands : List Operand
deriving DecidableEq

namespace Operand

mutual

/-- What a signature says of an operand. -/
def param : Operand → Param
  | .token t => .kind t.kind
  | .group operands => .group (params operands)

/-- What a signature says of a list of operands. -/
def params : List Operand → List Param
  | [] => []
  | operand :: operands => operand.param :: params operands

end

end Operand

/-- What the layout does with a statement. -/
inductive Role where
  /-- Gives its label a value and takes no room. -/
  | assign
  /-- Moves the place of the statements behind it and takes no room. -/
  | locate
  /-- Fills the place it stands at. -/
  | emit
deriving DecidableEq

namespace Statement

/-- Whether the statement directs the layout. -/
def isDirective (s : Statement) : Bool := Vocabulary.isDirective s.mnemonic

/-- What the layout does with the statement. -/
def role (s : Statement) : Role :=
  if s.mnemonic = "ASSIGN" then .assign
  else if s.mnemonic = "LOCATE" then .locate
  else .emit

/-- The signature of a statement. `DATA` takes operands of every kind, so its
signature is the bare mnemonic. -/
def signature (s : Statement) : Signature :=
  if s.mnemonic = "DATA" then ⟨"DATA", []⟩ else ⟨s.mnemonic, Operand.params s.operands⟩

end Statement

end BankAsm
