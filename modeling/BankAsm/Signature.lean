import BankAsm.Token.Kind

/-!
# Signatures

A signature is a mnemonic with the kinds of its operands, brackets kept as
groups. A pattern is a signature whose parameters may also be classes of kinds;
`Signature.expand` lists the signatures that a pattern stands for, in the
lexicographic order of the choices.
-/

namespace BankAsm

/-- What a signature says of one operand. -/
inductive Param where
  | kind (kind : TokenKind)
  | group (params : List Param)
  | register
  | number

namespace Param

mutual

/-- Equality of parameters is decided along their structure. -/
def decEq : (left right : Param) → Decidable (left = right)
  | .kind j, .kind k => decidable_of_iff (j = k) (by simp)
  | .group ps, .group qs =>
    match decEqList ps qs with
    | isTrue equal => isTrue (by rw [equal])
    | isFalse unequal => isFalse (by simpa using unequal)
  | .register, .register => isTrue rfl
  | .number, .number => isTrue rfl
  | .kind _, .group _ => isFalse (by simp)
  | .kind _, .register => isFalse (by simp)
  | .kind _, .number => isFalse (by simp)
  | .group _, .kind _ => isFalse (by simp)
  | .group _, .register => isFalse (by simp)
  | .group _, .number => isFalse (by simp)
  | .register, .kind _ => isFalse (by simp)
  | .register, .group _ => isFalse (by simp)
  | .register, .number => isFalse (by simp)
  | .number, .kind _ => isFalse (by simp)
  | .number, .group _ => isFalse (by simp)
  | .number, .register => isFalse (by simp)

/-- Equality of parameter lists is decided element by element. -/
def decEqList : (left right : List Param) → Decidable (left = right)
  | [], [] => isTrue rfl
  | [], _ :: _ => isFalse (by simp)
  | _ :: _, [] => isFalse (by simp)
  | p :: ps, q :: qs =>
    match decEq p q, decEqList ps qs with
    | isTrue heads, isTrue tails => isTrue (by rw [heads, tails])
    | isFalse heads, _ => isFalse (by simp [heads])
    | _, isFalse tails => isFalse (by simp [tails])

end

instance : DecidableEq Param := decEq

mutual

/-- Whether no class stands in a parameter. -/
def isConcrete : Param → Bool
  | .kind _ => true
  | .group ps => allConcrete ps
  | .register => false
  | .number => false

/-- Whether no class stands in a list of parameters. -/
def allConcrete : List Param → Bool
  | [] => true
  | p :: ps => p.isConcrete && allConcrete ps

end

mutual

/-- The concrete parameters that a parameter stands for. -/
def expand : Param → List Param
  | .kind k => [.kind k]
  | .group ps => (expandAll ps).map .group
  | .register => TokenKind.registers.map .kind
  | .number => TokenKind.numbers.map .kind

/-- The concrete lists that a list of parameters stands for: every choice for the
first parameter, in order, with every choice for the others. -/
def expandAll : List Param → List (List Param)
  | [] => [[]]
  | p :: ps => p.expand.flatMap fun head => (expandAll ps).map (head :: ·)

end

end Param

/-- A mnemonic with its parameters: the key under which an encoding is found. -/
structure Signature where
  mnemonic : String
  params : List Param
deriving DecidableEq

namespace Signature

/-- Whether the signature holds no class, as that of a statement does not. -/
def isConcrete (s : Signature) : Bool := Param.allConcrete s.params

/-- The concrete signatures that a pattern stands for. -/
def expand (s : Signature) : List Signature :=
  (Param.expandAll s.params).map fun params => { s with params }

end Signature

end BankAsm
