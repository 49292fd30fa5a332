import BankAsm.Proofs.Signature.Expand
import BankAsm.Proofs.Statement.Leaves

/-!
# Shapes of operands

A pattern with its kinds widened to their classes is the shape of every statement that
it stands for (`widen_of_mem_expand`). The tokens of a statement are its numerals and
its names, and its shape tells how many there are of either.
-/

namespace BankAsm

namespace Param

mutual

/-- A parameter with the classes of its kinds in their place. -/
def widen : Param → Param
  | .kind k =>
    if k ∈ TokenKind.numbers then .number
    else if k ∈ TokenKind.registers then .register
    else .kind k
  | .group ps => .group (widenAll ps)
  | .register => .register
  | .number => .number

/-- Parameters with the classes of their kinds in their place. -/
def widenAll : List Param → List Param
  | [] => []
  | p :: ps => p.widen :: widenAll ps

end

mutual

/-- What a parameter stands for is as wide as the parameter. -/
theorem widen_of_mem_expand : (p : Param) → ∀ q ∈ p.expand, q.widen = p.widen
  | .kind k, q, stands => by
    obtain rfl : q = .kind k := List.mem_singleton.mp stands
    rfl
  | .group ps, q, stands => by
    obtain ⟨qs, member, rfl⟩ := exists_of_mem_expand_group stands
    rw [widen, widen, widenAll_of_mem_expandAll ps qs member]
  | .register, q, stands => by
    obtain ⟨k, register, rfl⟩ := List.mem_map.mp stands
    revert k
    decide
  | .number, q, stands => by
    obtain ⟨k, number, rfl⟩ := List.mem_map.mp stands
    simp [widen, number]

/-- What parameters stand for is as wide as they are. -/
theorem widenAll_of_mem_expandAll :
    (ps : List Param) → ∀ qs ∈ expandAll ps, widenAll qs = widenAll ps
  | [], qs, stands => by
    obtain rfl : qs = [] := List.mem_singleton.mp stands
    rfl
  | p :: ps, qs, stands => by
    unfold expandAll at stands
    obtain ⟨q, first, member⟩ := List.mem_flatMap.mp stands
    obtain ⟨others, later, rfl⟩ := List.mem_map.mp member
    rw [widenAll, widenAll, widen_of_mem_expand p q first,
      widenAll_of_mem_expandAll ps others later]

end

mutual

/-- The parameters for tokens in a parameter, in order. -/
def leaves : Param → List Param
  | .kind k => [.kind k]
  | .group ps => leavesAll ps
  | .register => [.register]
  | .number => [.number]

/-- The parameters for tokens in parameters, in order. -/
def leavesAll : List Param → List Param
  | [] => []
  | p :: ps => p.leaves ++ leavesAll ps

end

/-- The parameters for tokens in parameters are those in one after the other. -/
theorem leavesAll_eq_flatMap (ps : List Param) : leavesAll ps = ps.flatMap leaves := by
  induction ps with
  | nil => rfl
  | cons p ps inductionHypothesis => rw [leavesAll, inductionHypothesis, List.flatMap_cons]

/-- Only the kinds of numbers are as wide as a number. -/
theorem widen_kind_eq_number {k : TokenKind} :
    (Param.kind k).widen = .number ↔ k ∈ TokenKind.numbers := by
  unfold widen
  split
  · simp_all
  · split <;> simp_all

/-- A kind is as wide as a single parameter. -/
theorem leaves_widen_kind (k : TokenKind) : (Param.kind k).widen.leaves = [(Param.kind k).widen] := by
  unfold widen
  split
  · rfl
  · split <;> rfl

end Param

namespace Operand

open Param (widenAll leavesAll)

mutual

/-- The tokens in an operand stand where its shape has parameters for them. -/
theorem widen_leaves : (operand : Operand) →
    operand.leaves.map (fun t => (Param.kind t.kind).widen) = operand.param.widen.leaves
  | .token t => by
    rw [param, Param.leaves_widen_kind, leaves, List.map_singleton]
  | .group operands => by
    rw [leaves, param, Param.widen, Param.leaves, widenAll_leaves operands]

/-- The tokens in operands stand where their shape has parameters for them. -/
theorem widenAll_leaves : (operands : List Operand) →
    (operands.flatMap leaves).map (fun t => (Param.kind t.kind).widen) =
      leavesAll (widenAll (params operands))
  | [] => rfl
  | operand :: operands => by
    rw [List.flatMap_cons, List.map_append, params, widenAll, leavesAll,
      widen_leaves operand, widenAll_leaves operands]

end

end Operand

namespace Statement

open Param (widenAll leavesAll)

/-- Whether a token is one that a number stands for. -/
def isNumeral (t : Token) : Bool := t.kind ∈ TokenKind.numbers

/-- The operands of a statement with their order and brackets, by their classes. -/
def shape (s : Statement) : List Param := widenAll (Operand.params s.operands)

/-- The tokens of the operands that numbers stand for, in order. -/
def numerals (s : Statement) : List Token := (s.operands.flatMap Operand.leaves).filter isNumeral

/-- The texts of all other tokens of the operands, in order: the names of registers. -/
def names (s : Statement) : List String :=
  ((s.operands.flatMap Operand.leaves).filter (!isNumeral ·)).map (·.text)

/-- A numeral in an operand is a numeral of the statement. -/
theorem mem_numerals {s : Statement} {operand : Operand} {t : Token}
    (member : operand ∈ s.operands) (leaf : t ∈ operand.leaves) (numeral : isNumeral t = true) :
    t ∈ s.numerals :=
  List.mem_filter.mpr ⟨List.mem_flatMap.mpr ⟨operand, member, leaf⟩, numeral⟩

/-- The text of any other token in an operand is a name of the statement. -/
theorem mem_names {s : Statement} {operand : Operand} {t : Token}
    (member : operand ∈ s.operands) (leaf : t ∈ operand.leaves) (other : isNumeral t = false) :
    t.text ∈ s.names := by
  refine List.mem_map_of_mem (List.mem_filter.mpr ⟨?_, by simp [other]⟩)
  exact List.mem_flatMap.mpr ⟨operand, member, leaf⟩

/-- A statement has as many numerals as its shape has numbers. -/
theorem length_numerals (s : Statement) :
    s.numerals.length = (leavesAll s.shape).countP (· = .number) := by
  unfold numerals shape
  rw [← Operand.widenAll_leaves, List.countP_map, ← List.countP_eq_length_filter]
  refine List.countP_congr fun t _ => ?_
  simp [isNumeral, Param.widen_kind_eq_number]

/-- A statement has as many names as its shape has other parameters for tokens. -/
theorem length_names (s : Statement) :
    s.names.length = (leavesAll s.shape).countP (· ≠ .number) := by
  unfold names shape
  rw [← Operand.widenAll_leaves, List.countP_map, List.length_map,
    ← List.countP_eq_length_filter]
  refine List.countP_congr fun t _ => ?_
  simp [isNumeral, Param.widen_kind_eq_number]

end Statement

end BankAsm
