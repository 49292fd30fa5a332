import BankAsm.Proofs.Signature.Admission
import BankAsm.Proofs.Signature.Shape
import BankAsm.Proofs.Signature.Substitution
import Mathlib.Algebra.Ring.Nat
import Mathlib.Data.List.Forall2
import Mathlib.Data.List.Lex
import Mathlib.Data.List.Nodup

/-!
# Choices for the classes of a pattern

A choice for a pattern numbers one member of every class in it, from left to right and
from the outside in. A pattern stands for the signatures that its choices lead to, each
once and in the lexicographic order of the choices (`Signature.expands_expand`).
-/

namespace BankAsm

namespace Param

mutual

/-- What a choice makes of a parameter. -/
inductive Chosen : Param → List Nat → Param → Prop
  | kind (k : TokenKind) : Chosen (.kind k) [] (.kind k)
  | group {ps qs : List Param} {choice : List Nat} (members : ChosenAll ps choice qs) :
      Chosen (.group ps) choice (.group qs)
  | register {pick : Nat} {k : TokenKind} (member : TokenKind.registers[pick]? = some k) :
      Chosen .register [pick] (.kind k)
  | number {pick : Nat} {k : TokenKind} (member : TokenKind.numbers[pick]? = some k) :
      Chosen .number [pick] (.kind k)

/-- What a choice makes of parameters, the picks for the first of them in front. -/
inductive ChosenAll : List Param → List Nat → List Param → Prop
  | nil : ChosenAll [] [] []
  | cons {p q : Param} {ps qs : List Param} {first others : List Nat} (head : Chosen p first q)
      (tail : ChosenAll ps others qs) : ChosenAll (p :: ps) (first ++ others) (q :: qs)

end

mutual

/-- All choices for a parameter, in lexicographic order. -/
def choices : Param → List (List Nat)
  | .kind _ => [[]]
  | .group ps => choicesAll ps
  | .register => (List.range TokenKind.registers.length).map ([·])
  | .number => (List.range TokenKind.numbers.length).map ([·])

/-- All choices for parameters, in lexicographic order. -/
def choicesAll : List Param → List (List Nat)
  | [] => [[]]
  | p :: ps => p.choices.flatMap fun first => (choicesAll ps).map (first ++ ·)

end

/-- Members that are picked by their numbers. -/
theorem forall₂_picks {Chosen : List Nat → Param → Prop} (members : List TokenKind)
    (chosen : ∀ pick k, members[pick]? = some k → Chosen [pick] (.kind k)) :
    List.Forall₂ Chosen ((List.range members.length).map ([·])) (members.map .kind) := by
  rw [List.forall₂_iff_get]
  refine ⟨by simp, fun index inRange _ => ?_⟩
  have here : index < members.length := by simpa using inRange
  simpa using chosen index members[index] (List.getElem?_eq_getElem here)

mutual

/-- A parameter stands for what its choices make of it, in their order. -/
theorem forall₂_choices : (p : Param) → List.Forall₂ (Chosen p) p.choices p.expand
  | .kind k => .cons (.kind k) .nil
  | .group ps => by
    rw [choices, expand, List.forall₂_map_right_iff]
    exact (forall₂_choicesAll ps).imp fun _ _ members => .group members
  | .register => forall₂_picks _ fun _ _ member => .register member
  | .number => forall₂_picks _ fun _ _ member => .number member

/-- Parameters stand for what their choices make of them, in their order. -/
theorem forall₂_choicesAll :
    (ps : List Param) → List.Forall₂ (ChosenAll ps) (choicesAll ps) (expandAll ps)
  | [] => .cons .nil .nil
  | p :: ps => by
    rw [choicesAll, expandAll]
    refine List.rel_flatMap (forall₂_choices p) fun first q head => ?_
    rw [List.forall₂_map_left_iff, List.forall₂_map_right_iff]
    exact (forall₂_choicesAll ps).imp fun _ _ tail => .cons head tail

end

mutual

/-- A parameter stands for everything that a choice makes of it. -/
theorem Chosen.mem_expand {p q : Param} {choice : List Nat} :
    Chosen p choice q → q ∈ p.expand
  | .kind k => List.mem_singleton_self _
  | .group members => List.mem_map_of_mem members.mem_expandAll
  | .register member => List.mem_map_of_mem (List.mem_of_getElem? member)
  | .number member => List.mem_map_of_mem (List.mem_of_getElem? member)

/-- Parameters stand for everything that a choice makes of them. -/
theorem ChosenAll.mem_expandAll {ps qs : List Param} {choice : List Nat} :
    ChosenAll ps choice qs → qs ∈ expandAll ps
  | .nil => List.mem_singleton_self _
  | .cons head tail => cons_mem_expandAll.mpr ⟨head.mem_expand, tail.mem_expandAll⟩

end

mutual

/-- A choice picks once for every class in a parameter. -/
theorem length_of_mem_choices : (p : Param) → ∀ choice ∈ p.choices, choice.length = p.classes
  | .kind _, choice, member => by
    obtain rfl := List.mem_singleton.mp member
    rfl
  | .group ps, choice, member => length_of_mem_choicesAll ps choice member
  | .register, choice, member | .number, choice, member => by
    obtain ⟨pick, _, rfl⟩ := List.mem_map.mp member
    rfl

/-- A choice picks once for every class in a list of parameters. -/
theorem length_of_mem_choicesAll :
    (ps : List Param) → ∀ choice ∈ choicesAll ps, choice.length = classesAll ps
  | [], choice, member => by
    obtain rfl := List.mem_singleton.mp member
    rfl
  | p :: ps, choice, member => by
    unfold choicesAll at member
    obtain ⟨first, firstMember, member⟩ := List.mem_flatMap.mp member
    obtain ⟨others, othersMember, rfl⟩ := List.mem_map.mp member
    rw [List.length_append, classesAll, length_of_mem_choices p first firstMember,
      length_of_mem_choicesAll ps others othersMember]

end

/-- A lexicographic order of lists of one length is settled in front of what follows. -/
theorem lex_append_of_length_eq {left right : List Nat} (less : List.Lex (· < ·) left right)
    (same : left.length = right.length) (leftRest rightRest : List Nat) :
    List.Lex (· < ·) (left ++ leftRest) (right ++ rightRest) := by
  induction less with
  | nil => cases same
  | rel smaller => exact .rel smaller
  | cons _ inductionHypothesis => exact .cons (inductionHypothesis (Nat.succ.inj same))

theorem pairwise_picks (count : Nat) :
    ((List.range count).map ([·])).Pairwise (List.Lex (· < ·)) := by
  rw [List.pairwise_map]
  exact List.pairwise_lt_range.imp fun smaller => .rel smaller

mutual

/-- The choices for a parameter are in lexicographic order. -/
theorem pairwise_choices : (p : Param) → p.choices.Pairwise (List.Lex (· < ·))
  | .kind _ => List.pairwise_singleton _ _
  | .group ps => pairwise_choicesAll ps
  | .register => pairwise_picks _
  | .number => pairwise_picks _

/-- The choices for parameters are in lexicographic order. -/
theorem pairwise_choicesAll : (ps : List Param) → (choicesAll ps).Pairwise (List.Lex (· < ·))
  | [] => List.pairwise_singleton _ _
  | p :: ps => by
    rw [choicesAll, List.pairwise_flatMap]
    constructor
    · intro first _
      rw [List.pairwise_map]
      exact (pairwise_choicesAll ps).imp fun less => List.Lex.append_left _ less first
    · refine (pairwise_choices p).imp_of_mem ?_
      intro first other firstMember otherMember less left leftMember right rightMember
      obtain ⟨_, _, rfl⟩ := List.mem_map.mp leftMember
      obtain ⟨_, _, rfl⟩ := List.mem_map.mp rightMember
      have same : first.length = other.length :=
        (length_of_mem_choices p first firstMember).trans
          (length_of_mem_choices p other otherMember).symm
      exact lex_append_of_length_eq less same _ _

end

mutual

/-- A parameter stands for everything once. -/
theorem nodup_expand : (p : Param) → p.expand.Nodup
  | .kind _ => List.nodup_singleton _
  | .group ps => (nodup_expandAll ps).map fun _ _ same => Param.group.inj same
  | .register => by decide
  | .number => by decide

/-- Parameters stand for everything once. -/
theorem nodup_expandAll : (ps : List Param) → (expandAll ps).Nodup
  | [] => List.nodup_singleton _
  | p :: ps => by
    rw [expandAll, List.nodup_flatMap]
    constructor
    · intro head _
      exact (nodup_expandAll ps).map fun _ _ same => (List.cons.inj same).2
    · refine (nodup_expand p).imp fun differ => ?_
      intro params member otherMember
      obtain ⟨_, _, rfl⟩ := List.mem_map.mp member
      obtain ⟨_, _, same⟩ := List.mem_map.mp otherMember
      exact differ (List.cons.inj same).1.symm

end

mutual

/-- A parameter stands for three things for every register in it, times seven for every
number. -/
theorem length_expand : (p : Param) →
    p.expand.length = 3 ^ p.leaves.count .register * 7 ^ p.leaves.count .number
  | .kind _ => by simp [expand, leaves]
  | .group ps => by rw [expand, leaves, List.length_map, length_expandAll ps]
  | .register => rfl
  | .number => rfl

/-- The same for parameters, whose numbers multiply. -/
theorem length_expandAll : (ps : List Param) →
    (expandAll ps).length = 3 ^ (leavesAll ps).count .register * 7 ^ (leavesAll ps).count .number
  | [] => rfl
  | p :: ps => by
    have each : (expandAll (p :: ps)).length = p.expand.length * (expandAll ps).length := by
      simp [expandAll, List.length_flatMap]
    rw [each, length_expand p, length_expandAll ps, leavesAll, List.count_append,
      List.count_append, Nat.pow_add, Nat.pow_add, Nat.mul_mul_mul_comm]

end

mutual

/-- A parameter holds no class if a search finds none. -/
theorem isConcrete_eq_isNone : (p : Param) → p.isConcrete = p.classPath?.isNone
  | .kind _ | .register | .number => rfl
  | .group ps => allConcrete_eq_isNone ps 0

/-- Parameters hold no class if a search finds none. -/
theorem allConcrete_eq_isNone :
    (ps : List Param) → (index : Nat) → allConcrete ps = (firstClass? index ps).isNone
  | [], _ => rfl
  | p :: ps, index => by
    rw [allConcrete, firstClass?, isConcrete_eq_isNone p, allConcrete_eq_isNone ps (index + 1)]
    cases p.classPath? with
    | none => rfl
    | some path => rfl

end

end Param

namespace Signature

/-- What a choice makes of a pattern. -/
def Chosen (pattern : Signature) (choice : List Nat) (s : Signature) : Prop :=
  s.mnemonic = pattern.mnemonic ∧ Param.ChosenAll pattern.params choice s.params

/-- What a pattern stands for is what the replacement of one class after the other comes
to, and what the choices for its classes make of it. -/
structure Expands (pattern : Signature) (results : List Signature) : Prop where
  /-- Replacing the first class again and again comes to an end with these results, and
  never follows a path that leads nowhere. -/
  substituted : Param.substitute pattern.params = some (results.map (·.params))
  /-- The results come in the lexicographic order of the choices. -/
  ordered : ∃ choices : List (List Nat), choices.Pairwise (List.Lex (· < ·)) ∧
    List.Forall₂ pattern.Chosen choices results
  /-- The results are exactly what choices make of the pattern. -/
  exact (s : Signature) : s ∈ results ↔ ∃ choice, pattern.Chosen choice s
  /-- No class is left. -/
  concrete (s : Signature) (result : s ∈ results) : s.isConcrete = true
  /-- No result occurs twice. -/
  distinct : results.Nodup
  /-- A register has three members and a number seven. -/
  count : results.length =
    3 ^ (Param.leavesAll pattern.params).count .register *
      7 ^ (Param.leavesAll pattern.params).count .number
  /-- A signature without a class stands for itself. -/
  alone (plain : pattern.isConcrete = true) : results = [pattern]

/-- A pattern is expanded to what the choices for its classes make of it. -/
theorem expands_expand (pattern : Signature) : pattern.Expands pattern.expand where
  substituted := by
    rw [Param.substitute_eq_expandAll, expand, List.map_map]
    simp [Function.comp_def]
  ordered := by
    refine ⟨Param.choicesAll pattern.params, Param.pairwise_choicesAll _, ?_⟩
    rw [expand, List.forall₂_map_right_iff]
    exact (Param.forall₂_choicesAll _).imp fun _ _ chosen => ⟨rfl, chosen⟩
  exact := by
    intro s
    rw [mem_expand_iff]
    constructor
    · rintro ⟨mnemonic, stands⟩
      obtain ⟨index, inRange, here⟩ := List.getElem_of_mem stands
      obtain ⟨same, chosen⟩ := List.forall₂_iff_get.mp (Param.forall₂_choicesAll pattern.params)
      have result := chosen index (same ▸ inRange) inRange
      rw [List.get_eq_getElem, List.get_eq_getElem, here] at result
      exact ⟨_, mnemonic, result⟩
    · rintro ⟨choice, mnemonic, chosen⟩
      exact ⟨mnemonic, chosen.mem_expandAll⟩
  concrete := by
    intro s result
    exact isConcrete_of_admits (mem_expand_iff_admits.mp result)
  distinct := (Param.nodup_expandAll _).map fun _ _ same => (Signature.mk.inj same).2
  count := by rw [expand, List.length_map, Param.length_expandAll]
  alone := by
    intro plain
    rw [isConcrete, Param.allConcrete_eq_isNone _ 0, Option.isNone_iff_eq_none] at plain
    rw [expand, Param.expandAll_of_firstClass?_eq_none _ 0 plain]
    rfl

end Signature

end BankAsm
