import BankAsm.Signature
import BankAsm.Statement

/-!
# What a pattern stands for

A signature that a pattern stands for has the mnemonic of the pattern, and each of
its parameters is one that the parameter of the pattern in the same place stands for.
-/

namespace BankAsm

namespace Param

/-- Where a pattern has a parameter, a list that it stands for has one of those that
the parameter stands for. -/
theorem exists_getElem?_of_mem_expandAll {pattern params : List Param} {index : Nat} {p : Param}
    (stands : params ∈ expandAll pattern) (here : pattern[index]? = some p) :
    ∃ q, params[index]? = some q ∧ q ∈ p.expand := by
  induction pattern generalizing params index with
  | nil => cases here
  | cons first rest inductionHypothesis =>
    unfold expandAll at stands
    obtain ⟨head, headStands, member⟩ := List.mem_flatMap.mp stands
    obtain ⟨others, othersStand, rfl⟩ := List.mem_map.mp member
    cases index with
    | zero =>
      obtain rfl : first = p := by simpa using here
      exact ⟨head, rfl, headStands⟩
    | succ index =>
      simpa using inductionHypothesis othersStand (by simpa using here)

/-- A list is stood for when its first parameter and the others are. -/
theorem cons_mem_expandAll {p q : Param} {pattern params : List Param} :
    q :: params ∈ expandAll (p :: pattern) ↔ q ∈ p.expand ∧ params ∈ expandAll pattern := by
  rw [expandAll, List.mem_flatMap]
  constructor
  · rintro ⟨head, stands, member⟩
    obtain ⟨rest, restStands, same⟩ := List.mem_map.mp member
    obtain ⟨rfl, rfl⟩ := List.cons.inj same
    exact ⟨stands, restStands⟩
  · rintro ⟨stands, restStands⟩
    exact ⟨q, stands, List.mem_map_of_mem restStands⟩

/-- A group is stood for by groups alone. -/
theorem group_mem_expand {p : Param} {params : List Param} :
    .group params ∈ p.expand ↔ ∃ pattern, p = .group pattern ∧ params ∈ expandAll pattern := by
  cases p <;> simp [expand]

/-- A group stands for groups of what its parameters stand for. -/
theorem exists_of_mem_expand_group {members : List Param} {q : Param}
    (stands : q ∈ (group members).expand) : ∃ params ∈ expandAll members, q = .group params := by
  unfold expand at stands
  obtain ⟨params, member, rfl⟩ := List.mem_map.mp stands
  exact ⟨params, member, rfl⟩

end Param

/-- A pattern stands for signatures of its mnemonic with parameters that fit. -/
theorem Signature.mem_expand_iff {s pattern : Signature} :
    s ∈ pattern.expand ↔
      s.mnemonic = pattern.mnemonic ∧ s.params ∈ Param.expandAll pattern.params := by
  constructor
  · intro stands
    obtain ⟨params, member, rfl⟩ := List.mem_map.mp stands
    exact ⟨rfl, member⟩
  · rintro ⟨mnemonic, member⟩
    obtain ⟨_, params⟩ := s
    obtain rfl : _ = pattern.mnemonic := mnemonic
    exact List.mem_map_of_mem member

namespace Operand

/-- What a signature says of operands, one after the other. -/
theorem params_eq_map (operands : List Operand) : params operands = operands.map param := by
  induction operands with
  | nil => rfl
  | cons operand operands inductionHypothesis => rw [params, inductionHypothesis, List.map_cons]

/-- Only a token is of a kind. -/
theorem eq_token_of_param_eq_kind {operand : Operand} {kind : TokenKind}
    (shape : operand.param = .kind kind) : ∃ t, operand = .token t ∧ t.kind = kind := by
  cases operand with
  | token t =>
    unfold param at shape
    exact ⟨t, rfl, Param.kind.inj shape⟩
  | group members =>
    unfold param at shape
    cases shape

/-- Only a group has the shape of one. -/
theorem eq_group_of_param_eq_group {operand : Operand} {shapes : List Param}
    (shape : operand.param = .group shapes) :
    ∃ members, operand = .group members ∧ params members = shapes := by
  cases operand with
  | token t =>
    unfold param at shape
    cases shape
  | group members =>
    unfold param at shape
    exact ⟨members, rfl, Param.group.inj shape⟩

/-- Where a pattern has a parameter, operands that fit it have one of a shape that the
parameter stands for. -/
theorem exists_getElem?_of_params_mem {operands : List Operand} {pattern : List Param}
    {index : Nat} {p : Param} (stands : params operands ∈ Param.expandAll pattern)
    (here : pattern[index]? = some p) :
    ∃ operand, operands[index]? = some operand ∧ operand.param ∈ p.expand := by
  obtain ⟨q, found, qStands⟩ := Param.exists_getElem?_of_mem_expandAll stands here
  rw [params_eq_map, List.getElem?_map] at found
  obtain ⟨operand, same, rfl⟩ := Option.map_eq_some_iff.mp found
  exact ⟨operand, same, qStands⟩

/-- Operands that fit a pattern are as many as its parameters, and each of them fits one. -/
theorem fit_of_params_mem {operands : List Operand} {pattern : List Param}
    (stands : params operands ∈ Param.expandAll pattern) :
    operands.length = pattern.length ∧
      ∀ operand ∈ operands, ∃ p ∈ pattern, operand.param ∈ p.expand := by
  induction operands generalizing pattern with
  | nil =>
    cases pattern with
    | nil => exact ⟨rfl, by simp⟩
    | cons p ps => simp [params, Param.expandAll] at stands
  | cons operand operands inductionHypothesis =>
    cases pattern with
    | nil => simp [params, Param.expandAll] at stands
    | cons p ps =>
      obtain ⟨here, behind⟩ := Param.cons_mem_expandAll.mp stands
      obtain ⟨length, fit⟩ := inductionHypothesis behind
      refine ⟨congrArg Nat.succ length, List.forall_mem_cons.mpr ⟨⟨p, by simp, here⟩, ?_⟩⟩
      intro other member
      obtain ⟨q, listed, otherStands⟩ := fit other member
      exact ⟨q, List.mem_cons_of_mem p listed, otherStands⟩

end Operand

end BankAsm
