import BankAsm.Proofs.Signature.Expand

/-!
# Direct matching of patterns

A pattern can also be held against a signature as it is, without a list of what it
stands for: a class admits the kinds of its members, and everything else admits
itself. Both readings of a pattern agree (`Signature.mem_expand_iff_admits`), at every
depth of nesting.
-/

namespace BankAsm

namespace TokenKind

/-- Whether a token of the kind names a register. -/
def isRegister : TokenKind → Bool
  | .index | .status | .pointer => true
  | _ => false

/-- Whether a token of the kind stands for a number. -/
def isNumber : TokenKind → Bool
  | .digit | .decimal | .hexadecimal | .character | .reference | .loop | .skip => true
  | _ => false

theorem mem_registers {k : TokenKind} : k ∈ registers ↔ k.isRegister = true := by
  cases k <;> decide

theorem mem_numbers {k : TokenKind} : k ∈ numbers ↔ k.isNumber = true := by
  cases k <;> decide

end TokenKind

namespace Param

mutual

/-- Whether a parameter of a pattern fits a parameter of a signature. -/
def admits : Param → Param → Bool
  | .kind j, .kind k => j = k
  | .group ps, .group qs => admitsAll ps qs
  | .register, .kind k => k.isRegister
  | .number, .kind k => k.isNumber
  | _, _ => false

/-- Whether the parameters of a pattern fit those of a signature, one by one. -/
def admitsAll : List Param → List Param → Bool
  | [], [] => true
  | p :: ps, q :: qs => p.admits q && admitsAll ps qs
  | _, _ => false

end

mutual

/-- A parameter stands for exactly those that it admits. -/
theorem mem_expand_iff_admits : (p q : Param) → (q ∈ p.expand ↔ p.admits q = true)
  | .kind j, q => by
    cases q with
    | kind k => simp [expand, admits, eq_comm]
    | group | register | number => simp [expand, admits]
  | .group ps, q => by
    cases q with
    | group qs =>
      rw [group_mem_expand, admits, ← mem_expandAll_iff_admitsAll ps qs]
      constructor
      · rintro ⟨pattern, same, stands⟩
        obtain rfl := Param.group.inj same
        exact stands
      · intro stands
        exact ⟨ps, rfl, stands⟩
    | kind | register | number => simp [expand, admits]
  | .register, q => by
    cases q with
    | kind k => simp [expand, admits, TokenKind.mem_registers]
    | group | register | number => simp [expand, admits]
  | .number, q => by
    cases q with
    | kind k => simp [expand, admits, TokenKind.mem_numbers]
    | group | register | number => simp [expand, admits]

/-- Parameters stand for exactly those lists that they admit. -/
theorem mem_expandAll_iff_admitsAll :
    (ps qs : List Param) → (qs ∈ expandAll ps ↔ admitsAll ps qs = true)
  | [], qs => by
    cases qs with
    | nil => simp [expandAll, admitsAll]
    | cons => simp [expandAll, admitsAll]
  | p :: ps, qs => by
    cases qs with
    | nil => simp [expandAll, admitsAll]
    | cons q qs =>
      rw [cons_mem_expandAll, admitsAll, Bool.and_eq_true, mem_expand_iff_admits p q,
        mem_expandAll_iff_admitsAll ps qs]

end

mutual

/-- Only parameters without a class are admitted. -/
theorem isConcrete_of_admits : (p q : Param) → p.admits q = true → q.isConcrete = true
  | _, .kind _, _ => rfl
  | .group ps, .group qs, fits => by
    rw [admits] at fits
    exact allConcrete_of_admitsAll ps qs fits
  | .kind _, .group _, fits | .register, .group _, fits | .number, .group _, fits => by
    simp [admits] at fits
  | p, .register, fits | p, .number, fits => by
    cases p <;> simp [admits] at fits

/-- Only lists without a class are admitted. -/
theorem allConcrete_of_admitsAll :
    (ps qs : List Param) → admitsAll ps qs = true → allConcrete qs = true
  | _, [], _ => rfl
  | [], _ :: _, fits => by simp [admitsAll] at fits
  | p :: ps, q :: qs, fits => by
    rw [admitsAll, Bool.and_eq_true] at fits
    rw [allConcrete, isConcrete_of_admits p q fits.1, allConcrete_of_admitsAll ps qs fits.2]
    rfl

end

end Param

namespace Signature

/-- Whether a pattern fits a signature: they have the same mnemonic, and the
parameters fit. -/
def admits (pattern s : Signature) : Bool :=
  pattern.mnemonic = s.mnemonic && Param.admitsAll pattern.params s.params

/-- A pattern stands for exactly those signatures that it fits. -/
theorem mem_expand_iff_admits {pattern s : Signature} :
    s ∈ pattern.expand ↔ pattern.admits s = true := by
  rw [mem_expand_iff, admits, Bool.and_eq_true, decide_eq_true_iff,
    Param.mem_expandAll_iff_admitsAll]
  exact and_congr_left' eq_comm

/-- A pattern fits signatures without classes alone. -/
theorem isConcrete_of_admits {pattern s : Signature} (fits : pattern.admits s = true) :
    s.isConcrete = true := by
  rw [admits, Bool.and_eq_true] at fits
  exact Param.allConcrete_of_admitsAll _ _ fits.2

end Signature

end BankAsm
