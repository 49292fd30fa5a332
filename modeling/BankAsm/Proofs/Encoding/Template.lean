import BankAsm.Encoding.Template
import BankAsm.Proofs.Signature.Expand
import BankAsm.Proofs.Statement.Leaves
import BankAsm.Proofs.Token.Sound
import Mathlib.Data.List.Forall2

/-!
# Filling templates

A template fits a pattern when the pattern has a number, or a register that can be
encoded, wherever the template takes one. A template that fits is filled by the
operands of every statement that the pattern stands for (`fill?_isSome`), since the
tokens among them are sound.
-/

namespace BankAsm

/-- What a pattern has at a path. -/
def Path.param? (path : Path) (pattern : List Param) : Option Param :=
  match path with
  | .direct index => pattern[index]?
  | .inner index inside =>
    match pattern[index]? with
    | some (.group members) => members[inside]?
    | _ => none

/-- Whether a pattern has what a part of a template takes, and whether the codes of
all registers that it could take stay within a byte. -/
def Part.fits (pattern : List Param) : Part → Bool
  | .byte _ => true
  | .number path => path.param? pattern = some .number
  | .register base path =>
    (path.param? pattern = some (.kind .index) || path.param? pattern = some (.kind .status))
      && base.toNat + encodableRegisters.length ≤ 256

variable {operands : List Operand} {pattern : List Param}

/-- A token that stands directly where a pattern has a parameter for one. -/
theorem Operand.exists_token {index : Nat} {p : Param}
    (stands : Operand.params operands ∈ Param.expandAll pattern)
    (here : pattern[index]? = some p) (single : ∀ q ∈ p.expand, ∃ kind, q = .kind kind) :
    ∃ t, operands[index]? = some (.token t) ∧ .kind t.kind ∈ p.expand := by
  obtain ⟨operand, found, shape⟩ := Operand.exists_getElem?_of_params_mem stands here
  obtain ⟨kind, isKind⟩ := single operand.param shape
  obtain ⟨t, rfl, rfl⟩ := Operand.eq_token_of_param_eq_kind isKind
  exact ⟨t, found, isKind ▸ shape⟩

/-- Where a pattern has a parameter for a token, operands that fit it have a token. -/
theorem Path.exists_token {path : Path} {p : Param}
    (stands : Operand.params operands ∈ Param.expandAll pattern)
    (here : path.param? pattern = some p) (single : ∀ q ∈ p.expand, ∃ kind, q = .kind kind) :
    ∃ t, path.token? operands = some t ∧ .kind t.kind ∈ p.expand ∧
      ∃ operand ∈ operands, t ∈ operand.leaves := by
  cases path with
  | direct index =>
    obtain ⟨t, found, shape⟩ := Operand.exists_token stands here single
    refine ⟨t, by simp [token?, found], shape, .token t, List.mem_of_getElem? found, ?_⟩
    simp [Operand.leaves]
  | inner index inside =>
    simp only [param?] at here
    split at here
    case h_2 => cases here
    case h_1 members around =>
      obtain ⟨operand, found, shape⟩ := Operand.exists_getElem?_of_params_mem stands around
      obtain ⟨shapes, shapesStand, isGroup⟩ := Param.exists_of_mem_expand_group shape
      obtain ⟨parts, rfl, rfl⟩ := Operand.eq_group_of_param_eq_group isGroup
      obtain ⟨t, foundInside, kind⟩ := Operand.exists_token shapesStand here single
      refine ⟨t, by simp [token?, found, foundInside], kind, .group parts,
        List.mem_of_getElem? found, ?_⟩
      have member : t ∈ parts.flatMap Operand.leaves :=
        List.mem_flatMap.mpr ⟨.token t, List.mem_of_getElem? foundInside, by simp [Operand.leaves]⟩
      simpa only [Operand.leaves] using member

/-- A sound token of a kind that a number stands for has an octet. -/
theorem Token.octet?_isSome {t : Token} (sound : t.Sound) (number : t.kind ∈ TokenKind.numbers) :
    t.octet?.isSome := by
  unfold Token.octet?
  split
  case h_1 => rfl
  case h_2 => rfl
  case h_3 => rfl
  case h_4 noReference noLoop noSkip =>
    have constant : t.kind.isConstant := by
      cases kind : t.kind <;> simp_all [TokenKind.numbers, TokenKind.isConstant]
    simpa using sound.constant constant

/-- A register that can be encoded has a code above a base with room for all of them. -/
theorem registerCode?_isSome {base : UInt8} {register : String}
    (listed : register ∈ encodableRegisters)
    (room : base.toNat + encodableRegisters.length ≤ 256) :
    (registerCode? base register).isSome := by
  obtain ⟨index, found⟩ := Option.isSome_iff_exists.mp (List.isSome_idxOf?.mpr listed)
  obtain ⟨inside, _⟩ := List.idxOf?_eq_some_iff.mp found
  have bounded : base.toNat + index < 256 := by omega
  simp [registerCode?, found, bounded]

/-- A sound token of an encodable kind names a register that can be encoded. -/
theorem Token.mem_encodableRegisters {t : Token} (sound : t.Sound)
    (kind : t.kind = .index ∨ t.kind = .status) : t.text ∈ encodableRegisters := by
  have whole : encodableRegisters = Vocabulary.indexRegisters ++ Vocabulary.statusRegisters := rfl
  rw [whole, List.mem_append]
  rcases kind with isIndex | isStatus
  · exact .inl (sound.index isIndex)
  · exact .inr (sound.status isStatus)

/-- Where a part that fits takes a register, the pattern has one that can be encoded. -/
theorem Part.exists_kind_of_fits {base : UInt8} {path : Path}
    (fits : (Part.register base path).fits pattern) :
    ∃ kind, path.param? pattern = some (.kind kind) ∧ (kind = .index ∨ kind = .status) := by
  obtain ⟨places, _⟩ := Bool.and_eq_true_iff.mp fits
  rcases Bool.or_eq_true_iff.mp places with index | status
  · exact ⟨.index, by simpa using index, .inl rfl⟩
  · exact ⟨.status, by simpa using status, .inr rfl⟩

/-- A part that fits a pattern has an octet for operands that the pattern stands for. -/
theorem Part.octet?_isSome {part : Part} (fits : part.fits pattern)
    (stands : Operand.params operands ∈ Param.expandAll pattern)
    (sound : ∀ operand ∈ operands, ∀ t ∈ operand.leaves, t.Sound) :
    (part.octet? operands).isSome := by
  cases part with
  | byte value => rfl
  | number path =>
    have here : path.param? pattern = some .number := by simpa [Part.fits] using fits
    obtain ⟨t, found, shape, operand, member, leaf⟩ :=
      path.exists_token stands here (by simp [Param.expand])
    have number : t.kind ∈ TokenKind.numbers := by simpa [Param.expand] using shape
    simpa [Part.octet?, found] using Token.octet?_isSome (sound operand member t leaf) number
  | register base path =>
    obtain ⟨kind, here, encodable⟩ := Part.exists_kind_of_fits fits
    have room := (Bool.and_eq_true_iff.mp fits).2
    obtain ⟨t, found, shape, operand, member, leaf⟩ :=
      path.exists_token stands here (by simp [Param.expand])
    obtain rfl : t.kind = kind := by simpa [Param.expand] using shape
    have listed := Token.mem_encodableRegisters (sound operand member t leaf) encodable
    have coded := registerCode?_isSome listed (by simpa using room)
    simpa [Part.octet?, found] using coded

/-- A template whose parts all have an octet is filled. -/
theorem Template.fill?_isSome {template : Template}
    (filled : ∀ part ∈ template, (part.octet? operands).isSome) :
    (template.fill? operands).isSome := by
  induction template with
  | nil => rfl
  | cons part parts inductionHypothesis =>
    obtain ⟨octet, first⟩ := Option.isSome_iff_exists.mp (filled part List.mem_cons_self)
    obtain ⟨octets, others⟩ := Option.isSome_iff_exists.mp
      (inductionHypothesis fun other member => filled other (List.mem_cons_of_mem part member))
    simp [Template.fill?, first, others]

/-- A template that is filled has an octet for each of its parts. -/
theorem Template.forall₂_of_fill? {template : Template} {code : List Octet}
    (filled : template.fill? operands = some code) :
    List.Forall₂ (fun part octet => Part.octet? part operands = some octet) template code := by
  induction template generalizing code with
  | nil =>
    cases filled
    exact .nil
  | cons part parts inductionHypothesis =>
    unfold Template.fill? at filled
    split at filled
    case h_1 octet octets here others =>
      cases filled
      exact .cons here (inductionHypothesis others)
    case h_2 => cases filled

/-- An octet of a template that is filled is that of one of its parts. -/
theorem Template.exists_part_of_mem {template : Template} {code : List Octet} {octet : Octet}
    (filled : template.fill? operands = some code) (member : octet ∈ code) :
    ∃ part ∈ template, part.octet? operands = some octet := by
  have parts := Template.forall₂_of_fill? filled
  clear filled
  induction parts with
  | nil => cases member
  | @cons part first parts _ here _ inductionHypothesis =>
    rcases List.mem_cons.mp member with rfl | later
    · exact ⟨part, List.mem_cons_self, here⟩
    · obtain ⟨other, among, found⟩ := inductionHypothesis later
      exact ⟨other, List.mem_cons_of_mem part among, found⟩

/-- A token at a path is one of the tokens in the operands. -/
theorem Path.exists_leaf_of_token? {path : Path} {t : Token}
    (found : path.token? operands = some t) : ∃ operand ∈ operands, t ∈ operand.leaves := by
  unfold token? at found
  split at found
  case h_1 index =>
    split at found
    case h_1 here =>
      cases found
      exact ⟨.token t, List.mem_of_getElem? here, by simp [Operand.leaves]⟩
    case h_2 => cases found
  case h_2 index inside =>
    split at found
    case h_1 members here =>
      split at found
      case h_1 further =>
        cases found
        have leaf : t ∈ members.flatMap Operand.leaves :=
          List.mem_flatMap.mpr ⟨.token t, List.mem_of_getElem? further, by simp [Operand.leaves]⟩
        exact ⟨.group members, List.mem_of_getElem? here, by simpa only [Operand.leaves] using leaf⟩
      case h_2 => cases found
    case h_2 => cases found

/-- A template encodes the statements that fill it. -/
theorem Template.encoder_eq_ok_iff {template : Template} {s : Statement} {octets : List Octet} :
    template.encoder s = .ok octets ↔ template.fill? s.operands = some octets := by
  unfold Template.encoder
  cases template.fill? s.operands <;> simp

/-- A template that fits a pattern encodes every statement that the pattern stands for. -/
theorem Template.encoder_ne_stuck {template : Template} {s : Statement}
    (fits : ∀ part ∈ template, part.fits pattern)
    (stands : Operand.params s.operands ∈ Param.expandAll pattern)
    (sound : ∀ operand ∈ s.operands, ∀ t ∈ operand.leaves, t.Sound) :
    template.encoder s ≠ .error .stuck := by
  have filled : (template.fill? s.operands).isSome :=
    Template.fill?_isSome fun part member => Part.octet?_isSome (fits part member) stands sound
  obtain ⟨octets, found⟩ := Option.isSome_iff_exists.mp filled
  simp [Template.encoder, found]

end BankAsm
