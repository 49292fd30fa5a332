import BankAsm.Proofs.Encoding.InstructionSet
import BankAsm.Proofs.Signature.Shape

/-!
# Statements that match are encoded alike

Two statements match when they have the same mnemonic and the same brackets around tokens
that are alike. No pattern of the language tells one kind of plain numbers from another, so
statements that match fit the same form (`find?_signature_of_matches`). If alike tokens
have octets that correspond, then so have these statements (`encode_of_matches`).
-/

namespace BankAsm

/-- The kinds of numbers that stand for themselves or for a label. -/
def TokenKind.plainNumbers : List TokenKind :=
  [.digit, .decimal, .hexadecimal, .character, .reference]

/-- Kinds that no pattern of the language tells apart. -/
def TokenKind.Alike (kind other : TokenKind) : Prop :=
  other = kind ∨ kind ∈ plainNumbers ∧ other ∈ plainNumbers

/-- Kinds that are not told apart are so in either order. -/
theorem TokenKind.Alike.symm {kind other : TokenKind} (alike : kind.Alike other) :
    other.Alike kind := by
  rcases alike with rfl | ⟨plain, otherPlain⟩
  · exact .inl rfl
  · exact .inr ⟨otherPlain, plain⟩

/-- Operands with the same brackets around tokens that are related one by one. -/
inductive Operand.Matches (alike : Token → Token → Prop) : List Operand → List Operand → Prop where
  | nil : Matches alike [] []
  | token {t u operands others}
      (same : alike t u)
      (rest : Matches alike operands others) :
      Matches alike (.token t :: operands) (.token u :: others)
  | group {inner innerToo operands others}
      (inside : Matches alike inner innerToo)
      (rest : Matches alike operands others) :
      Matches alike (.group inner :: operands) (.group innerToo :: others)

namespace Operand

variable {alike : Token → Token → Prop} {operands others : List Operand}

/-- Matching operands match in a wider sense. -/
theorem Matches.mono {wider : Token → Token → Prop} (matching : Matches alike operands others)
    (more : ∀ t u, alike t u → wider t u) : Matches wider operands others := by
  induction matching with
  | nil => exact .nil
  | token same _ inductionHypothesis => exact .token (more _ _ same) inductionHypothesis
  | group _ _ inside rest => exact .group inside rest

/-- Matching can be read the other way round. -/
theorem Matches.symm (matching : Matches alike operands others) :
    Matches (fun t u => alike u t) others operands := by
  induction matching with
  | nil => exact .nil
  | token same _ inductionHypothesis => exact .token same inductionHypothesis
  | group _ _ inside rest => exact .group inside rest

/-- Where one of two matching lists has a token, the other has one that is alike. -/
theorem Matches.token_at (matching : Matches alike operands others) {index : Nat} {t : Token}
    (here : operands[index]? = some (.token t)) :
    ∃ u, others[index]? = some (.token u) ∧ alike t u := by
  induction matching generalizing index with
  | nil => cases here
  | @token first other _ _ same _ inductionHypothesis =>
    cases index with
    | zero =>
      obtain rfl : first = t := by simpa using here
      exact ⟨other, rfl, same⟩
    | succ index => exact inductionHypothesis here
  | group _ _ _ rest =>
    cases index with
    | zero => cases here
    | succ index => exact rest here

/-- Where one of two matching lists has a group, the other has one that matches it. -/
theorem Matches.group_at (matching : Matches alike operands others) {index : Nat}
    {members : List Operand} (here : operands[index]? = some (.group members)) :
    ∃ membersToo, others[index]? = some (.group membersToo) ∧
      Matches alike members membersToo := by
  induction matching generalizing index with
  | nil => cases here
  | token _ _ inductionHypothesis =>
    cases index with
    | zero => cases here
    | succ index => exact inductionHypothesis here
  | @group inner innerToo _ _ inside _ _ rest =>
    cases index with
    | zero =>
      obtain rfl : inner = members := by simpa using here
      exact ⟨innerToo, rfl, inside⟩
    | succ index => exact rest here

/-- Where a path leads to a token, it leads to one that is alike among operands that
match. -/
theorem Matches.token?_eq (matching : Matches alike operands others) {path : Path} {t : Token}
    (found : path.token? operands = some t) :
    ∃ u, path.token? others = some u ∧ alike t u := by
  cases path with
  | direct index =>
    simp only [Path.token?] at found
    split at found
    case h_2 => cases found
    case h_1 _ here =>
      cases found
      obtain ⟨u, there, same⟩ := matching.token_at here
      exact ⟨u, by simp [Path.token?, there], same⟩
  | inner index inside =>
    simp only [Path.token?] at found
    split at found
    case h_2 => cases found
    case h_1 members around =>
      split at found
      case h_2 => cases found
      case h_1 here =>
        cases found
        obtain ⟨membersToo, aroundToo, matchingInside⟩ := matching.group_at around
        obtain ⟨u, there, same⟩ := matchingInside.token_at here
        exact ⟨u, by simp [Path.token?, aroundToo, there], same⟩

end Operand

namespace Param

mutual

/-- Whether a pattern names one of the kinds of plain numbers. -/
def namesNumber : Param → Bool
  | .kind k => k ∈ TokenKind.plainNumbers
  | .group ps => anyNamesNumber ps
  | .register => false
  | .number => false

/-- Whether one of the patterns names one of the kinds of plain numbers. -/
def anyNamesNumber : List Param → Bool
  | [] => false
  | p :: ps => p.namesNumber || anyNamesNumber ps

end

/-- A pattern that names no kind of plain numbers stands for all of them or for none. -/
theorem kind_mem_expand {p : Param} (unnamed : p.namesNumber = false) {kind other : TokenKind}
    (alike : kind.Alike other) (stands : .kind kind ∈ p.expand) : .kind other ∈ p.expand := by
  rcases alike with rfl | ⟨plain, otherPlain⟩
  · exact stands
  · cases p with
    | kind k =>
      obtain rfl : kind = k := by simpa [expand] using stands
      simp [namesNumber, plain] at unnamed
    | group ps => simp [expand] at stands
    | register =>
      have apart : ∀ k ∈ TokenKind.registers, k ∉ TokenKind.plainNumbers := by decide
      exact absurd plain (apart kind (by simpa [expand] using stands))
    | number =>
      have among : ∀ k ∈ TokenKind.plainNumbers, k ∈ TokenKind.numbers := by decide
      simpa [expand] using among other otherPlain

/-- A parameter does not tell related kinds apart: with one of them it stands for the other. -/
def Blind (alike : TokenKind → TokenKind → Prop) (p : Param) : Prop :=
  ∀ kind other, alike kind other → .kind kind ∈ p.expand → .kind other ∈ p.expand

/-- Operands that match fit a pattern alike if no parameter in it tells their kinds apart. -/
theorem params_mem_expandAll_of_blind {alike : TokenKind → TokenKind → Prop}
    {operands others : List Operand}
    (matching : Operand.Matches (fun t u => alike t.kind u.kind) operands others)
    {pattern : List Param} (blind : ∀ p ∈ leavesAll pattern, p.Blind alike)
    (stands : Operand.params operands ∈ expandAll pattern) :
    Operand.params others ∈ expandAll pattern := by
  induction matching generalizing pattern with
  | nil => exact stands
  | token same _ inductionHypothesis =>
    cases pattern with
    | nil => simp [Operand.params, expandAll] at stands
    | cons p ps =>
      rw [leavesAll, List.forall_mem_append] at blind
      obtain ⟨here, behind⟩ := cons_mem_expandAll.mp stands
      rw [Operand.param] at here
      rw [Operand.params, Operand.param]
      refine cons_mem_expandAll.mpr ⟨?_, inductionHypothesis blind.2 behind⟩
      have single : p.leaves = [p] := by
        cases p with
        | group ps => simp [expand] at here
        | kind | register | number => rfl
      exact blind.1 p (by simp [single]) _ _ same here
  | group _ _ inside rest =>
    cases pattern with
    | nil => simp [Operand.params, expandAll] at stands
    | cons p ps =>
      rw [leavesAll, List.forall_mem_append] at blind
      obtain ⟨here, behind⟩ := cons_mem_expandAll.mp stands
      rw [Operand.param] at here
      obtain ⟨members, rfl, membersStand⟩ := group_mem_expand.mp here
      rw [leaves] at blind
      rw [Operand.params, Operand.param]
      refine cons_mem_expandAll.mpr ⟨?_, rest blind.2 behind⟩
      exact group_mem_expand.mpr ⟨members, rfl, inside blind.1 membersStand⟩

mutual

/-- A pattern that names no kind of plain numbers has no parameter that does. -/
theorem forall_leaves_of_namesNumber : (p : Param) → p.namesNumber = false →
    ∀ q ∈ p.leaves, q.namesNumber = false
  | .kind _, unnamed, q, member | .register, unnamed, q, member | .number, unnamed, q, member => by
    rw [leaves] at member
    rwa [List.mem_singleton.mp member]
  | .group ps, unnamed, q, member => by
    rw [leaves] at member
    exact forall_leaves_of_anyNamesNumber ps unnamed q member

/-- Patterns that name no kind of plain numbers have no parameter that does. -/
theorem forall_leaves_of_anyNamesNumber : (ps : List Param) → anyNamesNumber ps = false →
    ∀ q ∈ leavesAll ps, q.namesNumber = false
  | [], _, q, member => by cases member
  | p :: ps, unnamed, q, member => by
    obtain ⟨unnamedHere, unnamedBehind⟩ := Bool.or_eq_false_iff.mp unnamed
    rcases List.mem_append.mp member with here | behind
    · exact forall_leaves_of_namesNumber p unnamedHere q here
    · exact forall_leaves_of_anyNamesNumber ps unnamedBehind q behind

end

/-- A pattern that names no kind of plain numbers does not tell them apart. -/
theorem blind_of_anyNamesNumber {pattern : List Param} (unnamed : anyNamesNumber pattern = false) :
    ∀ p ∈ leavesAll pattern, p.Blind TokenKind.Alike := fun p member _ _ =>
  kind_mem_expand (forall_leaves_of_anyNamesNumber pattern unnamed p member)

end Param

namespace InstructionSet

/-- No form names a kind of plain numbers. -/
theorem forms_name_no_number : ∀ form ∈ operations ++ directives,
    Param.anyNamesNumber form.pattern.params = false := by
  decide +kernel

/-- No pattern of the language names a kind of plain numbers. -/
theorem patterns_name_no_number {rule : Rule} (listed : rule ∈ rules) {pattern : Signature}
    (among : pattern ∈ rule.patterns) : Param.anyNamesNumber pattern.params = false := by
  rcases mem_rules listed with ⟨form, isForm, rfl⟩ | rfl
  · obtain rfl := List.mem_singleton.mp among
    exact forms_name_no_number form isForm
  · obtain rfl := List.mem_singleton.mp among
    rfl

end InstructionSet

/-- What tokens that are alike have in common for an encoding, when their octets and the
failures that are reported at them are to correspond. -/
structure Token.Likeness (alike : Token → Token → Prop) (octets : Octet → Octet → Prop)
    (failures : Failure → Failure → Prop) : Prop where
  kind : ∀ {t u}, alike t u → t.kind.Alike u.kind
  text : ∀ {t u}, alike t u → t.kind ∈ [.index, .status, .string, .newline] → u.text = t.text
  octet : ∀ {t u}, alike t u → Option.Rel octets t.octet? u.octet?
  byte : ∀ value, octets (.byte value) (.byte value)
  datum : ∀ {t u}, alike t u → ∀ found,
    failures (.reported ⟨.badDatum found, t.position⟩) (.reported ⟨.badDatum found, u.position⟩)
  stuck : failures .stuck .stuck

/-- A plain number of data is its octet. -/
theorem Datum.octets_of_plain (position : Position) {t : Token}
    (plain : t.kind ∈ TokenKind.plainNumbers) :
    octets position (.token t) =
      match t.octet? with
      | some octet => .ok [octet]
      | none => .error .stuck := by
  cases kind : t.kind
  case digit | decimal | hexadecimal | character | reference =>
    cases octet : t.octet? <;> simp [octets, kind, octet]
  all_goals simp [kind, TokenKind.plainNumbers] at plain

section Likeness

variable {alike : Token → Token → Prop} {octets : Octet → Octet → Prop}
  {failures : Failure → Failure → Prop} {operands others : List Operand} {pattern : List Param}
  {s other : Statement}

open Operand (Matches)

namespace Token.Likeness

/-- Bytes correspond to themselves. -/
theorem bytes (like : Likeness alike octets failures) (values : List UInt8) :
    List.Forall₂ octets (values.map .byte) (values.map .byte) :=
  List.forall₂_same.mpr fun octet member => by
    obtain ⟨value, _, rfl⟩ := List.mem_map.mp member
    exact like.byte value

/-- A part of a template takes octets that correspond from operands that match. -/
theorem part (like : Likeness alike octets failures) (matching : Matches alike operands others)
    (stands : Operand.params operands ∈ Param.expandAll pattern) {part : Part}
    (fits : part.fits pattern) :
    Option.Rel octets (part.octet? operands) (part.octet? others) := by
  cases part with
  | byte value => exact .some (like.byte value)
  | number path =>
    have here : path.param? pattern = some .number := by simpa [Part.fits] using fits
    obtain ⟨t, found, _⟩ := path.exists_token stands here (by simp [Param.expand])
    obtain ⟨u, foundToo, same⟩ := matching.token?_eq found
    simpa [Part.octet?, found, foundToo] using like.octet same
  | register base path =>
    obtain ⟨kind, here, encodable⟩ := Part.exists_kind_of_fits fits
    obtain ⟨t, found, shape, _⟩ := path.exists_token stands here (by simp [Param.expand])
    obtain rfl : t.kind = kind := by simpa [Param.expand] using shape
    obtain ⟨u, foundToo, same⟩ := matching.token?_eq found
    have listed : t.kind ∈ [.index, .status, .string, .newline] := by
      rcases encodable with kind | kind <;> simp [kind]
    have text : u.text = t.text := like.text same listed
    simp only [Part.octet?, found, foundToo, Option.bind_some, text]
    cases registerCode? base t.text with
    | none => exact .none
    | some code => exact .some (like.byte code)

/-- A template takes octets that correspond from operands that match. -/
theorem template (like : Likeness alike octets failures) (matching : Matches alike operands others)
    (stands : Operand.params operands ∈ Param.expandAll pattern) {template : Template}
    (fits : ∀ part ∈ template, part.fits pattern) :
    Option.Rel (List.Forall₂ octets) (template.fill? operands) (template.fill? others) := by
  induction template with
  | nil => exact .some .nil
  | cons part parts inductionHypothesis =>
    obtain ⟨first, rest⟩ := List.forall_mem_cons.mp fits
    have here := like.part matching stands first
    have behind := inductionHypothesis rest
    rw [Template.fill?, Template.fill?]
    generalize part.octet? operands = octet at here
    generalize part.octet? others = octetToo at here
    generalize Template.fill? parts operands = filled at behind
    generalize Template.fill? parts others = filledToo at behind
    cases here with
    | none => exact .none
    | some same =>
      cases behind with
      | none => exact .none
      | some sameRest => exact .some (.cons same sameRest)

/-- A datum takes octets that correspond, or is refused in corresponding ways. -/
theorem datum_token (like : Likeness alike octets failures) (position positionToo : Position)
    {t u : Token} (same : alike t u) :
    Outcome.Related (List.Forall₂ octets) failures (Datum.octets position (.token t))
      (Datum.octets positionToo (.token u)) := by
  have kinds := like.kind same
  by_cases plain : t.kind ∈ TokenKind.plainNumbers
  · have plainToo : u.kind ∈ TokenKind.plainNumbers := kinds.elim (fun equal => equal ▸ plain) (·.2)
    have octet := like.octet same
    rw [Datum.octets_of_plain position plain, Datum.octets_of_plain positionToo plainToo]
    generalize t.octet? = first at octet
    generalize u.octet? = second at octet
    cases octet with
    | none => exact .error like.stuck
    | some corresponds => exact .ok (.cons corresponds .nil)
  · have equal : u.kind = t.kind := kinds.resolve_right fun both => plain both.1
    cases kind : t.kind <;> simp only [Datum.octets, equal, kind]
    case digit | decimal | hexadecimal | character | reference =>
      simp [kind, TokenKind.plainNumbers] at plain
    case string =>
      rw [like.text same (by simp [kind])]
      exact .ok (like.bytes _)
    case newline =>
      have steps : u.steps = t.steps := by rw [steps, steps, like.text same (by simp [kind])]
      rw [steps, ← List.map_replicate]
      exact .ok (like.bytes _)
    all_goals exact .error (like.datum same _)

/-- Data that match take octets that correspond, or are refused in corresponding ways. -/
theorem data (like : Likeness alike octets failures) (matching : Matches alike operands others)
    {position positionToo : Position}
    (group : failures (.reported ⟨.badDatum .group, position⟩)
      (.reported ⟨.badDatum .group, positionToo⟩)) :
    Outcome.Related (List.Forall₂ octets) failures (Datum.octetsAll position operands)
      (Datum.octetsAll positionToo others) := by
  induction matching with
  | nil => exact .ok .nil
  | token same _ inductionHypothesis =>
    refine (like.datum_token position positionToo same).bind fun first firstToo here => ?_
    refine inductionHypothesis.bind fun rest restToo behind => ?_
    exact .ok (List.rel_append here behind)
  | group _ _ _ _ => exact .error group

end Token.Likeness

/-- Statements that match are encoded by the same encoder if no pattern tells the kinds of their
tokens apart. -/
theorem find?_signature_of_blind {alike : TokenKind → TokenKind → Prop}
    (symmetric : ∀ kind other, alike kind other → alike other kind)
    (blind : ∀ rule ∈ InstructionSet.rules, ∀ pattern ∈ rule.patterns,
      ∀ p ∈ Param.leavesAll pattern.params, p.Blind alike)
    (matching : Matches (fun t u => alike t.kind u.kind) s.operands other.operands)
    (mnemonic : other.mnemonic = s.mnemonic) :
    instructionSet.find? s.signature = instructionSet.find? other.signature := by
  have reverse := matching.symm.mono fun t u => symmetric u.kind t.kind
  unfold Statement.signature
  rw [mnemonic]
  split
  case isTrue => rfl
  case isFalse =>
    refine EncodingTable.find?_registerAll_congr ?_ rfl
    intro rule listed pattern among
    rw [Signature.mem_expand_iff, Signature.mem_expand_iff]
    apply and_congr_right
    intro _
    constructor
    · exact Param.params_mem_expandAll_of_blind matching (blind rule listed pattern among)
    · exact Param.params_mem_expandAll_of_blind reverse (blind rule listed pattern among)

/-- Statements that match are encoded by the same encoder. -/
theorem find?_signature_of_matches
    (matching : Matches (fun t u => t.kind.Alike u.kind) s.operands other.operands)
    (mnemonic : other.mnemonic = s.mnemonic) :
    instructionSet.find? s.signature = instructionSet.find? other.signature :=
  find?_signature_of_blind (fun _ _ => TokenKind.Alike.symm)
    (fun _ listed _ among =>
      Param.blind_of_anyNamesNumber (InstructionSet.patterns_name_no_number listed among))
    matching mnemonic

/-- Statements that match have octets that correspond, or are refused in corresponding
ways. -/
theorem encode_of_matches (like : Token.Likeness alike octets failures)
    (matching : Matches alike s.operands other.operands) (mnemonic : other.mnemonic = s.mnemonic)
    (unknown : failures (.reported ⟨.unknownForm s.signature, s.position⟩)
      (.reported ⟨.unknownForm other.signature, other.position⟩))
    (group : failures (.reported ⟨.badDatum .group, s.position⟩)
      (.reported ⟨.badDatum .group, other.position⟩)) :
    Outcome.Related (List.Forall₂ octets) failures (instructionSet.encode s)
      (instructionSet.encode other) := by
  have sameEncoder := find?_signature_of_matches
    (matching.mono fun t u same => like.kind same) mnemonic
  cases found : instructionSet.find? s.signature with
  | none =>
    rw [EncodingTable.encode_of_find?_eq_none found,
      EncodingTable.encode_of_find?_eq_none (sameEncoder.symm.trans found)]
    exact .error unknown
  | some encoder =>
    rw [EncodingTable.encode_of_find? found,
      EncodingTable.encode_of_find? (sameEncoder.symm.trans found)]
    cases knows_of_find? found with
    | @form form listed _ stands =>
      have filled := like.template matching stands (InstructionSet.forms_fit form listed).2
      simp only [Template.encoder]
      generalize form.template.fill? s.operands = first at filled
      generalize form.template.fill? other.operands = second at filled
      cases filled with
      | none => exact .error like.stuck
      | some same => exact .ok same
    | data => exact like.data matching group

end Likeness

end BankAsm
