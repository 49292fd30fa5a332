import BankAsm.Proofs.Assembly.Labels
import BankAsm.Proofs.Encoding.Matching

/-!
# Numbers in other spellings

A number is restated by a constant of the same byte, and a label by a constant of the byte
that it has in the end. A statement with some of its numbers restated takes the same place,
and the same number of octets (`exists_placeAll_of_restates`): what a directive reads of a
label on the way is what the label has in the end.
-/

namespace BankAsm

/-- A token in another spelling: the same one, a constant of the same byte, or a constant of
the byte of a label in its place. -/
inductive Token.Restates (labels : LabelTable) (t u : Token) : Prop where
  | same
      (kind : u.kind = t.kind)
      (text : u.text = t.text)
  | constant
      (constant : t.kind.isConstant)
      (restated : u.kind.isConstant)
      (value : u.value? = t.value?)
  | label {value}
      (reference : t.kind = .reference)
      (restated : u.kind.isConstant)
      (found : labels.find? t.text = some value)
      (value : u.value? = some value)

/-- An octet in another spelling. -/
inductive Octet.Restates (labels : LabelTable) : Octet → Octet → Prop where
  | byte (value : UInt8) : Restates labels (.byte value) (.byte value)
  | label (name : String) (position other : Position) :
      Restates labels (.label name position) (.label name other)
  | vector (direction : Direction) (steps : Nat) (position other : Position) :
      Restates labels (.vector direction steps position) (.vector direction steps other)
  | settled {name position value}
      (found : labels.find? name = some value) :
      Restates labels (.label name position) (.byte value)

/-- A statement with tokens of its operands in other spellings. -/
structure Statement.Restates (labels : LabelTable) (s other : Statement) : Prop where
  label : other.label.map (·.name) = s.label.map (·.name)
  mnemonic : other.mnemonic = s.mnemonic
  operands : Operand.Matches (Token.Restates labels) s.operands other.operands

/-- A statement at the place of another one, with octets in other spellings. -/
structure Placed.Restates (labels : LabelTable) (placed other : Placed) : Prop where
  mnemonic : other.statement.mnemonic = placed.statement.mnemonic
  bank : other.bank = placed.bank
  address : other.address = placed.address
  code : List.Forall₂ (Octet.Restates labels) placed.code other.code

section Encoding

variable {labels : LabelTable}

/-- Constants are plain numbers that stand for themselves. -/
theorem Token.octet?_of_isConstant {t : Token} (constant : t.kind.isConstant) :
    t.octet? = t.value?.map .byte ∧ t.kind ∈ TokenKind.plainNumbers := by
  cases kind : t.kind <;> simp_all [octet?, TokenKind.isConstant, TokenKind.plainNumbers]

/-- Tokens are like what they are in other spellings. -/
theorem likeness_restates (labels : LabelTable) :
    Token.Likeness (Token.Restates labels) (Octet.Restates labels) fun _ _ => True where
  kind := by
    intro t u restates
    cases restates with
    | same kind => exact .inl kind
    | constant constant restated =>
      exact .inr ⟨(Token.octet?_of_isConstant constant).2, (Token.octet?_of_isConstant restated).2⟩
    | label reference restated =>
      exact .inr ⟨by simp [reference, TokenKind.plainNumbers],
        (Token.octet?_of_isConstant restated).2⟩
  text := by
    intro t u restates listed
    cases restates with
    | same _ text => exact text
    | constant constant => cases kind : t.kind <;> simp_all [TokenKind.isConstant]
    | label reference => simp [reference] at listed
  octet := by
    intro t u restates
    cases restates with
    | same kind text =>
      have value : u.value? = t.value? := by rw [Token.value?, Token.value?, kind, text]
      have steps : u.steps = t.steps := by rw [Token.steps, Token.steps, text]
      unfold Token.octet?
      rw [kind, value, steps, text]
      split
      · exact .some (.label _ _ _)
      · exact .some (.vector _ _ _ _)
      · exact .some (.vector _ _ _ _)
      · cases t.value? with
        | none => exact .none
        | some value => exact .some (.byte value)
    | constant constant restated value =>
      rw [(Token.octet?_of_isConstant constant).1, (Token.octet?_of_isConstant restated).1, value]
      cases t.value? with
      | none => exact .none
      | some value => exact .some (.byte value)
    | label reference restated found value =>
      rw [(Token.octet?_of_isConstant restated).1, value]
      simp only [Token.octet?, reference]
      exact .some (.settled found)
  byte := .byte
  datum := by
    intros
    trivial
  stuck := trivial

/-- A statement that is encoded has octets in other spellings when its numbers are
restated. -/
theorem exists_encode_of_restates {s other : Statement} (restates : s.Restates labels other)
    {code : List Octet} (encoded : instructionSet.encode s = .ok code) :
    ∃ codeToo, instructionSet.encode other = .ok codeToo ∧
      List.Forall₂ (Octet.Restates labels) code codeToo := by
  have related := encode_of_matches (likeness_restates labels) restates.operands
    restates.mnemonic trivial trivial
  rw [encoded] at related
  generalize instructionSet.encode other = result at related
  cases related with
  | ok same => exact ⟨_, rfl, same⟩

end Encoding

section Placing

variable {labels : LabelTable} {layout after : Layout}

open Layout (Places)

/-- An octet in another spelling is the same constant, if the labels so far keep their
bytes. -/
theorem constant_of_restates (grows : layout.labels.Grows labels) {o p : Octet} {value : UInt8}
    (restates : o.Restates labels p) (known : layout.constant o = .ok value) :
    layout.constant p = .ok value := by
  cases restates with
  | byte => exact known
  | label =>
    obtain same | ⟨_, _, same, found⟩ := Layout.constant_cases known
    · cases same
    · cases same
      simp [Layout.constant, found]
  | vector => cases known
  | settled found =>
    obtain same | ⟨_, _, same, foundHere⟩ := Layout.constant_cases known
    · cases same
    · cases same
      rw [grows.find?_eq foundHere] at found
      exact congrArg Except.ok (Option.some.inj found).symm

/-- Octets in other spellings are the same constants. -/
theorem constants_of_restates (grows : layout.labels.Grows labels) {code codeToo : List Octet}
    {values : List UInt8} (restates : List.Forall₂ (Octet.Restates labels) code codeToo)
    (known : layout.constants code = .ok values) : layout.constants codeToo = .ok values := by
  induction restates generalizing values with
  | nil => exact known
  | cons first _ inductionHypothesis =>
    obtain ⟨value, here, behind⟩ := Outcome.bind_eq_ok_iff.mp known
    obtain ⟨others, knownOthers, same⟩ := Outcome.bind_eq_ok_iff.mp behind
    rw [Layout.constants, constant_of_restates grows first here, inductionHypothesis knownOthers]
    exact same

/-- A statement in another spelling takes the same place. -/
theorem exists_places_of_restates {s other : Statement} (restates : s.Restates labels other)
    (grows : layout.labels.Grows labels) {code codeToo : List Octet}
    (octets : List.Forall₂ (Octet.Restates labels) code codeToo) {placed : Placed}
    (places : Places layout s code after placed) :
    ∃ placedToo, Places layout other codeToo after placedToo ∧
      placed.Restates labels placedToo := by
  have role : other.role = s.role := by rw [Statement.role, Statement.role, restates.mnemonic]
  have labelled : other.label.isSome = s.label.isSome := by
    simpa using congrArg Option.isSome restates.label
  cases places with
  | assign isAssign spelled known bound =>
    subst spelled
    obtain ⟨octetToo, _, same, none, rfl⟩ := List.forall₂_cons_left_iff.mp octets
    obtain rfl := List.forall₂_nil_left_iff.mp none
    exact ⟨_, .assign (role.trans isAssign) rfl (constant_of_restates grows same known)
      (bound.congr restates.label), restates.mnemonic, rfl, rfl, .nil⟩
  | locate isLocate spelled known relocates target populated room bound =>
    subst spelled
    obtain ⟨modeToo, octetsToo, same, others, rfl⟩ := List.forall₂_cons_left_iff.mp octets
    obtain ⟨byte, rfl⟩ := Layout.mode_of_ofBytes? relocates
    cases same
    exact ⟨_, .locate (role.trans isLocate) rfl (constants_of_restates grows others known)
      relocates target populated (by rwa [labelled]) (bound.congr restates.label),
      restates.mnemonic, rfl, rfl, .nil⟩
  | emit isEmit room fits bound =>
    have length := octets.length_eq
    rw [length] at fits ⊢
    exact ⟨_, .emit (role.trans isEmit) (by rwa [labelled]) fits (bound.congr restates.label),
      restates.mnemonic, rfl, rfl, octets⟩

namespace Assembly

/-- A statement in another spelling is placed like the first one. -/
theorem exists_placeNext_of_restates {s other : Statement} (restates : s.Restates labels other)
    {placed : Placed} (step : placeNext instructionSet layout s = (after, .ok placed))
    (grows : after.labels.Grows labels) :
    ∃ placedToo, placeNext instructionSet layout other = (after, .ok placedToo) ∧
      placed.Restates labels placedToo := by
  obtain ⟨code, encoded, places⟩ := placeNext_eq_ok_iff.mp step
  obtain ⟨codeToo, encodedToo, octets⟩ := exists_encode_of_restates restates encoded
  obtain ⟨_, bound, _⟩ := places.binds
  obtain ⟨placedToo, placesToo, same⟩ :=
    exists_places_of_restates restates (bound.grows.trans grows) octets places
  exact ⟨placedToo, placeNext_eq_ok_iff.mpr ⟨codeToo, encodedToo, placesToo⟩, same⟩

/-- Statements in other spellings are placed like the first ones. -/
theorem exists_placeAll_of_restates {items others : List Statement}
    (restates : List.Forall₂ (Statement.Restates labels) items others) {placed : List Placed}
    (placing : placeAll instructionSet layout items = .ok (after, placed))
    (grows : after.labels.Grows labels) :
    ∃ placedToo, placeAll instructionSet layout others = .ok (after, placedToo) ∧
      List.Forall₂ (Placed.Restates labels) placed placedToo := by
  induction restates generalizing layout placed with
  | nil =>
    cases placing
    exact ⟨[], rfl, .nil⟩
  | cons first rest inductionHypothesis =>
    obtain ⟨next, here, behind, step, placingRest, rfl⟩ := placeAll_cons_eq_ok_iff.mp placing
    have further : next.labels.Grows after.labels := (pulls_of_placeAll none placingRest).grows
    obtain ⟨hereToo, stepToo, sameHere⟩ :=
      exists_placeNext_of_restates first step (further.trans grows)
    obtain ⟨behindToo, placingToo, sameBehind⟩ := inductionHypothesis placingRest
    exact ⟨hereToo :: behindToo,
      placeAll_cons_eq_ok_iff.mpr ⟨next, hereToo, behindToo, stepToo, placingToo, rfl⟩,
      .cons sameHere sameBehind⟩

end Assembly

end Placing

end BankAsm
