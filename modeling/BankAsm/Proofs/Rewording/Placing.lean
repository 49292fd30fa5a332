import BankAsm.Assembly
import BankAsm.Proofs.Encoding.Matching
import BankAsm.Proofs.Rewording.Basic

/-!
# Placing in other words

A statement in other words is encoded to its octets in other words (`encode_statement`),
since it is looked up by its mnemonic and its shape. It is placed where it was placed
before, and gives the same byte to a label of another name (`place_statement`): names are
compared with names alone, and no two of them become the same.
-/

namespace BankAsm.Rewording

variable (w : Rewording)

section Encoding

/-- Operands match what they are in other words. -/
theorem matches_operandAll : (operands : List Operand) →
    Operand.Matches (fun t u => u = w.token t) operands (w.operandAll operands)
  | [] => .nil
  | .token t :: rest => by
    rw [operandAll, operand]
    exact .token rfl (matches_operandAll rest)
  | .group inner :: rest => by
    rw [operandAll, operand]
    exact .group (matches_operandAll inner) (matches_operandAll rest)

/-- The octet of a token in other words. -/
theorem octet?_token (t : Token) : (w.token t).octet? = t.octet?.map w.octet := by
  obtain ⟨kind, text, position⟩ := t
  have plain (other : kind.isName = false) :
      (w.token ⟨kind, text, position⟩).value? = Token.value? ⟨kind, text, position⟩ := by
    rw [Token.value?, Token.value?, w.text_token other, kind_token]
  cases kind
  case reference | loop | skip => rfl
  all_goals
    simp only [Token.octet?, kind_token, Option.map_map]
    first
    | rw [plain rfl]; rfl
    | rfl

/-- Tokens are like what they are in other words. -/
theorem likeness : Token.Likeness (fun t u => u = w.token t) (fun o p => p = w.octet o)
    (fun f g => g = w.failure f) where
  kind := by
    rintro t _ rfl
    exact .inl rfl
  text := by
    rintro t _ rfl kind
    refine w.text_token ?_
    revert kind
    cases t.kind <;> decide
  octet := by
    rintro t _ rfl
    rw [octet?_token]
    cases t.octet? with
    | none => exact .none
    | some octet => exact .some rfl
  byte _ := rfl
  datum := by
    rintro t _ rfl found
    rfl
  stuck := rfl

/-- Octets that correspond one by one are the octets in other words. -/
theorem eq_map_of_forall₂ {code others : List Octet}
    (correspond : List.Forall₂ (fun o p => p = w.octet o) code others) :
    others = code.map w.octet := by
  induction correspond with
  | nil => rfl
  | cons same _ inductionHypothesis => rw [List.map_cons, same, inductionHypothesis]

/-- A statement in other words is encoded to its octets in other words. -/
theorem encode_statement (s : Statement) :
    instructionSet.encode (w.statement s) =
      Outcome.change w.failure (List.map w.octet) (instructionSet.encode s) := by
  have matching : Operand.Matches (fun t u => u = w.token t) s.operands
      (w.statement s).operands := by
    rw [operands_statement, ← operandAll_eq_map]
    exact w.matches_operandAll s.operands
  have related := encode_of_matches w.likeness matching rfl
    (by simp [failure, diagnostic, cause]) rfl
  exact Outcome.related_change_iff.mp
    (related.mono (fun _ _ => w.eq_map_of_forall₂) fun _ _ same => same)

end Encoding

section Labels

/-- What is looked up under another name. -/
@[simp] theorem find?_table (labels : LabelTable) (name : String) :
    (w.table labels).find? (w.name name) = labels.find? name := by
  obtain ⟨es⟩ := labels
  simp only [LabelTable.find?, table, entries]
  induction es with
  | nil => rfl
  | cons entry es inductionHypothesis =>
    have same : (w.name name == w.name entry.1) = (name == entry.1) := by
      simp [Bool.beq_eq_decide_eq, w.injective.eq_iff]
    rw [List.map_cons, List.lookup_cons, List.lookup_cons, same, inductionHypothesis]

/-- A name is bound under another name. -/
theorem insert_table (labels : LabelTable) (name : String) (value : UInt8) :
    (w.table labels).insert (w.name name) value = w.table (labels.insert name value) := by
  obtain ⟨es⟩ := labels
  simp only [LabelTable.insert, table, LabelTable.mk.injEq, entries]
  induction es with
  | nil => rfl
  | cons entry es inductionHypothesis =>
    simp only [List.map_cons, LabelTable.insertEntry, w.injective.eq_iff]
    split
    · rfl
    · rw [List.map_cons, inductionHypothesis]

/-- The table of entries with other names. -/
theorem ofList_entries (es : List (String × UInt8)) :
    LabelTable.ofList (w.entries es) = w.table (LabelTable.ofList es) := by
  induction es using List.reverseRecOn with
  | nil => rfl
  | append_singleton es entry inductionHypothesis =>
    have split : w.entries (es ++ [entry]) = w.entries es ++ [(w.name entry.1, entry.2)] := by
      simp [entries]
    rw [split, LabelTable.ofList_concat, inductionHypothesis, insert_table,
      ← LabelTable.ofList_concat]

/-- The layout in front of the first statement, with other names. -/
theorem start_entries (banks : Nat) (seeds : List (String × UInt8)) :
    Layout.start banks (w.entries seeds) = w.layout (Layout.start banks seeds) := by
  rw [Layout.start, ofList_entries]
  rfl

end Labels

section Layout

variable (l : Layout)

/-- What is placed, and the layout behind it, in other words. -/
def placing (p : Placing) : Placing :=
  ⟨w.layout p.layout, Outcome.change w.diagnostic w.placed p.outcome⟩

theorem constant_octet (o : Octet) :
    (w.layout l).constant (w.octet o) = Outcome.change w.diagnostic id (l.constant o) := by
  cases o with
  | byte value => rfl
  | label name position =>
    simp only [octet, Layout.constant, layout, find?_table]
    cases l.labels.find? name <;> rfl
  | vector direction steps position => rfl

theorem constants_octets (code : List Octet) :
    (w.layout l).constants (code.map w.octet) =
      Outcome.change w.diagnostic id (l.constants code) := by
  induction code with
  | nil => rfl
  | cons first rest inductionHypothesis =>
    rw [List.map_cons, Layout.constants, Layout.constants, constant_octet, inductionHypothesis]
    cases l.constant first with
    | error d => rfl
    | ok value => cases l.constants rest <;> rfl

theorem bind_label (label : Label) (value : UInt8) :
    (w.layout l).bind (w.label label) value =
      Outcome.change w.diagnostic w.layout (l.bind label value) := by
  simp only [Layout.bind, LabelTable.contains, Rewording.label, layout, find?_table, insert_table]
  by_cases contained : (l.labels.find? label.name).isSome
  · simp only [contained, if_true]
    rfl
  · simp only [contained, Bool.false_eq_true, if_false]
    rfl

theorem bindHere_statement (s : Statement) :
    (w.layout l).bindHere (w.statement s) =
      Outcome.change w.diagnostic w.layout (l.bindHere s) := by
  simp only [Layout.bindHere, label_statement]
  cases s.label with
  | none => rfl
  | some label =>
    have address : (w.layout l).address = l.address := rfl
    simp only [Option.map_some, address, bind_label]
    by_cases room : l.address < bankSize
    · simp only [room, if_true]
    · simp only [room, if_false]
      rfl

theorem malformed_statement (s : Statement) :
    Layout.malformed (w.statement s) = w.diagnostic (Layout.malformed s) := by
  simp [Layout.malformed, diagnostic, cause]

theorem move_layout (relocation : Relocation) :
    (w.layout l).move relocation = w.layout (l.move relocation) := by
  cases relocation <;> rfl

theorem assign_statement (s : Statement) (code : List Octet) :
    (w.layout l).assign (w.statement s) (code.map w.octet) =
      Outcome.change w.diagnostic w.layout (l.assign s code) := by
  match code with
  | [] | _ :: _ :: _ =>
    simp only [List.map_nil, List.map_cons, Layout.assign, malformed_statement,
      Outcome.change_error]
  | [o] =>
    simp only [List.map_cons, List.map_nil, Layout.assign, constant_octet, label_statement]
    cases l.constant o with
    | error d => rfl
    | ok value =>
      cases s.label with
      | none => rfl
      | some label => exact w.bind_label l label value

theorem ofBytes?_octet (mode : Octet) (values : List UInt8) :
    Relocation.ofBytes? (w.octet mode) values = Relocation.ofBytes? mode values := by
  cases mode <;> rfl

theorem relocate_statement (s : Statement) (code : List Octet) :
    (w.layout l).relocate (w.statement s) (code.map w.octet) =
      Outcome.change w.diagnostic w.layout (l.relocate s code) := by
  cases code with
  | nil => simp only [List.map_nil, Layout.relocate, malformed_statement, Outcome.change_error]
  | cons mode code =>
    simp only [List.map_cons, Layout.relocate, constants_octets]
    cases l.constants code with
    | error d => rfl
    | ok values =>
      simp only [Outcome.change_ok, id, bind, Except.bind, ofBytes?_octet]
      cases Relocation.ofBytes? mode values with
      | none => exact congrArg Except.error (w.malformed_statement s)
      | some relocation => exact congrArg Except.ok (w.move_layout l relocation)

theorem placeAssign_statement (s : Statement) (code : List Octet) :
    (w.layout l).placeAssign (w.statement s) (code.map w.octet) =
      w.placing (l.placeAssign s code) := by
  rw [Layout.placeAssign, Layout.placeAssign, assign_statement]
  cases l.assign s code <;> rfl

theorem placeLocate_statement (s : Statement) (code : List Octet) :
    (w.layout l).placeLocate (w.statement s) (code.map w.octet) =
      w.placing (l.placeLocate s code) := by
  rw [Layout.placeLocate, Layout.placeLocate, relocate_statement]
  cases l.relocate s code with
  | error d => rfl
  | ok moved =>
    simp only [Outcome.change_ok, bindHere_statement]
    by_cases populated : moved.bank < moved.banks
    · have populatedToo : (w.layout moved).bank < (w.layout moved).banks := populated
      simp only [populated, populatedToo, if_true]
      cases moved.bindHere s <;> rfl
    · have unpopulated : ¬(w.layout moved).bank < (w.layout moved).banks := populated
      simp only [populated, unpopulated, if_false]
      rfl

theorem placeOctets_statement (s : Statement) (code : List Octet) :
    (w.layout l).placeOctets (w.statement s) (code.map w.octet) =
      w.placing (l.placeOctets s code) := by
  rw [Layout.placeOctets, Layout.placeOctets, bindHere_statement]
  cases l.bindHere s with
  | error d => rfl
  | ok bound =>
    simp only [Outcome.change_ok, List.length_map]
    have address : (w.layout bound).address = bound.address := rfl
    simp only [address]
    by_cases fits : bound.address + code.length ≤ bankSize
    · simp only [fits, if_true]
      rfl
    · simp only [fits, if_false]
      rfl

/-- A statement in other words takes the same place, or is refused there for the same
reason. -/
theorem place_statement (s : Statement) (code : List Octet) :
    (w.layout l).place (w.statement s) (code.map w.octet) = w.placing (l.place s code) := by
  rw [Layout.place, Layout.place, role_statement]
  cases s.role with
  | assign => exact w.placeAssign_statement l s code
  | locate => exact w.placeLocate_statement l s code
  | emit => exact w.placeOctets_statement l s code

end Layout

end BankAsm.Rewording
