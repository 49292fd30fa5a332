import BankAsm.Program
import BankAsm.Proofs.Feed
import BankAsm.Proofs.LabelTable
import BankAsm.Proofs.Outcome
import BankAsm.Proofs.Position

/-!
# Rewordings

A rewording gives labels other names, no two of them the same, and moves everything to
other positions. It acts on all that a source is turned into: on tokens and statements, on
octets, on diagnostics, on label tables and layouts, and on what is placed. Nothing else of
them is changed, so neither is what a statement is looked up by.
-/

namespace BankAsm

/-- Whether the text of a token is the name of a label. -/
def TokenKind.isName : TokenKind → Bool
  | .reference | .assignment => true
  | _ => false

/-- Other names for labels and other positions. No two names become the same. -/
structure Rewording where
  name : String → String
  place : Position → Position
  injective : Function.Injective name

namespace Rewording

/-- The names as they are, so many lines further down. -/
def down (lines : Nat) : Rewording := ⟨id, Position.down lines, Function.injective_id⟩

/-- Other names, and no positions. -/
def unplaced (name : String → String) (injective : Function.Injective name) : Rewording :=
  ⟨name, fun _ => .nowhere, injective⟩

/-- The names as they are, and no positions. -/
def bare : Rewording := unplaced id Function.injective_id

variable (w : Rewording)

/-- The token in other words. -/
def token (t : Token) : Token :=
  ⟨t.kind, if t.kind.isName then w.name t.text else t.text, w.place t.position⟩

/-- The label in other words. -/
def label (l : Label) : Label := ⟨w.name l.name, w.place l.position⟩

mutual

/-- The operand in other words. -/
def operand : Operand → Operand
  | .token t => .token (w.token t)
  | .group operands => .group (operandAll operands)

/-- The operands in other words. -/
def operandAll : List Operand → List Operand
  | [] => []
  | o :: os => operand o :: operandAll os

end

/-- The statement in other words. -/
def statement (s : Statement) : Statement :=
  ⟨s.label.map w.label, s.mnemonic, w.place s.position, s.operands.map w.operand⟩

/-- The octet in other words. -/
def octet : Octet → Octet
  | .byte value => .byte value
  | .label name position => .label (w.name name) (w.place position)
  | .vector direction steps position => .vector direction steps (w.place position)

/-- The cause in other words. -/
def cause : Cause → Cause
  | .duplicateLabel name => .duplicateLabel (w.name name)
  | .unassignedLabel name => .unassignedLabel (w.name name)
  | .undefinedLabel name => .undefinedLabel (w.name name)
  | other => other

/-- The diagnostic in other words. -/
def diagnostic (d : Diagnostic) : Diagnostic := ⟨w.cause d.cause, w.place d.position⟩

/-- The failure in other words. -/
def failure : Failure → Failure
  | .reported d => .reported (w.diagnostic d)
  | .stuck => .stuck

/-- The entries of label tables with other names. -/
def entries (es : List (String × UInt8)) : List (String × UInt8) :=
  es.map fun e => (w.name e.1, e.2)

/-- The label table with other names. -/
def table (labels : LabelTable) : LabelTable := ⟨w.entries labels.entries⟩

/-- The layout with other names. -/
def layout (l : Layout) : Layout := { l with labels := w.table l.labels }

/-- What is placed, in other words. -/
def placed (p : Placed) : Placed :=
  ⟨w.statement p.statement, p.bank, p.address, p.code.map w.octet⟩

/-- The cell in other words. -/
def cell (c : Cell) : Cell := ⟨c.index, w.placed c.owner, c.address, w.octet c.octet⟩

/-- The program in other words. -/
def program (p : Program) : Program := ⟨p.placed.map w.placed, w.table p.labels, p.banks⟩

/-- The statements that are read of a source, in other words. -/
def statements : Feed Diagnostic Statement → Feed Diagnostic Statement :=
  Feed.change w.diagnostic w.statement

@[simp] theorem kind_token (t : Token) : (w.token t).kind = t.kind := rfl

/-- Only the names of labels are other texts. -/
theorem text_token {t : Token} (other : t.kind.isName = false) : (w.token t).text = t.text := by
  simp [token, other]

theorem operandAll_eq_map (operands : List Operand) :
    w.operandAll operands = operands.map w.operand := by
  induction operands with
  | nil => rfl
  | cons o os inductionHypothesis => rw [operandAll, inductionHypothesis, List.map_cons]

/-- Operands are the same in the same words at the same positions. -/
theorem operandAll_of_same (names : w.name = id) (places : w.place = id) :
    (operands : List Operand) → w.operandAll operands = operands
  | [] => rfl
  | .token t :: rest => by
    rw [operandAll, operand, operandAll_of_same names places rest]
    simp [token, names, places]
  | .group inner :: rest => by
    rw [operandAll, operand, operandAll_of_same names places inner,
      operandAll_of_same names places rest]

/-- Statements are the same in the same words at the same positions. -/
theorem statement_of_same (names : w.name = id) (places : w.place = id) (s : Statement) :
    w.statement s = s := by
  obtain ⟨label, mnemonic, position, operands⟩ := s
  have same := w.operandAll_of_same names places operands
  rw [operandAll_eq_map] at same
  simp only [statement, same, places, id]
  cases label <;> simp [Rewording.label, names, places]

@[simp] theorem operand_token (t : Token) : w.operand (.token t) = .token (w.token t) := by
  rw [operand]

@[simp] theorem operand_group (operands : List Operand) :
    w.operand (.group operands) = .group (operands.map w.operand) := by
  rw [operand, operandAll_eq_map]

@[simp] theorem mnemonic_statement (s : Statement) : (w.statement s).mnemonic = s.mnemonic := rfl

@[simp] theorem position_statement (s : Statement) :
    (w.statement s).position = w.place s.position := rfl

@[simp] theorem label_statement (s : Statement) :
    (w.statement s).label = s.label.map w.label := rfl

@[simp] theorem operands_statement (s : Statement) :
    (w.statement s).operands = s.operands.map w.operand := rfl

@[simp] theorem role_statement (s : Statement) : (w.statement s).role = s.role := rfl

mutual

/-- A rewording leaves the shape of an operand. -/
theorem param_operand : (o : Operand) → (w.operand o).param = o.param
  | .token t => by simp [Operand.param]
  | .group operands => by
    rw [operand, Operand.param, Operand.param, params_operandAll operands]

/-- A rewording leaves the shapes of operands. -/
theorem params_operandAll :
    (operands : List Operand) → Operand.params (w.operandAll operands) = Operand.params operands
  | [] => rfl
  | o :: os => by
    rw [operandAll, Operand.params, Operand.params, param_operand o, params_operandAll os]

end

@[simp] theorem params_operands (operands : List Operand) :
    Operand.params (operands.map w.operand) = Operand.params operands := by
  rw [← operandAll_eq_map, params_operandAll]

@[simp] theorem signature_statement (s : Statement) : (w.statement s).signature = s.signature := by
  simp [Statement.signature]

/-- What is read is the same in the same words at the same positions. -/
theorem statements_of_same (names : w.name = id) (places : w.place = id)
    (feed : Feed Diagnostic Statement) : w.statements feed = feed := by
  obtain ⟨items, failure⟩ := feed
  have causes : w.cause = id := by
    funext c
    cases c <;> simp [cause, names]
  have diagnostics : w.diagnostic = id := by
    funext d
    simp [diagnostic, causes, places]
  have same : w.statement = id := funext (w.statement_of_same names places)
  simp [statements, Feed.change, same, diagnostics]

/-- A label table whose labels keep their names is the same. -/
theorem table_of_name_eq_id (names : w.name = id) (labels : LabelTable) :
    w.table labels = labels := by
  simp [table, entries, names]

/-- A layout whose labels keep their names is the same. -/
theorem layout_of_name_eq_id (names : w.name = id) (l : Layout) : w.layout l = l := by
  rw [layout, w.table_of_name_eq_id names]

/-- A rewording leaves the kind of a cause. -/
@[simp] theorem kind_cause (c : Cause) : (w.cause c).kind = c.kind := by
  cases c <;> rfl

/-- A rewording leaves the kind of a failure. -/
@[simp] theorem kind?_failure (f : Failure) : (w.failure f).kind? = f.kind? := by
  cases f with
  | reported d => simp [failure, diagnostic, Failure.kind?, Diagnostic.kind]
  | stuck => rfl

end Rewording

end BankAsm
