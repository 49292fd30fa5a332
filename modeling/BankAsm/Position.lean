/-!
# Positions

A position is where a diagnostic points: a line and a column, both counted from
one. `Position.after` is the position behind a run of characters, and it splits
over concatenation.
-/

namespace BankAsm

/-- A line and a column of a source. Every character that may stand in a source
is one byte long, so columns count bytes as well as characters. -/
structure Position where
  line : Nat
  column : Nat
deriving DecidableEq

namespace Position

/-- The position of the first character. -/
def start : Position := ⟨1, 1⟩

/-- The position of a token that stands in no source. -/
def nowhere : Position := ⟨0, 0⟩

instance : Inhabited Position := ⟨nowhere⟩

/-- The position behind one character: a newline opens the next line. -/
def step (position : Position) (c : Char) : Position :=
  if c = '\n' then ⟨position.line + 1, 1⟩ else ⟨position.line, position.column + 1⟩

/-- The position behind a run of characters. -/
def after (position : Position) (passed : List Char) : Position :=
  passed.foldl step position

@[simp] theorem after_nil (position : Position) : position.after [] = position := rfl

@[simp] theorem after_cons (position : Position) (c : Char) (passed : List Char) :
    position.after (c :: passed) = (position.step c).after passed := rfl

@[simp] theorem after_append (position : Position) (first second : List Char) :
    position.after (first ++ second) = (position.after first).after second := by
  simp [after]

/-- The written form, line before column. -/
def text (position : Position) : String :=
  toString position.line ++ ":" ++ toString position.column

end Position

end BankAsm
