/-!
# Feeds

A feed is a sequence that may break off: the items up to the break, and what
broke it. Reading a source in stages keeps the items of a stage in front of the
failure of an earlier one.
-/

namespace BankAsm

/-- Items in order, and what cut them short if anything did. -/
structure Feed (ε α : Type) where
  items : List α
  failure : Option ε
deriving DecidableEq

namespace Feed

variable {ε α β : Type}

/-- The feed that is over. -/
def done : Feed ε α := ⟨[], none⟩

/-- The feed that breaks off at once. -/
def fail (e : ε) : Feed ε α := ⟨[], some e⟩

/-- A feed with one more item in front. -/
def cons (a : α) (rest : Feed ε α) : Feed ε α := ⟨a :: rest.items, rest.failure⟩

/-- Runs a reading over a list up to the first item that it has no result for:
`ok none` ends the feed and an error breaks it off. -/
def ofResults (read : α → Except ε (Option β)) : List α → Feed ε β
  | [] => done
  | a :: as =>
    match read a with
    | .ok (some b) => cons b (ofResults read as)
    | .ok none => done
    | .error e => fail e

@[simp] theorem items_cons (a : α) (rest : Feed ε α) : (cons a rest).items = a :: rest.items := rfl

@[simp] theorem failure_cons (a : α) (rest : Feed ε α) : (cons a rest).failure = rest.failure := rfl

end Feed

end BankAsm
