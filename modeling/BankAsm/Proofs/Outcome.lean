import BankAsm.Diagnostic

/-!
# Outcomes

A computation with an error has a result exactly when each of its parts has one. Its
result and its error can be changed (`change`), and two outcomes can be compared by how
their results and how their errors are related (`Related`). Failures may be related by
their kind (`Failure.SameKind`): they report causes of the same kind, or neither reports
anything.
-/

namespace BankAsm.Failure

/-- The kind of what is reported, if anything is. -/
def kind? : Failure → Option CauseKind
  | .reported diagnostic => some diagnostic.kind
  | .stuck => none

/-- Failures of the same kind. -/
def SameKind (first second : Failure) : Prop := second.kind? = first.kind?

end BankAsm.Failure

namespace BankAsm.Outcome

variable {ε δ α β γ ζ : Type}

/-- A computation in two parts has a result when the first part has one that the
second part goes on from. -/
theorem bind_eq_ok_iff {first : Except ε α} {second : α → Except ε β} {result : β} :
    (first >>= second) = .ok result ↔
      ∃ middle, first = .ok middle ∧ second middle = .ok result := by
  cases first with
  | error e => simp [bind, Except.bind]
  | ok middle => simp [bind, Except.bind]

/-- A computation in two parts fails when one of the parts fails. -/
theorem bind_eq_error_iff {first : Except ε α} {second : α → Except ε β} {e : ε} :
    (first >>= second) = .error e ↔
      first = .error e ∨ ∃ middle, first = .ok middle ∧ second middle = .error e := by
  cases first with
  | error other => simp [bind, Except.bind]
  | ok middle => simp [bind, Except.bind]

/-- A computation whose result is changed has a result when it had one before. -/
theorem map_eq_ok_iff {first : Except ε α} {change : α → β} {result : β} :
    first.map change = .ok result ↔ ∃ middle, first = .ok middle ∧ change middle = result := by
  cases first with
  | error e => simp [Except.map]
  | ok middle => simp [Except.map]

/-- Changing the result of a computation leaves its error. -/
theorem map_eq_error_iff {first : Except ε α} {change : α → β} {e : ε} :
    first.map change = .error e ↔ first = .error e := by
  cases first with
  | error e => simp [Except.map]
  | ok middle => simp [Except.map]

/-- A computation of whose result something is seen has one. -/
theorem exists_of_toOption_map (computed : Except ε α) (view : α → β) (seen : β)
    (shown : computed.toOption.map view = some seen) :
    ∃ result, computed = .ok result ∧ view result = seen := by
  cases computed with
  | error e => cases shown
  | ok result => exact ⟨result, rfl, Option.some.inj shown⟩

/-- The outcome with its error and its result changed. -/
def change (errors : ε → δ) (results : α → β) : Except ε α → Except δ β
  | .ok a => .ok (results a)
  | .error e => .error (errors e)

@[simp] theorem change_ok (errors : ε → δ) (results : α → β) (a : α) :
    change errors results (.ok a) = .ok (results a) := rfl

@[simp] theorem change_error (errors : ε → δ) (results : α → β) (e : ε) :
    change errors results (.error e) = .error (errors e) := rfl

/-- A changed outcome is a result if the outcome is. -/
theorem change_eq_ok_iff {errors : ε → δ} {results : α → β} {first : Except ε α} {b : β} :
    change errors results first = .ok b ↔ ∃ a, first = .ok a ∧ results a = b := by
  cases first <;> simp

/-- Outcomes that are both results or both errors, and related as such. -/
inductive Related (results : α → β → Prop) (errors : ε → δ → Prop) :
    Except ε α → Except δ β → Prop where
  | ok {a b} (same : results a b) : Related results errors (.ok a) (.ok b)
  | error {e f} (same : errors e f) : Related results errors (.error e) (.error f)

/-- Outcomes that are related stay so when more is taken to be related. -/
theorem Related.mono {results further : α → β → Prop} {errors others : ε → δ → Prop}
    {first : Except ε α} {second : Except δ β} (related : Related results errors first second)
    (moreResults : ∀ a b, results a b → further a b)
    (moreErrors : ∀ e f, errors e f → others e f) : Related further others first second := by
  cases related with
  | ok same => exact .ok (moreResults _ _ same)
  | error same => exact .error (moreErrors _ _ same)

section Related

variable {results : α → β → Prop} {errors : ε → δ → Prop} {first : Except ε α}
  {second : Except δ β}

/-- Computations in two parts are related if their parts are. -/
theorem Related.bind {further : γ → ζ → Prop} {firstRest : α → Except ε γ}
    {secondRest : β → Except δ ζ} (related : Related results errors first second)
    (rest : ∀ a b, results a b → Related further errors (firstRest a) (secondRest b)) :
    Related further errors (first >>= firstRest) (second >>= secondRest) := by
  cases related with
  | ok same => exact rest _ _ same
  | error same => exact .error same

/-- Changed results are related if the changes relate them. -/
theorem Related.map {further : γ → ζ → Prop} {firstChange : α → γ} {secondChange : β → ζ}
    (related : Related results errors first second)
    (changes : ∀ a b, results a b → further (firstChange a) (secondChange b)) :
    Related further errors (first.map firstChange) (second.map secondChange) := by
  cases related with
  | ok same => exact .ok (changes _ _ same)
  | error same => exact .error same

/-- Outcomes are related, errors aside, if one has a result exactly if the other has, and the
results are related. -/
theorem related_of_results (forward : ∀ a, first = .ok a → ∃ b, second = .ok b ∧ results a b)
    (backward : ∀ b, second = .ok b → ∃ a, first = .ok a) :
    Related results (fun _ _ => True) first second := by
  cases first with
  | ok a =>
    obtain ⟨b, rfl, same⟩ := forward a rfl
    exact .ok same
  | error e =>
    cases second with
    | error f => exact .error trivial
    | ok b =>
      obtain ⟨a, impossible⟩ := backward b rfl
      cases impossible

/-- Outcomes that are both related to a third one are related. -/
theorem Related.trans {further : β → γ → Prop} {all : α → γ → Prop} {others : δ → ζ → Prop}
    {everything : ε → ζ → Prop} {third : Except ζ γ} (related : Related results errors first second)
    (relatedToo : Related further others second third)
    (composeResults : ∀ a b c, results a b → further b c → all a c)
    (composeErrors : ∀ e f g, errors e f → others f g → everything e g) :
    Related all everything first third := by
  cases related with
  | ok same =>
    cases relatedToo with
    | ok sameToo => exact .ok (composeResults _ _ _ same sameToo)
  | error same =>
    cases relatedToo with
    | error sameToo => exact .error (composeErrors _ _ _ same sameToo)

/-- An outcome is related to what it is changed to, and to nothing else. -/
theorem related_change_iff {errors : ε → δ} {results : α → β} :
    Related (fun a b => b = results a) (fun e f => f = errors e) first second ↔
      second = change errors results first := by
  constructor
  · rintro (same | same)
    · rw [same, change_ok]
    · rw [same, change_error]
  · rintro rfl
    cases first with
    | ok a => exact .ok rfl
    | error e => exact .error rfl

end Related

end BankAsm.Outcome
