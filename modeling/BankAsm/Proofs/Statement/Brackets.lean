import BankAsm.Proofs.Token.Accepted
import BankAsm.Statement.Grammar
import BankAsm.Statement.Read

/-!
# Brackets of operands

Tokens are balanced, or have a closing bracket without an opening one, or leave an
opening bracket open (`Token.balanced_or_stray_or_leftOpen`). Reading follows the three
cases: it goes on behind balanced tokens with the operands that they spell
(`Operand.read_append`), and reports the bracket or the end in the other two.
-/

namespace BankAsm

namespace Token

variable {t opener closer : Token} {front back : List Token}

/-- Tokens whose opening brackets are not all closed, though every closing bracket has
its counterpart. -/
inductive LeftOpen : List Token → Prop where
  | last {front opener inner}
      (balanced : Balanced front)
      (opens : opener.kind = .opener)
      (inside : Balanced inner) :
      LeftOpen (front ++ opener :: inner)
  | outer {front opener inner}
      (balanced : Balanced front)
      (opens : opener.kind = .opener)
      (inside : LeftOpen inner) :
      LeftOpen (front ++ opener :: inner)

/-- A token that is no bracket is balanced. -/
theorem balanced_singleton (plain : t.isBracket = false) : Balanced [t] := .token plain .nil

/-- Balanced tokens in brackets are balanced. -/
theorem Balanced.enclose (balanced : Balanced front) (opens : opener.kind = .opener)
    (closes : closer.kind = .closer) : Balanced (opener :: front ++ [closer]) :=
  .group opens balanced closes .nil

/-- Balanced tokens one behind the other are balanced. -/
theorem Balanced.append (balanced : Balanced front) (further : Balanced back) :
    Balanced (front ++ back) := by
  induction balanced with
  | nil => exact further
  | token plain _ inductionHypothesis => exact .token plain inductionHypothesis
  | group opens inside closes _ _ inductionHypothesis =>
    simpa using Balanced.group opens inside closes inductionHypothesis

/-- Balanced tokens in front leave a closing bracket without its counterpart. -/
theorem Stray.append (balanced : Balanced front) (stray : Stray closer back) :
    Stray closer (front ++ back) := by
  cases stray with
  | mk inFront closes =>
    rw [← List.append_assoc]
    exact .mk (balanced.append inFront) closes

/-- Balanced tokens in front leave an opening bracket without its counterpart. -/
theorem LeftOpen.append (balanced : Balanced front) (leftOpen : LeftOpen back) :
    LeftOpen (front ++ back) := by
  cases leftOpen with
  | last inFront opens inside =>
    rw [← List.append_assoc]
    exact .last (balanced.append inFront) opens inside
  | outer inFront opens inside =>
    rw [← List.append_assoc]
    exact .outer (balanced.append inFront) opens inside

/-- Balanced tokens in front change nothing about the brackets behind them. -/
theorem Balanced.append_cases (balanced : Balanced front)
    (cases : Balanced back ∨ (∃ closer, Stray closer back) ∨ LeftOpen back) :
    Balanced (front ++ back) ∨ (∃ closer, Stray closer (front ++ back)) ∨
      LeftOpen (front ++ back) := by
  rcases cases with further | ⟨closer, stray⟩ | leftOpen
  · exact .inl (balanced.append further)
  · exact .inr (.inl ⟨closer, stray.append balanced⟩)
  · exact .inr (.inr (leftOpen.append balanced))

/-- Tokens are balanced, or a bracket has no counterpart: the first closing one without
an opening one, or else an opening one. -/
theorem balanced_or_stray_or_leftOpen (tokens : List Token) :
    Balanced tokens ∨ (∃ closer, Stray closer tokens) ∨ LeftOpen tokens := by
  -- By the number of tokens: a group is taken off the front as a whole.
  induction size : tokens.length using Nat.strongRecOn generalizing tokens with
  | ind length inductionHypothesis =>
    cases tokens with
    | nil => exact .inl .nil
    | cons t rest =>
      have shorter : rest.length < length := by simp [← size]
      have cases := inductionHypothesis rest.length shorter rest rfl
      by_cases opens : t.kind = .opener
      · rcases cases with inside | ⟨closer, stray⟩ | leftOpen
        · exact .inr (.inr (.last .nil opens inside))
        · cases stray with
          | @mk inner back inside closes =>
            have fewer : back.length < length := by
              simp only [List.length_append, List.length_cons] at shorter
              omega
            have behind := inductionHypothesis back.length fewer back rfl
            simpa using (inside.enclose opens closes).append_cases behind
        · exact .inr (.inr (.outer .nil opens leftOpen))
      · by_cases closes : t.kind = .closer
        · exact .inr (.inl ⟨t, .mk .nil closes⟩)
        · have plain : t.isBracket = false := by simp [isBracket, opens, closes]
          exact (balanced_singleton plain).append_cases cases

/-- Whether a bracket has the text of its kind. -/
def HasBracketText (t : Token) : Prop :=
  (t.kind = .opener → t.text = "[") ∧ (t.kind = .closer → t.text = "]")

/-- Brackets of a source have the text of their kind. -/
theorem hasBracketText_of_mem_ofSource {source : String} (member : t ∈ (ofSource source).items) :
    t.HasBracketText := by
  rcases cases_of_mem_scan member with ending | ⟨found, form, cut⟩
  · have kinds : t.kind = .terminator ∨ t.kind = .eof := by simpa [isEnding] using ending
    rcases kinds with kind | kind <;> simp [HasBracketText, kind]
  · rw [cut]
    cases form with
    | opener => simp [HasBracketText]
    | closer => simp [HasBracketText]
    | word found =>
      have opener := Word.kind_ne_of_kind? .opener found (by simp [Word.classes])
      have closer := Word.kind_ne_of_kind? .closer found (by simp [Word.classes])
      simp [HasBracketText, opener, closer]
    | _ => simp [HasBracketText]

end Token

namespace Operand

open Token (Balanced Stray LeftOpen HasBracketText)

section Steps

variable (ending : Except Diagnostic Token) (done : List Operand) (outer : List (List Operand))
  {t : Token} (rest : List Token)

/-- A token that is no bracket is an operand of the innermost group. -/
theorem read_token (plain : t.isBracket = false) :
    read ending done outer (t :: rest) = read ending (.token t :: done) outer rest := by
  rw [read.eq_def]
  simp only
  split
  case h_1 opens => simp [Token.isBracket, opens] at plain
  case h_2 closes => simp [Token.isBracket, closes] at plain
  case h_3 => rfl

/-- An opening bracket opens a group. -/
theorem read_opener (opens : t.kind = .opener) :
    read ending done outer (t :: rest) = read ending [] (done :: outer) rest := by
  rw [read.eq_def]
  simp only [opens]

/-- A closing bracket makes the innermost group an operand of the one around it. -/
theorem read_closer (around : List Operand) (closes : t.kind = .closer) :
    read ending done (around :: outer) (t :: rest) =
      read ending (.group done.reverse :: around) outer rest := by
  rw [read.eq_def]
  simp only [closes]

end Steps

variable {ending : Except Diagnostic Token} {done operands : List Operand}
  {outer : List (List Operand)} {front back : List Token}

/-- Operands are read off the tokens that they are spelled by. -/
theorem Spelled.read_append (spelled : Spelled operands front) (done : List Operand)
    (outer : List (List Operand)) (back : List Token) :
    read ending done outer (front ++ back) = read ending (operands.reverse ++ done) outer back := by
  induction spelled generalizing done outer back with
  | nil => rfl
  | token plain _ inductionHypothesis =>
    rw [List.cons_append, read_token _ _ _ _ plain, inductionHypothesis]
    simp
  | group opener closer _ _ inner further =>
    rw [List.append_assoc, List.cons_append, read_opener _ _ _ _ rfl, inner, List.cons_append,
      read_closer _ _ _ _ _ rfl, further]
    simp

/-- Balanced tokens spell operands. -/
theorem exists_spelled_of_balanced (balanced : Balanced front)
    (texts : ∀ t ∈ front, t.HasBracketText) : ∃ operands, Spelled operands front := by
  induction balanced with
  | nil => exact ⟨[], .nil⟩
  | @token t rest plain _ inductionHypothesis =>
    obtain ⟨operands, spelled⟩ := inductionHypothesis (List.forall_mem_cons.mp texts).2
    exact ⟨.token t :: operands, .token plain spelled⟩
  | @group opener inner closer rest opens _ closes _ inside further =>
    obtain ⟨first, others⟩ := List.forall_mem_append.mp texts
    obtain ⟨openerText, innerTexts⟩ := List.forall_mem_cons.mp first
    obtain ⟨closerText, restTexts⟩ := List.forall_mem_cons.mp others
    obtain ⟨enclosed, innerSpelled⟩ := inside innerTexts
    obtain ⟨operands, spelled⟩ := further restTexts
    refine ⟨.group enclosed :: operands, ?_⟩
    have opener_eq : opener = ⟨.opener, "[", opener.position⟩ := by
      rw [← openerText.1 opens, ← opens]
    have closer_eq : closer = ⟨.closer, "]", closer.position⟩ := by
      rw [← closerText.2 closes, ← closes]
    rw [opener_eq, closer_eq]
    exact .group _ _ innerSpelled spelled

/-- Reading balanced tokens to the end gives operands that they spell. -/
theorem read_of_balanced {tokens : List Token} (balanced : Balanced tokens)
    (texts : ∀ t ∈ tokens, t.HasBracketText) (terminator : Token) :
    ∃ operands, read (.ok terminator) done [] tokens = .ok (done.reverse ++ operands) ∧
      Spelled operands tokens := by
  obtain ⟨operands, spelled⟩ := exists_spelled_of_balanced balanced texts
  have whole : read (.ok terminator) done [] (tokens ++ []) = _ := spelled.read_append done [] []
  rw [List.append_nil] at whole
  refine ⟨operands, ?_, spelled⟩
  rw [whole]
  simp [read]

/-- Reading reports a closing bracket without an opening one. -/
theorem read_of_stray {tokens : List Token} {closer : Token} (stray : Stray closer tokens)
    (texts : ∀ t ∈ tokens, t.HasBracketText) :
    read ending done [] tokens = .error ⟨.strayCloser, closer.position⟩ := by
  cases stray with
  | @mk front back balanced closes =>
    obtain ⟨operands, spelled⟩ :=
      exists_spelled_of_balanced balanced (List.forall_mem_append.mp texts).1
    rw [spelled.read_append]
    rw [read.eq_def]
    simp only [closes]

/-- Reading reports the end in front of which an opening bracket is left. -/
theorem read_of_leftOpen {tokens : List Token} (leftOpen : LeftOpen tokens)
    (texts : ∀ t ∈ tokens, t.HasBracketText) (terminator : Token) :
    read (.ok terminator) done outer tokens =
      .error ⟨.unclosedGroup, terminator.position⟩ := by
  induction leftOpen generalizing done outer with
  | @last front opener inner balanced opens inside =>
    obtain ⟨inFront, behind⟩ := List.forall_mem_append.mp texts
    obtain ⟨operands, spelled⟩ := exists_spelled_of_balanced balanced inFront
    obtain ⟨enclosed, innerSpelled⟩ :=
      exists_spelled_of_balanced inside (List.forall_mem_cons.mp behind).2
    have whole : read (.ok terminator) [] ((operands.reverse ++ done) :: outer) (inner ++ []) = _ :=
      innerSpelled.read_append [] _ []
    rw [List.append_nil] at whole
    rw [spelled.read_append, read_opener _ _ _ _ opens, whole]
    rfl
  | @outer front opener inner balanced opens _ inductionHypothesis =>
    obtain ⟨inFront, behind⟩ := List.forall_mem_append.mp texts
    obtain ⟨operands, spelled⟩ := exists_spelled_of_balanced balanced inFront
    rw [spelled.read_append, read_opener _ _ _ _ opens]
    exact inductionHypothesis (List.forall_mem_cons.mp behind).2

end Operand

end BankAsm
