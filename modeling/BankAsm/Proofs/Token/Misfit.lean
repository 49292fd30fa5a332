import BankAsm.Proofs.Token.Accepted

/-!
# Where misfits stand

A misfit is reported behind characters that may all stand in a source. If it is about
one that may not, then that character is the next (`Piece.at_of_read`).
-/

namespace BankAsm

/-- The causes that a scan reports in front of a text. -/
inductive Cause.OfScan : List Char → Cause → Prop where
  | illegal {c behind} (illegal : isLegal c = false) :
      OfScan (c :: behind) (.illegalByte (leadByte c))
  | unrecognized (behind lexeme) : OfScan behind (.unrecognized lexeme)
  | emptyStatement (behind) : OfScan behind .emptyStatement
  | reservedLabel (behind word) : OfScan behind (.reservedLabel word)

/-- Whether causes of a kind are reported by a scan. -/
def CauseKind.isOfScan : CauseKind → Bool
  | .illegalCharacter | .unrecognizedToken | .emptyStatement | .reservedLabel => true
  | _ => false

/-- A cause that a scan reports is of such a kind. -/
theorem Cause.OfScan.isOfScan {behind : List Char} {cause : Cause}
    (ofScan : cause.OfScan behind) : cause.kind.isOfScan = true := by
  cases ofScan <;> rfl

/-- A misfit in a text, reported behind legal characters at its front. -/
def Misfit.At (fault : Misfit) (cs : List Char) : Prop :=
  ∃ behind, cs = fault.before ++ behind ∧ (∀ c ∈ fault.before, isLegal c) ∧
    fault.cause.OfScan behind

/-- A misfit at the front of a text. -/
theorem Misfit.At.front {cause : Cause} {cs : List Char} (ofScan : cause.OfScan cs) :
    Misfit.At ⟨cause, []⟩ cs :=
  ⟨cs, rfl, by simp, ofScan⟩

namespace Lexeme

variable {cs : List Char} {fault : Misfit}

/-- Behind legal characters and the run that follows them stands what ends the run. -/
theorem at_of_run {passed : List Char} (legal : ∀ c ∈ passed, isLegal c)
    (fails : run passed cs = .error fault) : fault.At (passed ++ cs) := by
  unfold run at fails
  simp only at fails
  split at fails
  case h_1 => cases fails
  case h_2 c behind rest =>
    split at fails
    case isTrue => cases fails
    case isFalse illegal =>
      cases fails
      refine ⟨c :: behind, ?_, ?_, .illegal (by simpa using illegal)⟩
      · rw [Misfit.illegal, List.append_assoc, ← rest, takeWhile_append_drop]
      · intro d member
        rcases List.mem_append.mp member with early | taken
        · exact legal d early
        · exact isLegal_of_isRegular (of_mem_takeWhile taken)

/-- A literal that is not closed fails at its front, or behind the run that follows it. -/
theorem at_of_close {kind : TokenKind} {text? : Option (List Char)} {spelling behind : List Char}
    (legal : ∀ c ∈ spelling, isLegal c)
    (fails : close kind text? spelling behind = .error fault) :
    fault.At (spelling ++ behind) := by
  unfold close at fails
  split at fails
  case h_1 misfit broken =>
    cases fails
    exact at_of_run legal broken
  case h_2 =>
    split at fails
    case h_1 => cases fails
    case h_2 =>
      cases fails
      exact .front (.unrecognized _ _)
  case h_3 =>
    cases fails
    exact .front (.unrecognized _ _)

/-- A word without a lexeme fails at its front. -/
theorem at_of_ofWord {word : List Char} (fails : ofWord word = .error fault) : fault.At cs := by
  unfold ofWord at fails
  split at fails
  case h_1 =>
    cases fails
    exact .front (.unrecognized _ _)
  case h_2 =>
    simp only at fails
    split at fails
    case isTrue =>
      cases fails
      exact .front (.reservedLabel _ _)
    case isFalse => cases fails
  case h_3 => cases fails

/-- Where a quoted character fails. -/
theorem at_of_readCharacter (fails : readCharacter cs = .error fault) :
    fault.At ('\'' :: cs) := by
  unfold readCharacter at fails
  have whole := takeWhile_append_drop (fun c => isLegal c && c != '\'' && c != '\n') cs
  have inside : ∀ c ∈ cs.takeWhile (fun c => isLegal c && c != '\'' && c != '\n'), isLegal c := by
    intro c member
    have passed := of_mem_takeWhile member
    simp only [Bool.and_eq_true] at passed
    exact passed.1.1
  simp only at fails
  generalize cs.takeWhile (fun c => isLegal c && c != '\'' && c != '\n') = inner at *
  have opened : ∀ c ∈ '\'' :: inner, isLegal c :=
    List.forall_mem_cons.mpr ⟨by decide, inside⟩
  split at fails
  case h_1 behind rest =>
    rw [rest] at whole
    split at fails
    case isTrue empty =>
      subst empty
      split at fails
      case h_1 further =>
        have quotes : ∀ c ∈ ['\'', '\'', '\''], isLegal c := List.all_eq_true.mp rfl
        rw [← whole]
        exact at_of_close quotes fails
      case h_2 =>
        cases fails
        exact .front (.unrecognized _ _)
    case isFalse =>
      have closed : ∀ c ∈ '\'' :: inner ++ ['\''], isLegal c :=
        List.forall_mem_append.mpr ⟨opened, List.all_eq_true.mp rfl⟩
      have split : '\'' :: cs = '\'' :: inner ++ ['\''] ++ behind := by
        rw [← whole]
        simp
      rw [split]
      exact at_of_close closed fails
  case h_2 c behind _ rest =>
    split at fails
    case isTrue =>
      cases fails
      exact .front (.unrecognized _ _)
    case isFalse illegal =>
      cases fails
      refine ⟨c :: behind, ?_, opened, .illegal (by simpa using illegal)⟩
      rw [Misfit.illegal, List.cons_append, ← rest, whole]
  case h_3 =>
    cases fails
    exact .front (.unrecognized _ _)

/-- A string body that was read up to a character that may not stand in a source. -/
structure Cut (body : StringBody) (c : Char) (cs : List Char) : Prop where
  illegal : isLegal c = false
  front : ∃ behind, cs = body.spelling ++ c :: behind
  legal : ∀ d ∈ body.spelling, isLegal d

/-- One more character in front of such a body. -/
theorem Cut.push {body : StringBody} {c d : Char} {spelling : List Char} (cut : Cut body c cs)
    (legal : ∀ e ∈ spelling, isLegal e) : Cut (.push spelling d body) c (spelling ++ cs) where
  illegal := cut.illegal
  front := by
    obtain ⟨behind, whole⟩ := cut.front
    exact ⟨behind, by rw [StringBody.push, List.append_assoc, ← whole]⟩
  legal := List.forall_mem_append.mpr ⟨legal, cut.legal⟩

/-- Reading a string body up to an illegal character gives what stands in front of it. -/
theorem cut_of_readStringBody {c : Char} (ends : (readStringBody cs).ending = .illegal c) :
    Cut (readStringBody cs) c cs := by
  fun_induction readStringBody cs with
  | case1 => cases ends
  | case2 => cases ends
  | case3 cs inductionHypothesis => exact (inductionHypothesis ends).push (List.all_eq_true.mp rfl)
  | case4 cs inductionHypothesis => exact (inductionHypothesis ends).push (List.all_eq_true.mp rfl)
  | case5 cs inductionHypothesis => exact (inductionHypothesis ends).push (List.all_eq_true.mp rfl)
  | case6 => cases ends
  | case7 d cs _ _ _ _ _ printable inductionHypothesis =>
    refine (inductionHypothesis ends).push fun e member => ?_
    rw [List.mem_singleton.mp member]
    exact isLegal_of_isPrintable printable
  | case8 => cases ends
  | case9 => cases ends
  | case10 d cs _ _ _ _ _ _ _ illegal =>
    cases ends
    exact ⟨by simpa using illegal, ⟨cs, rfl⟩, by simp⟩

/-- Where a quoted string fails. -/
theorem at_of_readString (fails : readString cs = .error fault) : fault.At ('"' :: cs) := by
  unfold readString at fails
  simp only at fails
  split at fails
  case h_1 =>
    cases fails
    exact .front (.unrecognized _ _)
  case h_2 c ends =>
    cases fails
    obtain ⟨illegal, ⟨behind, whole⟩, legal⟩ := cut_of_readStringBody ends
    refine ⟨c :: behind, ?_, List.forall_mem_cons.mpr ⟨by decide, legal⟩, .illegal illegal⟩
    rw [Misfit.illegal, List.cons_append, ← whole]
  case h_3 ends =>
    split at fails
    case isTrue =>
      cases fails
      exact .front (.unrecognized _ _)
    case isFalse filled =>
      have body := closed_of_readStringBody ends
      have form : Form ⟨.string, (readStringBody cs).content,
          '"' :: (readStringBody cs).spelling⟩ := by
        rw [body.spelling]
        exact .string filled body.printable
      have whole := List.prefix_iff_eq_append.mp body.front
      have split : '"' :: cs = '"' :: (readStringBody cs).spelling ++
          cs.drop (readStringBody cs).spelling.length := by
        rw [List.cons_append, whole]
      rw [split]
      exact at_of_close form.legal fails

/-- Where a source without a lexeme at its front fails. -/
theorem at_of_read {c : Char} (fails : Lexeme.read c cs = .error fault) : fault.At (c :: cs) := by
  unfold Lexeme.read at fails
  split at fails
  case isTrue => cases fails
  case isFalse =>
    split at fails
    case isTrue => cases fails
    case isFalse =>
      split at fails
      case isTrue quote =>
        rw [quote]
        exact at_of_readCharacter fails
      case isFalse =>
        split at fails
        case isTrue quote =>
          rw [quote]
          exact at_of_readString fails
        case isFalse =>
          rcases Outcome.bind_eq_error_iff.mp fails with broken | ⟨word, _, unknown⟩
          · have nothing : ∀ c ∈ ([] : List Char), isLegal c := by simp
            exact at_of_run nothing broken
          · exact at_of_ofWord unknown

end Lexeme

namespace Piece

variable {c : Char} {cs : List Char}

/-- A misfit at the front of a source is reported behind legal characters. -/
theorem at_of_read {fault : Misfit} (read : Piece.read c cs = .misfit fault) :
    fault.At (c :: cs) := by
  have cut := cut_read c cs
  rw [read] at cut
  cases cut with
  | illegal illegal => exact .front (.illegal illegal)
  | misfit fails => exact Lexeme.at_of_read fails

end Piece

end BankAsm
