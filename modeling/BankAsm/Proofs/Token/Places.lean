import BankAsm.Proofs.Token.Misfit

/-!
# Where a scan is

A scan only passes legal characters, and it keeps count of where it is. So every token
of a source, and the failure that ends its scan, stands behind legal characters, at the
position that they lead to (`Token.located_ofSource`).
-/

namespace BankAsm

/-- Legal characters lead from the front of a text at a position to what stands behind
them. -/
inductive Leads : Position → List Char → Position → List Char → Prop where
  | here {position cs} : Leads position cs position cs
  | step {position c cs place behind}
      (legal : isLegal c)
      (rest : Leads (position.step c) cs place behind) :
      Leads position (c :: cs) place behind

variable {position place : Position} {cs behind : List Char}

/-- Where legal characters at the front of a text lead. -/
theorem leads_after {front : List Char} (legal : ∀ c ∈ front, isLegal c) :
    Leads position (front ++ behind) (position.after front) behind := by
  induction front generalizing position with
  | nil => exact .here
  | cons c front inductionHypothesis =>
    obtain ⟨first, others⟩ := List.forall_mem_cons.mp legal
    exact .step first (inductionHypothesis others)

/-- What leads to a place are legal characters in front of what stands there. -/
theorem Leads.exists_front (leads : Leads position cs place behind) :
    ∃ front, cs = front ++ behind ∧ (∀ c ∈ front, isLegal c) ∧
      place = position.after front := by
  induction leads with
  | here => exact ⟨[], rfl, by simp, rfl⟩
  | @step position c _ _ _ legal _ inductionHypothesis =>
    obtain ⟨front, rfl, others, rfl⟩ := inductionHypothesis
    exact ⟨c :: front, rfl, List.forall_mem_cons.mpr ⟨legal, others⟩, rfl⟩

namespace Piece

/-- How many characters behind its first one belong to a piece. -/
def more : Piece → Nat
  | .gap more => more
  | .lexeme found => found.spelling.length - 1
  | .separator | .misfit _ => 0

/-- Whether a piece is one that a scan goes on behind. -/
def Passes : Piece → Prop
  | .misfit _ => False
  | _ => True

/-- The characters of a piece that a scan goes on behind are legal. -/
theorem legal_of_read {c : Char} (passes : (Piece.read c cs).Passes) :
    isLegal c ∧ ∀ d ∈ cs.take (Piece.read c cs).more, isLegal d := by
  have cut := cut_read c cs
  generalize Piece.read c cs = piece at cut passes
  cases cut with
  | illegal => exact absurd passes id
  | misfit => exact absurd passes id
  | space space =>
    rw [space]
    exact ⟨by decide, by simp [more]⟩
  | comment first second =>
    rw [first]
    refine ⟨by decide, fun d member => ?_⟩
    have body : cs.take (commentLength cs) = cs.takeWhile fun c => isLegal c && c != '\n' :=
      (List.prefix_iff_eq_take.mp (List.takeWhile_prefix _)).symm
    rw [more, body] at member
    exact (Bool.and_eq_true_iff.mp (Lexeme.of_mem_takeWhile member)).1
  | separator separates =>
    refine ⟨?_, by simp [more]⟩
    rcases separates with rfl | rfl
    · decide
    · decide
  | @lexeme found cut =>
    obtain ⟨form, behind, whole⟩ := Lexeme.form_of_read cut
    obtain ⟨first, spelling, spelled⟩ := List.exists_cons_of_ne_nil form.spelling_ne_nil
    have legal := form.legal
    rw [spelled, List.cons_append] at whole
    obtain ⟨rfl, rfl⟩ := List.cons.inj whole
    rw [spelled] at legal
    obtain ⟨here, others⟩ := List.forall_mem_cons.mp legal
    refine ⟨here, ?_⟩
    rw [more, spelled, List.length_cons, Nat.add_sub_cancel, List.take_left]
    exact others

end Piece

namespace Token

/-- Tokens and a failure that stand in a text, behind legal characters at its front. -/
structure Located (position : Position) (cs : List Char) (tokens : Feed Diagnostic Token) :
    Prop where
  items : ∀ t ∈ tokens.items, ∃ behind, Leads position cs t.position behind
  failure : ∀ d, tokens.failure = some d →
    ∃ behind, Leads position cs d.position behind ∧ d.cause.OfScan behind

variable {tokens : Feed Diagnostic Token}

/-- One more legal character in front. -/
theorem Located.step {c : Char} (legal : isLegal c)
    (located : Located (position.step c) cs tokens) : Located position (c :: cs) tokens where
  items := by
    intro t member
    obtain ⟨behind, leads⟩ := located.items t member
    exact ⟨behind, .step legal leads⟩
  failure := by
    intro d fails
    obtain ⟨behind, leads, ofScan⟩ := located.failure d fails
    exact ⟨behind, .step legal leads, ofScan⟩

/-- One more token, at the front of the text. -/
theorem Located.cons {t : Token} (front : t.position = position)
    (located : Located position cs tokens) : Located position cs (.cons t tokens) where
  items := List.forall_mem_cons.mpr ⟨⟨cs, by rw [front]; exact .here⟩, located.items⟩
  failure := located.failure

/-- Nothing but a failure. -/
theorem located_fail {d : Diagnostic} (leads : Leads position cs d.position behind)
    (ofScan : d.cause.OfScan behind) : Located position cs (.fail d) where
  items := by simp [Feed.fail]
  failure := by
    intro other fails
    obtain rfl := Option.some.inj fails
    exact ⟨behind, leads, ofScan⟩

/-- What ends a source stands where it ends. -/
theorem located_finish (previous : Previous) (position : Position) :
    Located position [] (finish previous position) := by
  have ended : Located position [] (.cons (eof position) .done) :=
    .cons rfl ⟨by simp [Feed.done], by simp [Feed.done]⟩
  unfold finish
  split
  · exact ended.cons (t := terminator position) rfl
  · exact ended
  · exact located_fail .here (.emptyStatement _)

/-- What a scan gives stands in the text, if what still belongs to the last piece is
legal. -/
theorem located_scan {more : Nat} (ahead : ∀ c ∈ cs.take more, isLegal c)
    (previous : Previous) (position : Position) :
    Located position cs (scan more previous position cs) := by
  induction cs generalizing more previous position with
  | nil => exact located_finish previous position
  | cons c cs inductionHypothesis =>
    cases more with
    | succ more =>
      rw [List.take_succ_cons] at ahead
      obtain ⟨legal, others⟩ := List.forall_mem_cons.mp ahead
      rw [scan_cons_succ]
      exact .step legal (inductionHypothesis others previous (position.step c))
    | zero =>
      rw [scan_cons_zero]
      have legal : (Piece.read c cs).Passes → _ := Piece.legal_of_read
      cases piece : Piece.read c cs with
      | gap more =>
        rw [piece] at legal
        obtain ⟨here, others⟩ := legal trivial
        exact .step here (inductionHypothesis others previous (position.step c))
      | separator =>
        rw [piece] at legal
        obtain ⟨here, others⟩ := legal trivial
        have rest := Located.step here
          (inductionHypothesis others (.ofSeparator c) (position.step c))
        simp only
        split
        · exact .cons rfl rest
        · exact rest
        · exact located_fail .here (.emptyStatement _)
      | lexeme found =>
        rw [piece] at legal
        obtain ⟨here, others⟩ := legal trivial
        exact .cons rfl (.step here (inductionHypothesis others .lexeme (position.step c)))
      | misfit fault =>
        obtain ⟨behind, whole, before, ofScan⟩ := Piece.at_of_read piece
        rw [whole]
        exact located_fail (leads_after before) ofScan

/-- What the scan of a source gives stands in the source. -/
theorem located_ofSource (source : String) :
    Located .start source.toList (Token.ofSource source) :=
  located_scan (by simp) .nothing .start

end Token

end BankAsm
