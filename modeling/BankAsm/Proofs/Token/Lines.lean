import BankAsm.Proofs.Position
import BankAsm.Proofs.Token.Sound

/-!
# Lines are scanned one after another

No piece of a source reaches over a newline, and a piece that the source ends in is
the same in front of a newline (`Piece.read_append_newline`). So a scan goes on behind
a newline where it would end without it (`continues_scan`). What it gives there is what
it gives from the start, further down (`scan_down`).
-/

namespace BankAsm

section Pieces

variable {c : Char} (cs rest : List Char)

/-- A run of characters that are no newlines ends at a newline at the latest. -/
theorem takeWhile_append_newline (test : Char → Bool) (stops : test '\n' = false) :
    (cs ++ '\n' :: rest).takeWhile test = cs.takeWhile test := by
  induction cs with
  | nil => simp [stops]
  | cons c cs inductionHypothesis =>
    simp only [List.cons_append, List.takeWhile_cons, inductionHypothesis]

/-- What is left behind a run goes on with what stands behind the text. -/
theorem drop_takeWhile_append (test : Char → Bool) (back : List Char) :
    (cs ++ back).drop (cs.takeWhile test).length =
      cs.drop (cs.takeWhile test).length ++ back :=
  List.drop_append_of_le_length (List.takeWhile_prefix test).length_le

namespace Lexeme

theorem run_append_newline (passed : List Char) :
    run passed (cs ++ '\n' :: rest) = run passed cs := by
  have stops : isRegular '\n' = false := by decide
  have legal : isLegal '\n' = true := by decide
  unfold run
  simp only [takeWhile_append_newline cs rest _ stops, drop_takeWhile_append]
  cases cs.drop (cs.takeWhile isRegular).length with
  | nil => simp [legal]
  | cons c behind => rfl

theorem close_append_newline (kind : TokenKind) (text? : Option (List Char))
    (spelling : List Char) :
    close kind text? spelling (cs ++ '\n' :: rest) = close kind text? spelling cs := by
  unfold close
  rw [run_append_newline]

theorem readWord_append_newline : readWord (cs ++ '\n' :: rest) = readWord cs := by
  unfold readWord
  rw [run_append_newline]

theorem readCharacter_append_newline :
    readCharacter (cs ++ '\n' :: rest) = readCharacter cs := by
  have legal : isLegal '\n' = true := by decide
  unfold readCharacter
  rw [takeWhile_append_newline cs rest (fun c => isLegal c && c != '\'' && c != '\n') (by decide)]
  simp only [drop_takeWhile_append]
  generalize cs.takeWhile (fun c => isLegal c && c != '\'' && c != '\n') = inner
  cases cs.drop inner.length with
  | nil => simp [legal]
  | cons c behind =>
    by_cases quote : c = '\''
    · subst quote
      simp only [List.cons_append]
      by_cases empty : inner = []
      · simp only [empty, if_true]
        cases behind with
        | nil => simp
        | cons d further =>
          by_cases second : d = '\''
          · subst second
            simp only [List.cons_append, close_append_newline]
          · simp [second]
      · simp only [empty, if_false, close_append_newline]
    · simp

/-- A character that neither ends a string nor opens an escape stands for itself. -/
theorem readStringBody_cons {c : Char} (quote : c ≠ '"') (backslash : c ≠ '\\') :
    readStringBody (c :: cs) =
      if isPrintable c then .push [c] c (readStringBody cs)
      else if c = '\n' then ⟨[], [], .broken⟩
      else if isLegal c then ⟨[c], [], .broken⟩
      else ⟨[], [], .illegal c⟩ := by
  rw [readStringBody]
  · exact quote
  all_goals
    intros
    contradiction

/-- A backslash that opens no escape breaks a string off. -/
theorem readStringBody_backslash (newline : ∀ behind, cs ≠ 'n' :: behind)
    (backslash : ∀ behind, cs ≠ '\\' :: behind) (quote : ∀ behind, cs ≠ '"' :: behind) :
    readStringBody ('\\' :: cs) = ⟨['\\'], [], .broken⟩ := by
  rw [readStringBody]
  · exact newline
  · exact backslash
  · exact quote

theorem readStringBody_append_newline :
    readStringBody (cs ++ '\n' :: rest) = readStringBody cs := by
  fun_induction readStringBody cs with
  | case1 => simp [readStringBody, isPrintable]
  | case2 cs => rfl
  | case3 cs inductionHypothesis => simp [readStringBody, inductionHypothesis]
  | case4 cs inductionHypothesis => simp [readStringBody, inductionHypothesis]
  | case5 cs inductionHypothesis => simp [readStringBody, inductionHypothesis]
  | case6 cs noNewline noBackslash noQuote =>
    apply readStringBody_backslash
    all_goals
      intro behind same
      cases cs with
      | nil => simp at same
      | cons d cs => simp_all
  | case7 c cs noQuote _ _ _ noBackslash printable inductionHypothesis =>
    simp only [List.cons_append]
    rw [readStringBody_cons _ noQuote noBackslash, if_pos printable, inductionHypothesis]
  | case8 cs => simp [readStringBody, isPrintable]
  | case9 c cs noQuote _ _ _ noBackslash unprintable noNewline legal =>
    simp only [List.cons_append]
    rw [readStringBody_cons _ noQuote noBackslash]
    simp [unprintable, noNewline, legal]
  | case10 c cs noQuote _ _ _ noBackslash unprintable noNewline illegal =>
    simp only [List.cons_append]
    rw [readStringBody_cons _ noQuote noBackslash]
    simp [unprintable, noNewline, illegal]

theorem readString_append_newline : readString (cs ++ '\n' :: rest) = readString cs := by
  unfold readString
  simp only [readStringBody_append_newline]
  cases ends : (readStringBody cs).ending with
  | broken => rfl
  | illegal c => rfl
  | closed =>
    have inside := (closed_of_readStringBody ends).front.length_le
    simp only [List.drop_append_of_le_length inside, close_append_newline]

/-- A lexeme that the source ends in is the same in front of a newline. -/
theorem read_append_newline (c : Char) :
    Lexeme.read c (cs ++ '\n' :: rest) = Lexeme.read c cs := by
  unfold Lexeme.read
  rw [readCharacter_append_newline, readString_append_newline,
    ← List.cons_append, readWord_append_newline]

end Lexeme

namespace Piece

theorem commentLength_append_newline :
    commentLength (cs ++ '\n' :: rest) = commentLength cs := by
  unfold commentLength
  rw [takeWhile_append_newline cs rest (fun c => isLegal c && c != '\n') (by decide)]

/-- A piece that the source ends in is the same in front of a newline. -/
theorem read_append_newline (c : Char) :
    Piece.read c (cs ++ '\n' :: rest) = Piece.read c cs := by
  have slash : (cs ++ '\n' :: rest).head? = some '/' ↔ cs.head? = some '/' := by
    cases cs with
    | nil => simp
    | cons d cs => rfl
  unfold Piece.read
  rw [commentLength_append_newline, Lexeme.read_append_newline]
  simp only [slash]

end Piece

end Pieces

namespace Token

/-- A scan of a text with a newline and more behind it, beside the scan of the text
alone: they fail together, or the first one goes on where the other one ends. -/
inductive Continues (rest : Feed Diagnostic Token) (last : Position) :
    (whole alone : Feed Diagnostic Token) → Prop where
  | broken {alone} {e : Diagnostic}
      (failed : alone.failure = some e) : Continues rest last alone alone
  | ended (front : List Token) :
      Continues rest last ⟨front ++ rest.items, rest.failure⟩ ⟨front ++ [eof last], none⟩

/-- A token in front of both scans. -/
theorem Continues.cons {rest whole alone : Feed Diagnostic Token} {last : Position}
    (continues : Continues rest last whole alone) (t : Token) :
    Continues rest last (.cons t whole) (.cons t alone) := by
  cases continues with
  | broken failed => exact .broken failed
  | ended front => exact .ended (t :: front)

/-- A newline does to a scan what the end of the source does, and the scan goes on. -/
theorem continues_newline (previous : Previous) (position : Position) (rest : List Char) :
    Continues (scan 0 .newline (position.step '\n') rest) position
      (scan 0 previous position ('\n' :: rest)) (finish previous position) := by
  rw [scan_cons_zero, Piece.read_newline]
  unfold finish
  cases previous.close '\n' with
  | terminator => exact .ended [terminator position]
  | nothing => exact .ended []
  | empty => exact .broken rfl

/-- A scan goes on behind a newline where it would end without it. -/
theorem continues_scan {more : Nat} {cs : List Char} (inside : more ≤ cs.length)
    (previous : Previous) (position : Position) (rest : List Char) :
    Continues (scan 0 .newline ((position.after cs).step '\n') rest) (position.after cs)
      (scan more previous position (cs ++ '\n' :: rest)) (scan more previous position cs) := by
  -- Both scans read the same pieces, since none reaches over the newline, and stand at the
  -- same place until the text alone is over.
  induction cs generalizing more previous position with
  | nil =>
    obtain rfl : more = 0 := by simpa using inside
    exact continues_newline previous position rest
  | cons c cs inductionHypothesis =>
    rw [List.cons_append]
    cases more with
    | succ more =>
      have further : more ≤ cs.length := by simpa using inside
      exact inductionHypothesis further previous (position.step c)
    | zero =>
      rw [scan_cons_zero previous position c (cs ++ '\n' :: rest),
        scan_cons_zero previous position c cs, Piece.read_append_newline]
      cases read : Piece.read c cs with
      | gap more =>
        exact inductionHypothesis (Piece.le_of_read_gap read) previous (position.step c)
      | separator =>
        cases previous.close c with
        | terminator => exact (inductionHypothesis (Nat.zero_le _) _ _).cons _
        | nothing => exact inductionHypothesis (Nat.zero_le _) _ _
        | empty => exact .broken rfl
      | lexeme found =>
        exact (inductionHypothesis (Piece.le_of_read_lexeme read) _ _).cons _
      | misfit fault => exact .broken rfl

/-- The start of a source is the start of a line. -/
theorem scan_newline_eq_nothing (more : Nat) (position : Position) (cs : List Char) :
    scan more .newline position cs = scan more .nothing position cs := by
  induction cs generalizing more position with
  | nil => rfl
  | cons c cs inductionHypothesis =>
    cases more with
    | succ more => exact inductionHypothesis more (position.step c)
    | zero =>
      have closing : Previous.close .newline c = Previous.close .nothing c := rfl
      rw [scan_cons_zero, scan_cons_zero, closing]
      cases Piece.read c cs with
      | gap more => exact inductionHypothesis more (position.step c)
      | separator => rfl
      | lexeme found => rfl
      | misfit fault => rfl

end Token

/-- The same token, some lines further down. -/
def Token.down (lines : Nat) (t : Token) : Token := ⟨t.kind, t.text, t.position.down lines⟩

/-- The same diagnostic, some lines further down. -/
def Diagnostic.down (lines : Nat) (d : Diagnostic) : Diagnostic := ⟨d.cause, d.position.down lines⟩

namespace Token

/-- The same tokens and the same failure, some lines further down. -/
def feedDown (lines : Nat) (feed : Feed Diagnostic Token) : Feed Diagnostic Token :=
  ⟨feed.items.map (down lines), feed.failure.map (Diagnostic.down lines)⟩

/-- What ends a source ends it in the same way further down. -/
theorem finish_down (lines : Nat) (previous : Previous) (position : Position) :
    finish previous (position.down lines) = feedDown lines (finish previous position) := by
  unfold finish
  cases previous.close '\n' <;> rfl

/-- A scan that starts further down gives the same, further down. -/
theorem scan_down (lines more : Nat) (previous : Previous) (position : Position)
    (cs : List Char) :
    scan more previous (position.down lines) cs =
      feedDown lines (scan more previous position cs) := by
  induction cs generalizing more previous position with
  | nil => exact finish_down lines previous position
  | cons c cs inductionHypothesis =>
    cases more with
    | succ more =>
      rw [scan_cons_succ, scan_cons_succ, Position.step_down, inductionHypothesis]
    | zero =>
      rw [scan_cons_zero, scan_cons_zero, Position.step_down]
      cases Piece.read c cs with
      | gap more => exact inductionHypothesis more previous (position.step c)
      | separator =>
        cases previous.close c with
        | terminator =>
          simp only [inductionHypothesis]
          rfl
        | nothing => exact inductionHypothesis _ _ _
        | empty => rfl
      | lexeme found =>
        simp only [inductionHypothesis]
        rfl
      | misfit fault =>
        simp only [Position.after_down]
        rfl

/-- How many lines stand above the text behind a newline. -/
def linesAbove (upper : String) : Nat := 1 + upper.toList.count '\n'

/-- The scan of two texts, one above the other, beside the scan of the upper one. -/
theorem continues_ofSource (upper lower : String) :
    Continues (feedDown (linesAbove upper) (ofSource lower))
      (Position.start.after upper.toList) (ofSource (upper ++ "\n" ++ lower))
      (ofSource upper) := by
  have text : (upper ++ "\n" ++ lower).toList = upper.toList ++ '\n' :: lower.toList := by
    simp
  have below : feedDown (linesAbove upper) (ofSource lower) =
      scan 0 .newline ((Position.start.after upper.toList).step '\n') lower.toList := by
    rw [Position.step_newline_of_start_after, scan_newline_eq_nothing, scan_down]
    rfl
  rw [below, ofSource, ofSource, text]
  exact continues_scan (Nat.zero_le _) .nothing .start lower.toList

/-- Sources are read line by line. A source that fails, fails in the same way with more
lines below. One that does not fail has the end of the source as its last token, and with
more lines below it has their tokens and their failure in place of that token, as many
lines further down as stand above them. -/
theorem ofSource_append_newline (upper lower : String) :
    (∃ failure, (ofSource upper).failure = some failure ∧
      ofSource (upper ++ "\n" ++ lower) = ofSource upper) ∨
    (∃ front last, ofSource upper = ⟨front ++ [eof last], none⟩ ∧
      ofSource (upper ++ "\n" ++ lower) =
        ⟨front ++ (ofSource lower).items.map (down (1 + upper.toList.count '\n')),
          (ofSource lower).failure.map (Diagnostic.down (1 + upper.toList.count '\n'))⟩) := by
  have continues := continues_ofSource upper lower
  generalize ofSource upper = alone at continues
  generalize ofSource (upper ++ "\n" ++ lower) = whole at continues
  cases continues with
  | broken failed => exact .inl ⟨_, failed, rfl⟩
  | ended front => exact .inr ⟨front, _, rfl, rfl⟩

/-- A comma in front of the end fails as one in front of a newline does. -/
example : ofSource "nop,\nnop" = ofSource "nop," := by decide +kernel

end Token

end BankAsm
