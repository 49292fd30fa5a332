import BankAsm.Proofs.Token.Sound

/-!
# Accepted texts

`Token.Accepts` says in big steps what a scan without a failure does: it takes one blank,
separator or lexeme after another off the front of the text (`accepts_of_scan`). What
holds of accepted texts is then shown with one case for each kind of piece.
-/

namespace BankAsm

/-- A word is of no kind without a class. -/
theorem Word.kind_ne_of_kind? {word : List Char} {kind : TokenKind} (other : TokenKind)
    (found : kind? word = some kind) (absent : ∀ test, (other, test) ∉ classes) :
    kind ≠ other := by
  rintro rfl
  obtain ⟨test, member, _⟩ := exists_test_of_kind? found
  exact absent test member

/-- The spelling of a token that is written as it reads. -/
theorem Token.spelling_eq_text {t : Token} (character : t.kind ≠ .character)
    (string : t.kind ≠ .string) (assignment : t.kind ≠ .assignment) :
    t.spelling = t.text.toList := by
  unfold Token.spelling
  split
  · contradiction
  · contradiction
  · contradiction
  · rfl

namespace Lexeme

variable {lexeme : Lexeme}

/-- The token that a lexeme becomes. -/
def token (lexeme : Lexeme) (position : Position) : Token :=
  ⟨lexeme.kind, String.ofList lexeme.text, position⟩

/-- A lexeme is spelled as its token is. -/
theorem Form.spelling_token (form : Form lexeme) (position : Position) :
    (lexeme.token position).spelling = lexeme.spelling := by
  cases form with
  | opener => simp [Token.spelling, token]
  | closer => simp [Token.spelling, token]
  | word found plain =>
    have character := Word.kind_ne_of_kind? .character found (by simp [Word.classes])
    have string := Word.kind_ne_of_kind? .string found (by simp [Word.classes])
    rw [Token.spelling_eq_text character string plain]
    exact String.toList_ofList
  | label found =>
    simp only [Token.spelling, token, String.toList_ofList]
    exact (Word.eq_concat_of_assignment found).symm
  | character => simp [Token.spelling, token]
  | string => simp [Token.spelling, token]

/-- No lexeme ends a statement. -/
theorem Form.isEnding_token (form : Form lexeme) (position : Position) :
    (lexeme.token position).isEnding = false := by
  cases form with
  | word found =>
    have terminator := Word.kind_ne_of_kind? .terminator found (by simp [Word.classes])
    have eof := Word.kind_ne_of_kind? .eof found (by simp [Word.classes])
    simp [Token.isEnding, token, terminator, eof]
  | _ => rfl

/-- A lexeme has at least one character. -/
theorem Form.spelling_ne_nil (form : Form lexeme) : lexeme.spelling ≠ [] := by
  cases form with
  | word _ _ filled => exact filled
  | label found =>
    rintro rfl
    exact absurd found (by simp [Word.kind?_nil])
  | _ => simp

/-- What stands for a character of a string may stand in a source. -/
theorem legal_of_mem_escape {c d : Char} (printable : isPrintable c ∨ c = '\n')
    (member : d ∈ Token.escape c) : isLegal d := by
  unfold Token.escape at member
  split at member
  case h_1 =>
    have either : d = '\\' ∨ d = 'n' := by simpa using member
    rcases either with rfl | rfl <;> decide
  case h_2 =>
    obtain rfl : d = '\\' := by simpa using member
    decide
  case h_3 =>
    have either : d = '\\' ∨ d = '"' := by simpa using member
    rcases either with rfl | rfl <;> decide
  case h_4 noNewline _ _ =>
    obtain rfl : d = c := by simpa using member
    exact isLegal_of_isPrintable (printable.resolve_right noNewline)

/-- Every character of a lexeme may stand in a source. -/
theorem Form.legal (form : Form lexeme) : ∀ c ∈ lexeme.spelling, isLegal c := by
  intro c member
  cases form with
  | opener =>
    obtain rfl : c = '[' := by simpa using member
    decide
  | closer =>
    obtain rfl : c = ']' := by simpa using member
    decide
  | word _ _ _ regular => exact isLegal_of_isRegular (regular c member)
  | label _ _ regular => exact isLegal_of_isRegular (regular c member)
  | @character inner _ legal =>
    have parts : c = '\'' ∨ c ∈ inner ∨ c = '\'' := by simpa using member
    rcases parts with rfl | inside | rfl
    · decide
    · exact legal c inside
    · decide
  | @string content _ printable =>
    have parts : c = '"' ∨ (∃ d ∈ content, c ∈ Token.escape d) ∨ c = '"' := by
      simpa using member
    rcases parts with rfl | ⟨d, inside, escaped⟩ | rfl
    · decide
    · exact legal_of_mem_escape (printable d inside) escaped
    · decide

end Lexeme

namespace Previous

variable {previous : Previous} {c : Char}

/-- Only behind a lexeme does a separator end a statement. -/
theorem eq_lexeme_of_close (closing : previous.close c = .terminator) : previous = .lexeme := by
  cases previous with
  | lexeme => rfl
  | comma => cases closing
  | nothing | newline =>
    by_cases newline : c = '\n' <;> simp [close, newline] at closing

/-- A separator that does nothing is a newline. -/
theorem eq_newline_of_close (closing : previous.close c = .nothing) : c = '\n' := by
  cases previous with
  | lexeme => cases closing
  | comma => cases closing
  | nothing | newline =>
    by_cases newline : c = '\n'
    · exact newline
    · simp [close, newline] at closing

/-- A separator is no lexeme. -/
theorem ofSeparator_ne_lexeme (separator : Char) : ofSeparator separator ≠ .lexeme := by
  unfold ofSeparator
  split <;> simp

end Previous

namespace Token

/-- A piece of a source that gives no token: a space or a comment, which goes on to the
end of its line. -/
inductive Blank (behind : List Char) : List Char → Prop where
  | space : Blank behind [' ']
  | comment {body}
      (legal : ∀ c ∈ body, isLegal c ∧ c ≠ '\n')
      (ends : behind = [] ∨ behind.head? = some '\n') :
      Blank behind ('/' :: '/' :: body)

/-- A text that is read without a failure, with its tokens, from a position on and behind
what was read last. -/
inductive Accepts : Previous → Position → List Char → List Token → Prop where
  | finished {position} : Accepts .lexeme position [] [terminator position, eof position]
  | ended {previous position}
      (fresh : previous.close '\n' = .nothing) :
      Accepts previous position [] [eof position]
  | blank {previous position front back tokens}
      (blank : Blank back front)
      (rest : Accepts previous (position.after front) back tokens) :
      Accepts previous position (front ++ back) tokens
  | line {previous position back tokens}
      (fresh : previous.close '\n' = .nothing)
      (rest : Accepts .newline (position.step '\n') back tokens) :
      Accepts previous position ('\n' :: back) tokens
  | terminator {separator position back tokens}
      (separates : separator = '\n' ∨ separator = ',')
      (rest : Accepts (.ofSeparator separator) (position.step separator) back tokens) :
      Accepts .lexeme position (separator :: back) (terminator position :: tokens)
  | lexeme {found : Lexeme} {previous position back tokens}
      (form : found.Form)
      (rest : Accepts .lexeme (position.after found.spelling) back tokens) :
      Accepts previous position (found.spelling ++ back) (found.token position :: tokens)

variable {previous : Previous} {position : Position} {cs : List Char} {tokens : List Token}

/-- Every character of a blank may stand in a source. -/
theorem Blank.legal {behind front : List Char} (blank : Blank behind front) :
    ∀ c ∈ front, isLegal c := by
  intro c member
  cases blank with
  | space =>
    obtain rfl : c = ' ' := by simpa using member
    decide
  | @comment body legal =>
    have parts : c = '/' ∨ c ∈ body := by simpa using member
    rcases parts with rfl | inside
    · decide
    · exact (legal c inside).1

/-- Every character of an accepted text may stand in a source. -/
theorem Accepts.legal (accepts : Accepts previous position cs tokens) : ∀ c ∈ cs, isLegal c := by
  induction accepts with
  | finished => simp
  | ended => simp
  | blank blank _ inductionHypothesis =>
    intro c member
    exact (List.mem_append.mp member).elim (blank.legal c) (inductionHypothesis c)
  | line _ _ inductionHypothesis =>
    intro c member
    rcases List.mem_cons.mp member with rfl | further
    · decide
    · exact inductionHypothesis c further
  | terminator separates _ inductionHypothesis =>
    intro c member
    rcases List.mem_cons.mp member with rfl | further
    · rcases separates with rfl | rfl <;> decide
    · exact inductionHypothesis c further
  | lexeme form _ inductionHypothesis =>
    intro c member
    exact (List.mem_append.mp member).elim (form.legal c) (inductionHypothesis c)

/-- The comment that starts with two slashes. -/
theorem blank_of_comment {cs : List Char} (slash : cs.head? = some '/')
    (legal : ∀ c ∈ cs.drop (Piece.commentLength cs), isLegal c) :
    Blank (cs.drop (Piece.commentLength cs)) ('/' :: cs.take (Piece.commentLength cs)) := by
  obtain ⟨further, rfl⟩ := List.head?_eq_some_iff.mp slash
  -- The second slash belongs to the run that makes the comment.
  have length : Piece.commentLength ('/' :: further) = Piece.commentLength further + 1 := by
    have slashLegal : isLegal '/' = true := by decide
    simp [Piece.commentLength, slashLegal]
  rw [length, List.drop_succ_cons] at legal ⊢
  rw [List.take_succ_cons]
  have whole := Lexeme.takeWhile_append_drop (fun c => isLegal c && c != '\n') further
  have body : further.take (Piece.commentLength further) =
      further.takeWhile fun c => isLegal c && c != '\n' :=
    (List.prefix_iff_eq_take.mp (List.takeWhile_prefix _)).symm
  refine .comment ?_ ?_
  · intro c member
    rw [body] at member
    simpa using Lexeme.of_mem_takeWhile member
  · have behind : further.drop (Piece.commentLength further) =
        further.dropWhile fun c => isLegal c && c != '\n' :=
      List.append_cancel_left (whole.trans List.takeWhile_append_dropWhile.symm)
    have stops := List.head?_dropWhile_not (fun c => isLegal c && c != '\n') further
    rw [← behind] at stops
    cases first : further.drop (Piece.commentLength further) with
    | nil => exact .inl rfl
    | cons d rest =>
      rw [first] at stops
      have legalFirst : isLegal d := legal d (by simp [first])
      have newline : d = '\n' := by simpa [legalFirst] using stops
      exact .inr (by rw [newline]; rfl)

/-- The blank that a gap is. -/
theorem blank_of_read {c : Char} {cs : List Char} {more : Nat}
    (read : Piece.read c cs = .gap more) (legal : ∀ c ∈ cs.drop more, isLegal c) :
    Blank (cs.drop more) (c :: cs.take more) := by
  have cut := Piece.cut_read c cs
  rw [read] at cut
  cases cut with
  | space space =>
    rw [space]
    exact .space
  | comment first second =>
    rw [first]
    exact blank_of_comment second legal

/-- The end of a source that is read without a failure. -/
theorem accepts_of_finish (accepted : (finish previous position).failure = none) :
    Accepts previous position [] (finish previous position).items := by
  unfold finish at accepted ⊢
  cases closing : previous.close '\n' with
  | terminator =>
    obtain rfl := Previous.eq_lexeme_of_close closing
    exact .finished
  | nothing => exact .ended closing
  | empty => simp [closing, Feed.fail] at accepted

/-- A scan without a failure accepts the text behind the piece that it is in. -/
theorem accepts_of_scan {more : Nat} (inside : more ≤ cs.length)
    (accepted : (scan more previous position cs).failure = none) :
    Accepts previous (position.after (cs.take more)) (cs.drop more)
      (scan more previous position cs).items := by
  -- Along the recursion of the scan: what `more` counts has been read as part of a piece
  -- already, and the piece itself is added where it starts.
  induction cs generalizing more previous position with
  | nil =>
    rw [List.take_nil, List.drop_nil]
    exact accepts_of_finish accepted
  | cons c cs inductionHypothesis =>
    cases more with
    | succ more =>
      have further : more ≤ cs.length := by simpa using inside
      exact inductionHypothesis further accepted
    | zero =>
      rw [scan_cons_zero] at accepted ⊢
      cases read : Piece.read c cs with
      | gap more =>
        simp only [read] at accepted ⊢
        have rest := inductionHypothesis (Piece.le_of_read_gap read) accepted
        have whole : Accepts previous position ((c :: cs.take more) ++ cs.drop more) _ :=
          .blank (blank_of_read read rest.legal) rest
        simpa using whole
      | separator =>
        simp only [read] at accepted ⊢
        cases closing : previous.close c with
        | terminator =>
          simp only [closing] at accepted ⊢
          obtain rfl := Previous.eq_lexeme_of_close closing
          have rest := inductionHypothesis (Nat.zero_le _) accepted
          exact .terminator (Piece.separates_of_read read) rest
        | nothing =>
          simp only [closing] at accepted ⊢
          obtain rfl := Previous.eq_newline_of_close closing
          exact .line closing (inductionHypothesis (Nat.zero_le _) accepted)
        | empty => simp [closing, Feed.fail] at accepted
      | lexeme found =>
        simp only [read] at accepted ⊢
        obtain ⟨form, behind, front⟩ := Piece.form_of_read read
        obtain ⟨d, spelled, spelling⟩ := List.exists_cons_of_ne_nil form.spelling_ne_nil
        rw [spelling, List.cons_append] at front
        obtain ⟨rfl, rfl⟩ := List.cons.inj front
        have rest := inductionHypothesis (Piece.le_of_read_lexeme read) accepted
        have length : found.spelling.length - 1 = spelled.length := by simp [spelling]
        rw [length, List.take_left, List.drop_left] at rest
        have whole : Accepts previous position (found.spelling ++ behind) _ :=
          .lexeme form (by rw [spelling]; exact rest)
        rw [spelling] at whole
        rw [length]
        exact whole
      | misfit fault => simp [read, Feed.fail] at accepted

end Token

end BankAsm
