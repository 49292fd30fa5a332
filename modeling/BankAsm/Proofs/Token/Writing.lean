import BankAsm.Proofs.Token.Spelled

/-!
# Statements are written and read back

Tokens that stand in sources can be written in any order and number: their spellings
with a space between, and a comma or a newline behind each statement. A scan of such a
text gives the tokens back, and what it adds are the ends (`reads_of_composes`).
-/

namespace BankAsm.Token

/-- A token without its place. -/
def content (t : Token) : TokenKind × String := (t.kind, t.text)

/-- Whether the token stands in some source, at any place. -/
def Valid (t : Token) : Prop := ∃ source, t.content ∈ (ofSource source).items.map content

/-- The spellings of tokens with a space between. -/
def line (tokens : List Token) : List Char := [' '].intercalate (tokens.map spelling)

/-- The texts that statements are written as: a comma or a newline stands behind each,
and behind the last one a newline or nothing. -/
inductive Composes : List (List Token) → List Char → Prop where
  | nil : Composes [] []
  | last (tokens : List Token) : Composes [tokens] (line tokens)
  | newline {statements text}
      (tokens : List Token)
      (rest : Composes statements text) :
      Composes (tokens :: statements) (line tokens ++ '\n' :: text)
  | comma {statements text}
      (tokens : List Token)
      (further : statements ≠ [])
      (rest : Composes statements text) :
      Composes (tokens :: statements) (line tokens ++ ',' :: text)

/-- What a scan gives of statements, places aside: the tokens of each and a terminator
behind them, and in the end that of the source. -/
def contents (statements : List (List Token)) : List (TokenKind × String) :=
  statements.flatMap (fun tokens => tokens.map content ++ [(.terminator, ";")]) ++ [(.eof, ";")]

/-- A feed without a failure that has tokens with the given kinds and texts. -/
structure Reads (feed : Feed Diagnostic Token) (expected : List (TokenKind × String)) : Prop where
  unbroken : feed.failure = none
  items : feed.items.map content = expected

/-- One more token in front. -/
theorem Reads.cons {feed : Feed Diagnostic Token} {expected : List (TokenKind × String)}
    (reads : Reads feed expected) (t : Token) : Reads (.cons t feed) (t.content :: expected) where
  unbroken := reads.unbroken
  items := by simp [reads.items]

/-- Tokens of one content are spelled alike, and end the same. -/
theorem spelling_of_content {t other : Token} (same : t.content = other.content) :
    t.spelling = other.spelling ∧ t.isEnding = other.isEnding := by
  obtain ⟨kind, text⟩ := Prod.mk.inj same
  simp only [spelling, isEnding, kind, text, and_self]

/-- A token that stands in a source and ends nothing is that of a lexeme, and is spelled
like it. -/
theorem Valid.exists_form {t : Token} (valid : t.Valid) (plain : t.isEnding = false) :
    ∃ found : Lexeme, found.Form ∧ found.spelling = t.spelling ∧
      ∀ position, (found.token position).content = t.content := by
  obtain ⟨source, member⟩ := valid
  obtain ⟨other, among, same⟩ := List.mem_map.mp member
  obtain ⟨spelled, ends⟩ := spelling_of_content same
  rcases cases_of_mem_scan among with ending | ⟨found, form, cut⟩
  · simp [ends, plain] at ending
  · refine ⟨found, form, ?_, fun position => ?_⟩
    · rw [← spelled, cut]
      exact (form.spelling_token other.position).symm
    · rw [← same, cut]
      rfl

variable {tokens : List Token} {behind : List Char} {expected : List (TokenKind × String)}

/-- A token is read off the front of a text, and then what stands behind it. -/
theorem reads_spelling {t : Token} (valid : t.Valid) (plain : t.isEnding = false)
    (separated : Separated behind)
    (further : ∀ position, Reads (scan 0 .lexeme position behind) expected)
    (previous : Previous) (position : Position) :
    Reads (scan 0 previous position (t.spelling ++ behind)) (t.content :: expected) := by
  obtain ⟨found, form, spelling, alike⟩ := valid.exists_form plain
  rw [← spelling, scan_of_form form separated, ← alike position]
  exact (further _).cons _

/-- A line is read token by token, and then what stands behind it. -/
theorem reads_line (filled : tokens ≠ [])
    (valid : ∀ t ∈ tokens, t.Valid ∧ t.isEnding = false) (separated : Separated behind)
    (further : ∀ position, Reads (scan 0 .lexeme position behind) expected)
    (previous : Previous) (position : Position) :
    Reads (scan 0 previous position (line tokens ++ behind)) (tokens.map content ++ expected) := by
  induction tokens generalizing previous position with
  | nil => exact absurd rfl filled
  | cons t tokens inductionHypothesis =>
    obtain ⟨⟨standing, plain⟩, others⟩ := List.forall_mem_cons.mp valid
    cases tokens with
    | nil =>
      have alone : line [t] = t.spelling := by simp [line]
      rw [alone]
      exact reads_spelling standing plain separated further previous position
    | cons u tokens =>
      have spaced : line (t :: u :: tokens) ++ behind =
          t.spelling ++ ' ' :: (line (u :: tokens) ++ behind) := by
        simp [line, List.intercalate]
      rw [spaced]
      refine reads_spelling standing plain ?_ ?_ previous position
      · simp [Separated, isSeparator]
      · -- The space is a gap of its own, behind which the line goes on.
        intro next
        exact inductionHypothesis (by simp) others .lexeme (next.step ' ')

/-- A statement is read up to the separator behind it, which gives a terminator. -/
theorem reads_statement (filled : tokens ≠ [])
    (valid : ∀ t ∈ tokens, t.Valid ∧ t.isEnding = false) {separator : Char} {text : List Char}
    (separates : separator = '\n' ∨ separator = ',')
    (further : ∀ position, Reads (scan 0 (.ofSeparator separator) position text) expected)
    (previous : Previous) (position : Position) :
    Reads (scan 0 previous position (line tokens ++ separator :: text))
      (tokens.map content ++ (.terminator, ";") :: expected) := by
  refine reads_line filled valid ?_ ?_ previous position
  · rcases separates with rfl | rfl <;> simp [Separated, isSeparator]
  · intro place
    have read : Piece.read separator text = .separator := by
      rcases separates with rfl | rfl <;> rfl
    rw [scan_cons_zero, read]
    exact (further (place.step separator)).cons (terminator place)

/-- A text that statements are written as is read as these statements, at the start of a
line or, if there are any, behind a comma. -/
theorem reads_of_composes {statements : List (List Token)} {text : List Char}
    (composes : Composes statements text)
    (valid : ∀ tokens ∈ statements, tokens ≠ [] ∧ ∀ t ∈ tokens, t.Valid ∧ t.isEnding = false)
    (previous : Previous) (fresh : statements = [] → previous.close '\n' = .nothing)
    (position : Position) :
    Reads (scan 0 previous position text) (contents statements) := by
  induction composes generalizing previous position with
  | nil =>
    simp only [scan, finish, fresh rfl]
    exact ⟨rfl, rfl⟩
  | last tokens =>
    obtain ⟨filled, standing⟩ := valid tokens List.mem_cons_self
    have ends : ∀ place, Reads (scan 0 .lexeme place []) [(.terminator, ";"), (.eof, ";")] :=
      fun _ => ⟨rfl, rfl⟩
    simpa [contents] using
      reads_line filled standing (by simp [Separated]) ends previous position
  | newline tokens rest inductionHypothesis =>
    obtain ⟨⟨filled, standing⟩, others⟩ := List.forall_mem_cons.mp valid
    have further := inductionHypothesis others .newline fun _ => rfl
    simpa [contents] using
      reads_statement filled standing (.inl rfl) further previous position
  | comma tokens more rest inductionHypothesis =>
    -- A comma may not stand in front of the end, so a further statement must follow.
    obtain ⟨⟨filled, standing⟩, others⟩ := List.forall_mem_cons.mp valid
    have further := inductionHypothesis others .comma fun none => absurd none more
    simpa [contents] using
      reads_statement filled standing (.inr rfl) further previous position

/-- Statements of any tokens that stand in sources, written with spaces between the tokens
and with separators of any kind behind the statements, are read as these tokens with one
terminator behind each statement and the end of the source. -/
theorem content_ofSource_of_composes {statements : List (List Token)} {text : List Char}
    (valid : ∀ tokens ∈ statements, tokens ≠ [] ∧ ∀ t ∈ tokens, t.Valid ∧ t.isEnding = false)
    (composes : Composes statements text) :
    (ofSource (String.ofList text)).failure = none ∧
      (ofSource (String.ofList text)).items.map content = contents statements := by
  have reads := reads_of_composes composes valid .nothing (fun _ => rfl) .start
  rw [ofSource, String.toList_ofList]
  exact ⟨reads.unbroken, reads.items⟩

/-- A quote, a string of all that is escaped and of separators, and a label, in two
statements with a comma between. -/
theorem content_ofSource_of_composes_of_literals :
    ∃ statements : List (List Token),
      statements.map (·.map content) =
        [[(.mnemonic, "DATA"), (.character, "'"), (.string, "a, [\"\\\n]//")],
          [(.assignment, "end"), (.mnemonic, "jump"), (.opener, "["), (.loop, "<<"),
            (.closer, "]")]] ∧
      (∀ tokens ∈ statements, tokens ≠ [] ∧ ∀ t ∈ tokens, t.Valid ∧ t.isEnding = false) ∧
      Composes statements "DATA ''' \"a, [\\\"\\\\\\n]//\",end: jump [ << ]".toList ∧
      (ofSource (String.ofList
        "DATA ''' \"a, [\\\"\\\\\\n]//\",end: jump [ << ]".toList)).items.map content =
          contents statements := by
  obtain ⟨first, first_eq⟩ : ∃ tokens : List Token, tokens = [⟨.mnemonic, "DATA", .nowhere⟩,
    ⟨.character, "'", .nowhere⟩, ⟨.string, "a, [\"\\\n]//", .nowhere⟩] := ⟨_, rfl⟩
  obtain ⟨second, second_eq⟩ : ∃ tokens : List Token, tokens = [⟨.assignment, "end", .nowhere⟩,
    ⟨.mnemonic, "jump", .nowhere⟩, ⟨.opener, "[", .nowhere⟩, ⟨.loop, "<<", .nowhere⟩,
    ⟨.closer, "]", .nowhere⟩] := ⟨_, rfl⟩
  have standing : ∀ tokens ∈ [first, second], tokens ≠ [] ∧ ∀ t ∈ tokens,
      t.content ∈ (ofSource "jump\nDATA '''\n\"a, [\\\"\\\\\\n]//\"[end:][<<]").items.map content ∧
        t.isEnding = false := by
    rw [first_eq, second_eq]
    decide +kernel
  have valid : ∀ tokens ∈ [first, second],
      tokens ≠ [] ∧ ∀ t ∈ tokens, t.Valid ∧ t.isEnding = false := by
    intro tokens among
    obtain ⟨filled, each⟩ := standing tokens among
    exact ⟨filled, fun t member => ⟨⟨_, (each t member).1⟩, (each t member).2⟩⟩
  have text : "DATA ''' \"a, [\\\"\\\\\\n]//\",end: jump [ << ]".toList =
      line first ++ ',' :: line second := by
    rw [first_eq, second_eq]
    decide +kernel
  have composes : Composes [first, second] (line first ++ ',' :: line second) :=
    .comma first (by simp) (.last second)
  rw [text]
  refine ⟨[first, second], ?_, valid, composes, (content_ofSource_of_composes valid composes).2⟩
  rw [first_eq, second_eq]
  rfl

end BankAsm.Token
