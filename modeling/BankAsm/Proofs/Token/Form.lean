import BankAsm.Proofs.Outcome
import BankAsm.Token.Lexeme
import BankAsm.Token.Spelling

/-!
# Forms of lexemes

`Lexeme.Form` says, with one case for each way to write a token, what a lexeme can be.
A lexeme that is cut has a form and stands at the front of the source (`form_of_read`),
and the readers are opened nowhere else.
-/

namespace BankAsm

namespace Word

variable {word : List Char} {kind : TokenKind}

/-- A word of a kind passes the test of a class of the kind. -/
theorem exists_test_of_kind? (found : kind? word = some kind) :
    ∃ test, (kind, test) ∈ classes ∧ test word := by
  obtain ⟨entry, first, rfl⟩ := Option.map_eq_some_iff.mp found
  have passed := List.find?_some first
  exact ⟨entry.2, List.mem_of_find?_eq_some first, passed⟩

/-- A word of a kind passes the test of the only class of the kind. -/
theorem test_of_kind? {test : List Char → Bool}
    (only : ∀ other, (kind, other) ∈ classes → other = test) (found : kind? word = some kind) :
    test word := by
  obtain ⟨other, member, passed⟩ := exists_test_of_kind? found
  rw [only other member] at passed
  exact passed

/-- No class holds the empty word. -/
theorem kind?_nil : kind? [] = none := by decide

/-- A word that names a label ends in a colon. -/
theorem eq_concat_of_assignment (found : kind? word = some .assignment) :
    word = word.dropLast ++ [':'] := by
  have assigns : isAssignment word := test_of_kind? (by simp [classes]) found
  have colon : word.getLast? = some ':' := by
    simpa using (Bool.and_eq_true_iff.mp assigns).1
  obtain ⟨name, rfl⟩ := List.getLast?_eq_some_iff.mp colon
  simp

end Word

/-- A character that continues a run may stand in a source. -/
theorem isLegal_of_isRegular {c : Char} (regular : isRegular c) : isLegal c :=
  (Bool.and_eq_true_iff.mp regular).1

/-- A character that prints as itself may stand in a source. -/
theorem isLegal_of_isPrintable {c : Char} (printable : isPrintable c) : isLegal c := by
  obtain ⟨low, high⟩ := Bool.and_eq_true_iff.mp printable
  have below : c ≤ '~' := of_decide_eq_true high
  have further : c ≤ '\x7F' := Char.le_trans below (by decide)
  simp [isLegal, further, of_decide_eq_true low]

namespace Lexeme

/-- The ways to write a token. -/
inductive Form : Lexeme → Prop where
  | opener : Form ⟨.opener, ['['], ['[']⟩
  | closer : Form ⟨.closer, [']'], [']']⟩
  | word {kind word}
      (found : Word.kind? word = some kind)
      (plain : kind ≠ .assignment)
      (filled : word ≠ [])
      (regular : ∀ c ∈ word, isRegular c) :
      Form ⟨kind, word, word⟩
  | label {word}
      (found : Word.kind? word = some .assignment)
      (free : Vocabulary.isWord (String.ofList word.dropLast) = false)
      (regular : ∀ c ∈ word, isRegular c) :
      Form ⟨.assignment, word.dropLast, word⟩
  | character {inner}
      (recognized : characterText? inner = some inner)
      (legal : ∀ c ∈ inner, isLegal c) :
      Form ⟨.character, inner, '\'' :: inner ++ ['\'']⟩
  | string {content}
      (filled : content ≠ [])
      (printable : ∀ c ∈ content, isPrintable c ∨ c = '\n') :
      Form ⟨.string, content, '"' :: content.flatMap Token.escape ++ ['"']⟩

variable {lexeme : Lexeme} {c : Char} {cs : List Char}

/-- The text of a quoted character is what stands between the quotes. -/
theorem eq_of_characterText? {inner text : List Char}
    (recognized : characterText? inner = some text) : text = inner := by
  unfold characterText? at recognized
  split at recognized
  case h_1 =>
    split at recognized
    · exact (Option.some.inj recognized).symm
    · cases recognized
  case h_2 =>
    split at recognized
    · exact (Option.some.inj recognized).symm
    · cases recognized

/-- A run that is read consists of regular characters and stands at the front. -/
theorem run_eq_ok {passed taken : List Char} (found : run passed cs = .ok taken) :
    taken = cs.takeWhile isRegular := by
  unfold run at found
  simp only at found
  split at found
  case h_1 => exact (Except.ok.inj found).symm
  case h_2 =>
    split at found
    · exact (Except.ok.inj found).symm
    · cases found

/-- A literal that is closed has the text it was recognized by. -/
theorem close_eq_ok {kind : TokenKind} {text? : Option (List Char)} {spelling behind : List Char}
    (closed : close kind text? spelling behind = .ok lexeme) :
    ∃ text, text? = some text ∧ lexeme = ⟨kind, text, spelling⟩ := by
  unfold close at closed
  split at closed
  case h_1 => cases closed
  case h_2 =>
    split at closed
    case h_1 text =>
      cases closed
      exact ⟨text, rfl, rfl⟩
    case h_2 => cases closed
  case h_3 => cases closed

/-- The word that a lexeme was made of. -/
theorem form_of_ofWord {word : List Char} (regular : ∀ c ∈ word, isRegular c)
    (spelled : ofWord word = .ok lexeme) : Form lexeme ∧ lexeme.spelling = word := by
  unfold ofWord at spelled
  split at spelled
  case h_1 => cases spelled
  case h_2 found =>
    simp only at spelled
    split at spelled
    case isTrue => cases spelled
    case isFalse free =>
      cases spelled
      exact ⟨.label found (by simpa using free) regular, rfl⟩
  case h_3 kind plain found =>
    cases spelled
    have filled : word ≠ [] := by
      rintro rfl
      exact absurd found (by simp [Word.kind?_nil])
    exact ⟨.word found plain filled regular, rfl⟩

/-- What a run was taken from is the run and what is left. -/
theorem takeWhile_append_drop (test : Char → Bool) (cs : List Char) :
    cs.takeWhile test ++ cs.drop (cs.takeWhile test).length = cs :=
  List.prefix_iff_eq_append.mp (List.takeWhile_prefix test)

/-- What is taken as long as a test holds passes the test. -/
theorem of_mem_takeWhile {test : Char → Bool} {c : Char} (member : c ∈ cs.takeWhile test) :
    test c :=
  List.all_eq_true.mp List.all_takeWhile c member

/-- A quoted character that is cut. -/
theorem form_of_readCharacter (read : readCharacter cs = .ok lexeme) :
    Form lexeme ∧ lexeme.spelling <+: '\'' :: cs := by
  unfold readCharacter at read
  have whole := takeWhile_append_drop (fun c => isLegal c && c != '\'' && c != '\n') cs
  have legal : ∀ c ∈ cs.takeWhile (fun c => isLegal c && c != '\'' && c != '\n'), isLegal c := by
    intro c member
    have passed := of_mem_takeWhile member
    simp only [Bool.and_eq_true] at passed
    exact passed.1.1
  simp only at read
  generalize cs.takeWhile (fun c => isLegal c && c != '\'' && c != '\n') = inner at *
  split at read
  case h_1 behind rest =>
    rw [rest] at whole
    split at read
    case isTrue empty =>
      subst empty
      split at read
      case h_1 further =>
        obtain ⟨text, recognized, rfl⟩ := close_eq_ok read
        cases recognized
        have legalQuote : ∀ c ∈ ['\''], isLegal c := by
          intro c member
          rw [List.mem_singleton.mp member]
          decide
        have form : Form ⟨.character, ['\''], '\'' :: ['\''] ++ ['\'']⟩ :=
          .character (by decide) legalQuote
        refine ⟨form, ?_⟩
        rw [← whole]
        exact ⟨further, rfl⟩
      case h_2 => cases read
    case isFalse =>
      obtain ⟨text, recognized, rfl⟩ := close_eq_ok read
      obtain rfl := eq_of_characterText? recognized
      refine ⟨.character recognized legal, ?_⟩
      rw [← whole]
      exact ⟨behind, by simp⟩
  case h_2 =>
    split at read
    case isTrue => cases read
    case isFalse => cases read
  case h_3 => cases read

/-- A string body that was read up to its closing quote: it is the content with
escapes and the quote, and stands at the front of the text. -/
structure Closed (body : StringBody) (cs : List Char) : Prop where
  spelling : body.spelling = body.content.flatMap Token.escape ++ ['"']
  front : body.spelling <+: cs
  printable : ∀ c ∈ body.content, isPrintable c ∨ c = '\n'

/-- One more character in front of a string body, written as it is escaped. -/
theorem Closed.push {body : StringBody} (closed : Closed body cs) {c : Char}
    (printable : isPrintable c ∨ c = '\n') :
    Closed (.push (Token.escape c) c body) (Token.escape c ++ cs) where
  spelling := by simp [StringBody.push, closed.spelling]
  front := by
    obtain ⟨behind, whole⟩ := closed.front
    exact ⟨behind, by simp [StringBody.push, whole]⟩
  printable := by
    intro other member
    rcases List.mem_cons.mp member with rfl | further
    · exact printable
    · exact closed.printable other further

/-- Reading a string body gives what was read up to the closing quote. -/
theorem closed_of_readStringBody (ends : (readStringBody cs).ending = .closed) :
    Closed (readStringBody cs) cs := by
  fun_induction readStringBody cs with
  | case1 => cases ends
  | case2 cs => exact ⟨rfl, ⟨cs, rfl⟩, by simp⟩
  | case3 cs inductionHypothesis => exact (inductionHypothesis ends).push (.inr rfl)
  | case4 cs inductionHypothesis =>
    exact (inductionHypothesis ends).push (c := '\\') (.inl (by decide))
  | case5 cs inductionHypothesis =>
    exact (inductionHypothesis ends).push (c := '"') (.inl (by decide))
  | case6 => cases ends
  | case7 c cs noQuote _ _ _ noBackslash printable inductionHypothesis =>
    have noNewline : c ≠ '\n' := by
      rintro rfl
      exact absurd printable (by decide)
    have plain := Token.escape_eq_self noNewline noBackslash noQuote
    simpa [plain] using (inductionHypothesis ends).push (.inl printable)
  | case8 => cases ends
  | case9 => cases ends
  | case10 => cases ends

/-- A quoted string that is cut. -/
theorem form_of_readString (read : readString cs = .ok lexeme) :
    Form lexeme ∧ lexeme.spelling <+: '"' :: cs := by
  unfold readString at read
  simp only at read
  split at read
  case h_1 => cases read
  case h_2 => cases read
  case h_3 ends =>
    split at read
    case isTrue => cases read
    case isFalse filled =>
      have body := closed_of_readStringBody ends
      obtain ⟨text, recognized, rfl⟩ := close_eq_ok read
      cases recognized
      constructor
      · rw [body.spelling]
        exact .string filled body.printable
      · exact List.cons_prefix_cons.mpr ⟨rfl, body.front⟩

/-- A lexeme that is cut has a form and stands at the front of the source. -/
theorem form_of_read {c : Char} (read : Lexeme.read c cs = .ok lexeme) :
    Form lexeme ∧ lexeme.spelling <+: c :: cs := by
  unfold Lexeme.read at read
  split at read
  case isTrue bracket =>
    cases read
    exact ⟨.opener, ⟨cs, by simp [bracket]⟩⟩
  case isFalse =>
    split at read
    case isTrue bracket =>
      cases read
      exact ⟨.closer, ⟨cs, by simp [bracket]⟩⟩
    case isFalse =>
      split at read
      case isTrue quote =>
        rw [quote]
        exact form_of_readCharacter read
      case isFalse =>
        split at read
        case isTrue quote =>
          rw [quote]
          exact form_of_readString read
        case isFalse =>
          obtain ⟨word, taken, spelled⟩ := Outcome.bind_eq_ok_iff.mp read
          obtain rfl := run_eq_ok taken
          obtain ⟨form, same⟩ := form_of_ofWord (fun _ member => of_mem_takeWhile member) spelled
          rw [same]
          exact ⟨form, List.takeWhile_prefix isRegular⟩

end Lexeme

end BankAsm
