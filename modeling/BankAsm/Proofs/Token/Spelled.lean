import BankAsm.Proofs.Token.Accepted
import BankAsm.Proofs.Token.Lines

/-!
# Spellings are read back

Every form of a lexeme is read off the front of a text that starts with its spelling,
if a separator or nothing stands behind it (`Piece.read_of_form`). So a scan gives its
token and goes on behind it (`Token.scan_of_form`).
-/

namespace BankAsm

/-- Whether a text that stands behind a lexeme ends it. -/
def Separated (behind : List Char) : Prop := ∀ c ∈ behind.head?, isSeparator c

/-- A separator may stand in a source. -/
theorem legal_of_isSeparator {c : Char} (separator : isSeparator c) : isLegal c := by
  have cases : (((c = ' ' ∨ c = '\n') ∨ c = ',') ∨ c = '[') ∨ c = ']' := by
    simpa [isSeparator] using separator
  rcases cases with (((rfl | rfl) | rfl) | rfl) | rfl <;> decide

namespace Word

/-- No word of a list opens with a character that none of them opens with. -/
theorem contains_cons_eq_false {words : List String} {c : Char}
    (others : ∀ word ∈ words, word.toList.head? ≠ some c) (cs : List Char) :
    words.contains (String.ofList (c :: cs)) = false := by
  rw [List.contains_eq_mem, decide_eq_false_iff_not]
  intro member
  exact others _ member (by simp)

/-- No word opens with a quote or a slash. -/
theorem kind?_cons_eq_none {c : Char} (mark : c = '\'' ∨ c = '"' ∨ c = '/') (cs : List Char) :
    kind? (c :: cs) = none := by
  have vocabulary : ∀ words ∈ [Vocabulary.operations, Vocabulary.directives,
      Vocabulary.indexRegisters, Vocabulary.statusRegisters, Vocabulary.pointerRegisters],
      words.contains (String.ofList (c :: cs)) = false := by
    intro words among
    refine contains_cons_eq_false ?_ cs
    rcases mark with rfl | rfl | rfl <;> revert words <;> decide +kernel
  have letter : c.isAlpha = false := by rcases mark with rfl | rfl | rfl <;> rfl
  have reference : ∀ name, isReference (c :: name) = false := by
    intro name
    simp [isReference, letter]
  have assignment : isAssignment (c :: cs) = false := by
    cases cs with
    | nil => simp [isAssignment, isReference]
    | cons d cs => simp [isAssignment, reference]
  have digit : isDigit (c :: cs) = false := by
    have none : c.isDigit = false := by rcases mark with rfl | rfl | rfl <;> rfl
    cases cs <;> simp [isDigit, none]
  have rest : isDecimal (c :: cs) = false ∧ isHexadecimal (c :: cs) = false ∧
      isRun '<' 4 (c :: cs) = false ∧ isRun '>' 4 (c :: cs) = false ∧
      isRun '|' 2 (c :: cs) = false := by
    rcases mark with rfl | rfl | rfl <;> simp [isDecimal, isHexadecimal, isRun]
  simp_all [kind?, classes, Vocabulary.isMnemonic, Vocabulary.isDirective]

end Word

namespace Lexeme

variable {found : Lexeme} {behind : List Char}

/-- A run of regular characters ends where a separator stands or nothing. -/
theorem run_append {taken : List Char} (regular : ∀ c ∈ taken, isRegular c)
    (separated : Separated behind) (passed : List Char) :
    run passed (taken ++ behind) = .ok taken := by
  have front : (taken ++ behind).takeWhile isRegular = taken := by
    rw [List.takeWhile_append_of_pos regular]
    cases behind with
    | nil => simp
    | cons c behind =>
      have separator : isSeparator c := separated c rfl
      simp [isRegular, separator]
  unfold run
  simp only [front, List.drop_left]
  cases behind with
  | nil => rfl
  | cons c behind =>
    have legal : isLegal c := legal_of_isSeparator (separated c rfl)
    simp [legal]

/-- A literal is closed where a separator stands or nothing. -/
theorem close_of_separated (kind : TokenKind) (text spelling : List Char)
    (separated : Separated behind) :
    close kind (some text) spelling behind = .ok ⟨kind, text, spelling⟩ := by
  have empty : run spelling ([] ++ behind) = .ok [] := run_append (by simp) separated spelling
  rw [List.nil_append] at empty
  simp [close, empty]

/-- The text of a quoted character is a quote, or is not empty and has no quote. -/
theorem characterText?_cases {inner : List Char} (recognized : characterText? inner = some inner) :
    inner = ['\''] ∨ inner ≠ [] ∧ ∀ c ∈ inner, isLegal c ∧ c ≠ '\'' ∧ c ≠ '\n' := by
  unfold characterText? at recognized
  split at recognized
  case h_1 c =>
    split at recognized
    case isFalse => cases recognized
    case isTrue printable =>
      by_cases quote : c = '\''
      · exact .inl (by rw [quote])
      · refine .inr ⟨by simp, ?_⟩
        intro d member
        rw [List.mem_singleton.mp member]
        refine ⟨isLegal_of_isPrintable printable, quote, ?_⟩
        rintro rfl
        exact absurd printable (by decide)
  case h_2 =>
    split at recognized
    case isFalse => cases recognized
    case isTrue named =>
      right
      have all : Vocabulary.controlCharacters.all (fun entry => !entry.1.toList.isEmpty &&
          entry.1.toList.all fun c => isLegal c && c != '\'' && c != '\n') := by decide +kernel
      obtain ⟨entry, member, name⟩ := List.lookup_isSome_iff.mp named
      obtain rfl : inner = entry.1.toList := by simp [← eq_of_beq name]
      simpa [and_assoc] using List.all_eq_true.mp all entry member

/-- A quoted character is read back. -/
theorem readCharacter_append {inner : List Char} (recognized : characterText? inner = some inner)
    (separated : Separated behind) :
    readCharacter (inner ++ '\'' :: behind) =
      .ok ⟨.character, inner, '\'' :: inner ++ ['\'']⟩ := by
  rcases characterText?_cases recognized with rfl | ⟨filled, plain⟩
  · -- The quote itself opens and closes at once, so that only a third quote makes it whole.
    simp [readCharacter, close_of_separated _ _ _ separated]
  · have front : (inner ++ '\'' :: behind).takeWhile
        (fun c => isLegal c && c != '\'' && c != '\n') = inner := by
      rw [List.takeWhile_append_of_pos (by simpa [and_assoc] using plain)]
      simp
    unfold readCharacter
    simp only [front, List.drop_left, filled, if_false, recognized]
    exact close_of_separated _ _ _ separated

/-- One more character of a string in front of a body is read as it is escaped. -/
theorem readStringBody_escape {c : Char} (printable : isPrintable c ∨ c = '\n') (cs : List Char) :
    readStringBody (Token.escape c ++ cs) = .push (Token.escape c) c (readStringBody cs) := by
  unfold Token.escape
  split
  case h_1 => rfl
  case h_2 => rfl
  case h_3 => rfl
  case h_4 newline backslash quote =>
    have prints : isPrintable c := printable.resolve_right newline
    rw [List.singleton_append, readStringBody_cons cs quote backslash, if_pos prints]

/-- A string body is read back up to its closing quote. -/
theorem readStringBody_append {content : List Char}
    (printable : ∀ c ∈ content, isPrintable c ∨ c = '\n') (behind : List Char) :
    readStringBody (content.flatMap Token.escape ++ '"' :: behind) =
      ⟨content.flatMap Token.escape ++ ['"'], content, .closed⟩ := by
  induction content with
  | nil => rfl
  | cons c content inductionHypothesis =>
    obtain ⟨first, others⟩ := List.forall_mem_cons.mp printable
    rw [List.flatMap_cons, List.append_assoc, readStringBody_escape first,
      inductionHypothesis others]
    simp [StringBody.push]

/-- A quoted string is read back. -/
theorem readString_append {content : List Char} (filled : content ≠ [])
    (printable : ∀ c ∈ content, isPrintable c ∨ c = '\n') (separated : Separated behind) :
    readString (content.flatMap Token.escape ++ '"' :: behind) =
      .ok ⟨.string, content, '"' :: content.flatMap Token.escape ++ ['"']⟩ := by
  have rest : (content.flatMap Token.escape ++ '"' :: behind).drop
      (content.flatMap Token.escape ++ ['"']).length = behind := by
    rw [List.append_cons _ '"' behind, List.drop_left]
  unfold readString
  simp only [readStringBody_append printable, filled, if_false, rest]
  exact close_of_separated _ _ _ separated

/-- A word is read back. -/
theorem readWord_append {word : List Char} (regular : ∀ c ∈ word, isRegular c)
    (separated : Separated behind) : readWord (word ++ behind) = ofWord word := by
  unfold readWord
  rw [run_append regular separated]
  rfl

/-- A regular character is neither a gap nor a separator. -/
theorem not_separator_of_isRegular {c : Char} (regular : isRegular c) :
    c ≠ ' ' ∧ c ≠ '\n' ∧ c ≠ ',' ∧ c ≠ '[' ∧ c ≠ ']' := by
  have parts := (Bool.and_eq_true_iff.mp regular).2
  simpa [isSeparator, and_assoc] using parts

end Lexeme

namespace Piece

open Lexeme

variable {found : Lexeme} {behind : List Char}

/-- A character that opens a lexeme: no gap, no separator, and not the start of a comment. -/
theorem read_eq_lexeme {c : Char} {cs : List Char} (legal : isLegal c) (space : c ≠ ' ')
    (newline : c ≠ '\n') (comma : c ≠ ',') (slash : c ≠ '/')
    (read : Lexeme.read c cs = .ok found) : Piece.read c cs = .lexeme found := by
  simp [Piece.read, legal, space, newline, comma, slash, read]

/-- A word is a piece in front of what ends it. -/
theorem read_of_word {word : List Char} {kind : TokenKind} (known : Word.kind? word = some kind)
    (regular : ∀ c ∈ word, isRegular c) (spelled : ofWord word = .ok found)
    (separated : Separated behind) :
    ∃ c cs, word = c :: cs ∧ Piece.read c (cs ++ behind) = .lexeme found := by
  cases word with
  | nil => simp [Word.kind?_nil] at known
  | cons c cs =>
    have unmarked : ¬ (c = '\'' ∨ c = '"' ∨ c = '/') := by
      intro mark
      simp [Word.kind?_cons_eq_none mark] at known
    obtain ⟨quote, mark, slash⟩ : c ≠ '\'' ∧ c ≠ '"' ∧ c ≠ '/' := by simpa using unmarked
    have first : isRegular c := regular c List.mem_cons_self
    obtain ⟨space, newline, comma, opener, closer⟩ := not_separator_of_isRegular first
    refine ⟨c, cs, rfl, read_eq_lexeme (isLegal_of_isRegular first) space newline comma slash ?_⟩
    have whole : readWord (c :: cs ++ behind) = .ok found := by
      rw [readWord_append regular separated, spelled]
    simpa [Lexeme.read, opener, closer, quote, mark] using whole

/-- A lexeme of any form is the piece in front of a text that its spelling starts, if a
separator or nothing stands behind it. -/
theorem read_of_form (form : found.Form) (separated : Separated behind) :
    ∃ c cs, found.spelling = c :: cs ∧ Piece.read c (cs ++ behind) = .lexeme found := by
  cases form with
  | opener => exact ⟨'[', [], rfl, rfl⟩
  | closer => exact ⟨']', [], rfl, rfl⟩
  | @word kind word known plain _ regular =>
    refine read_of_word known regular ?_ separated
    unfold ofWord
    split
    case h_1 unknown => simp [known] at unknown
    case h_2 assigns => exact absurd (Option.some.inj (known.symm.trans assigns)) plain
    case h_3 other _ same =>
      obtain rfl : kind = other := Option.some.inj (known.symm.trans same)
      rfl
  | @label word known free regular =>
    refine read_of_word known regular ?_ separated
    simp [ofWord, known, free]
  | @character inner recognized =>
    refine ⟨'\'', inner ++ ['\''], rfl, ?_⟩
    have read := readCharacter_append recognized separated
    exact read_eq_lexeme (by decide) (by decide) (by decide) (by decide) (by decide)
      (by simpa [Lexeme.read] using read)
  | @string content filled printable =>
    refine ⟨'"', content.flatMap Token.escape ++ ['"'], rfl, ?_⟩
    have read := readString_append filled printable separated
    exact read_eq_lexeme (by decide) (by decide) (by decide) (by decide) (by decide)
      (by simpa [Lexeme.read] using read)

end Piece

namespace Token

/-- What is left of a piece is passed over. -/
theorem scan_skip {more : Nat} {cs : List Char} (inside : more ≤ cs.length) (previous : Previous)
    (position : Position) :
    scan more previous position cs =
      scan 0 previous (position.after (cs.take more)) (cs.drop more) := by
  induction cs generalizing more position with
  | nil =>
    obtain rfl : more = 0 := by simpa using inside
    rfl
  | cons c cs inductionHypothesis =>
    cases more with
    | zero => rfl
    | succ more =>
      rw [scan_cons_succ, inductionHypothesis (by simpa using inside)]
      rfl

/-- A scan of a spelling gives its token and goes on behind it. -/
theorem scan_of_form {found : Lexeme} (form : found.Form) {behind : List Char}
    (separated : Separated behind) (previous : Previous) (position : Position) :
    scan 0 previous position (found.spelling ++ behind) =
      .cons (found.token position) (scan 0 .lexeme (position.after found.spelling) behind) := by
  obtain ⟨c, cs, spelling, read⟩ := Piece.read_of_form form separated
  rw [spelling, List.cons_append, scan_cons_zero, read]
  simp only [spelling, List.length_cons, Nat.add_sub_cancel]
  rw [scan_skip (by simp), List.take_left, List.drop_left]
  rfl

end Token

end BankAsm
