import BankAsm.Proofs.Token.Form
import BankAsm.Token.Scan

/-!
# Pieces of a source

`Piece.Cut` says, with one case for each kind of piece, what stands at the front of a
source, and `cut_read` that the reader finds it there.
-/

namespace BankAsm.Piece

/-- The pieces that a source can start with. -/
inductive Cut (c : Char) (cs : List Char) : Piece → Prop where
  | illegal (illegal : isLegal c = false) : Cut c cs (.misfit (.illegal c []))
  | space (space : c = ' ') : Cut c cs (.gap 0)
  | comment
      (first : c = '/')
      (second : cs.head? = some '/') :
      Cut c cs (.gap (commentLength cs))
  | separator (separates : c = '\n' ∨ c = ',') : Cut c cs .separator
  | lexeme {found} (cut : Lexeme.read c cs = .ok found) : Cut c cs (.lexeme found)
  | misfit {fault} (fails : Lexeme.read c cs = .error fault) : Cut c cs (.misfit fault)

/-- The piece that is read stands at the front. -/
theorem cut_read (c : Char) (cs : List Char) : Cut c cs (Piece.read c cs) := by
  unfold Piece.read
  split
  case isTrue illegal => exact .illegal (by simpa using illegal)
  case isFalse =>
    split
    case isTrue space => exact .space space
    case isFalse =>
      split
      case isTrue slashes => exact .comment slashes.1 slashes.2
      case isFalse =>
        split
        case isTrue separates => exact .separator separates
        case isFalse =>
          split
          case h_1 cut => exact .lexeme cut
          case h_2 fails => exact .misfit fails

variable {c : Char} {cs : List Char}

/-- A lexeme at the front of a source is one that was cut. -/
theorem lexeme_of_read {found : Lexeme} (read : Piece.read c cs = .lexeme found) :
    Lexeme.read c cs = .ok found := by
  have cut := cut_read c cs
  rw [read] at cut
  cases cut with
  | lexeme cut => exact cut

/-- A separator is a newline or a comma. -/
theorem separates_of_read (read : Piece.read c cs = .separator) : c = '\n' ∨ c = ',' := by
  have cut := cut_read c cs
  rw [read] at cut
  cases cut with
  | separator separates => exact separates

/-- What belongs to a gap stands in the source. -/
theorem le_of_read_gap {more : Nat} (read : Piece.read c cs = .gap more) : more ≤ cs.length := by
  have cut := cut_read c cs
  rw [read] at cut
  cases cut with
  | space => exact Nat.zero_le _
  | comment => exact (List.takeWhile_prefix _).length_le

/-- A lexeme at the front of a source has a form, and what belongs to it stands there. -/
theorem form_of_read {found : Lexeme} (read : Piece.read c cs = .lexeme found) :
    found.Form ∧ found.spelling <+: c :: cs :=
  Lexeme.form_of_read (lexeme_of_read read)

/-- What belongs to a lexeme behind its first character stands in the source. -/
theorem le_of_read_lexeme {found : Lexeme} (read : Piece.read c cs = .lexeme found) :
    found.spelling.length - 1 ≤ cs.length := by
  have front := (form_of_read read).2.length_le
  rw [List.length_cons] at front
  omega

/-- A newline is a separator. -/
theorem read_newline (cs : List Char) : Piece.read '\n' cs = .separator := by
  have legal : isLegal '\n' = true := by decide
  simp [Piece.read, legal]

end BankAsm.Piece
