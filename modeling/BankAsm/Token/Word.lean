import BankAsm.Text.Numeral
import BankAsm.Token.Kind
import BankAsm.Vocabulary

/-!
# Words

A run of regular characters is a word, and the first class that holds it gives
its kind.
-/

namespace BankAsm.Word

/-- Whether a word is a sign and one to three digits, for a number of a byte with
or without sign. Minus zero is no number. -/
def isDecimal (word : List Char) : Bool :=
  match word with
  | sign :: digits =>
    (sign == '+' || sign == '-') && 1 ≤ digits.length && digits.length ≤ 3 && word != ['-', '0']
      && digits.all Char.isDigit
      && (Text.Numeral.signed? word).any fun n => -128 ≤ n && n ≤ 255
  | [] => false

/-- Whether a character is a digit or one of the upper-case letters up to `F`. -/
def isHexDigit (c : Char) : Bool := c.isDigit || ('A' ≤ c && c ≤ 'F')

/-- Whether a word is a mark and two hexadecimal digits. -/
def isHexadecimal : List Char → Bool
  | ['#', high, low] => isHexDigit high && isHexDigit low
  | _ => false

/-- Whether a word repeats one character, at most so many times. -/
def isRun (c : Char) (most : Nat) (word : List Char) : Bool :=
  1 ≤ word.length && word.length ≤ most && word.all (· == c)

/-- Whether a word is one ASCII digit. -/
def isDigit : List Char → Bool
  | [c] => c.isDigit
  | _ => false

/-- Whether a word can name a label: an ASCII letter, then ASCII letters and digits. -/
def isReference : List Char → Bool
  | c :: cs => c.isAlpha && cs.all Char.isAlphanum
  | [] => false

/-- Whether a word names a label that it assigns: the name and a colon. -/
def isAssignment (word : List Char) : Bool :=
  word.getLast? == some ':' && isReference word.dropLast

/-- The classes of words, in the order in which they are tried. -/
def classes : List (TokenKind × (List Char → Bool)) :=
  [(.mnemonic, fun word => Vocabulary.isMnemonic (String.ofList word)),
   (.index, fun word => Vocabulary.indexRegisters.contains (String.ofList word)),
   (.status, fun word => Vocabulary.statusRegisters.contains (String.ofList word)),
   (.pointer, fun word => Vocabulary.pointerRegisters.contains (String.ofList word)),
   (.digit, isDigit),
   (.decimal, isDecimal),
   (.hexadecimal, isHexadecimal),
   (.loop, isRun '<' 4),
   (.skip, isRun '>' 4),
   (.newline, isRun '|' 2),
   (.reference, isReference),
   (.assignment, isAssignment)]

/-- The kind of a word: the first class that holds it. -/
def kind? (word : List Char) : Option TokenKind :=
  (classes.find? fun entry => entry.2 word).map (·.1)

end BankAsm.Word
