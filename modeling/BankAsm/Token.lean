import BankAsm.Position
import BankAsm.Text.Numeral
import BankAsm.Token.Kind
import BankAsm.Vocabulary

/-!
# Tokens

A token is a kind, a text and the position where its spelling starts. The text
of a label lacks its colon, that of a character its quotes, and that of a string
is what the string denotes; every other text is the spelling.
-/

namespace BankAsm

/-- A piece of a source that stands for itself. -/
structure Token where
  kind : TokenKind
  text : String
  position : Position
deriving DecidableEq

namespace Token

/-- The byte that a character's text denotes: a single ASCII character stands for
its own code, and everything else must be the name of a control character. -/
def characterCode? (text : String) : Option UInt8 :=
  match text.toList with
  | [c] => if c.toNat < 128 then some (UInt8.ofNat c.toNat) else Vocabulary.controlCode? text
  | _ => Vocabulary.controlCode? text

/-- The byte that a constant token denotes. Negative decimals count down from 256. -/
def value? (t : Token) : Option UInt8 :=
  match t.kind with
  | .digit | .decimal =>
    (Text.Numeral.signed? t.text.toList).map fun n => UInt8.ofNat (n % 256).toNat
  | .hexadecimal =>
    match t.text.toList with
    | [] => none
    | mark :: digits =>
      if mark.toNat < 128 then (Text.Numeral.readByte 16 digits).toOption else none
  | .character => characterCode? t.text
  | _ => none

/-- How many statements a vector token steps over, its length in bytes. -/
def steps (t : Token) : Nat := t.text.utf8ByteSize

end Token

end BankAsm
