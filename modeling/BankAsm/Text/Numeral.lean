/-!
# Numerals

Reading of numbers written in digits. A numeral is an optional plus sign and at
least one digit of the base; `readByte` holds its value below 256 and says what
is wrong with any other text. `signed?` is the decimal reading with a sign on
either side of zero that sixteen bits can hold. `hex` writes a number in upper-case
hexadecimal digits, at least two of them, so a byte has exactly two.
-/

namespace BankAsm.Text

namespace Numeral

/-- What is wrong with a text that is no numeral of a byte. -/
inductive Fault where
  | empty
  | invalidDigit
  | tooLarge
deriving DecidableEq

/-- The wording of a fault. -/
def Fault.text : Fault → String
  | .empty => "cannot parse integer from empty string"
  | .invalidDigit => "invalid digit found in string"
  | .tooLarge => "number too large to fit in target type"

/-- The value of an ASCII digit or letter, a letter of either case counting on
from ten, when it is below the base. -/
def digit? (base : Nat) (c : Char) : Option Nat :=
  let value? :=
    if c.isDigit then some (c.toNat - '0'.toNat)
    else if c.isLower then some (c.toNat - 'a'.toNat + 10)
    else if c.isUpper then some (c.toNat - 'A'.toNat + 10)
    else none
  value?.filter (· < base)

/-- Continues a value with the digits that follow, from left to right. The first
character that is no digit, or the first digit that takes the value past 255,
decides the fault. -/
def readDigits (base value : Nat) : List Char → Except Fault Nat
  | [] => .ok value
  | c :: cs =>
    match digit? base c with
    | none => .error .invalidDigit
    | some d =>
      if base * value + d < 256 then readDigits base (base * value + d) cs else .error .tooLarge

/-- The byte that a numeral of the base denotes. -/
def readByte (base : Nat) : List Char → Except Fault UInt8
  | [] => .error .empty
  | ['+'] => .error .invalidDigit
  | '+' :: cs => UInt8.ofNat <$> readDigits base 0 cs
  | cs => UInt8.ofNat <$> readDigits base 0 cs

/-- Whether a character is a digit of the base. -/
def isDigit (base : Nat) (c : Char) : Bool := (digit? base c).isSome

/-- The number that digits of the base denote, without a bound. -/
def value (base : Nat) (digits : List Char) : Nat :=
  digits.foldl (fun value c => base * value + (digit? base c).getD 0) 0

/-- The number that a text of decimal digits denotes, if it is not empty. -/
def unsigned? (digits : List Char) : Option Nat :=
  if digits ≠ [] ∧ digits.all Char.isDigit then some (value 10 digits) else none

/-- The sixteen-bit number that a decimal numeral with an optional sign denotes. -/
def signed? (text : List Char) : Option Int :=
  let value? : Option Int :=
    match text with
    | '-' :: digits => (unsigned? digits).map fun n => -(n : Int)
    | '+' :: digits => (unsigned? digits).map fun n => (n : Int)
    | digits => (unsigned? digits).map fun n => (n : Int)
  value?.filter fun n => -32768 ≤ n ∧ n ≤ 32767

end Numeral

/-- The upper-case hexadecimal digit of a number below sixteen. -/
def hexDigit (n : Nat) : Char := (Nat.digitChar n).toUpper

/-- The upper-case hexadecimal digits of a number, most significant first. -/
def hexDigits (n : Nat) : List Char := (Nat.toDigits 16 n).map Char.toUpper

/-- The hexadecimal text of a number, filled up with zeros to two digits. -/
def hex (n : Nat) : List Char :=
  if n < 256 then [hexDigit (n / 16), hexDigit (n % 16)] else hexDigits n

example : hex 0 = ['0', '0'] := by decide
example : hex 0xAF = ['A', 'F'] := by decide
example : hex 0x100 = ['1', '0', '0'] := by decide

end BankAsm.Text
