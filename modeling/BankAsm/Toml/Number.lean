import BankAsm.Text.Numeral
import BankAsm.Toml.Reader

/-!
# Numbers

Integers are written in decimal with an optional sign, or behind a mark in base
sixteen, eight or two, and lie in sixty-four bits. Floats have a fraction, an
exponent or both, or one of two names. Single underscores may stand between digits.
What starts as a fraction or an exponent must be one.
-/

namespace BankAsm.Toml.Number

open Reader Text

/-- Takes digits of a base behind others. -/
def moreDigits (base : Nat) : Reader (List Char) :=
  all do
    match ← next with
    | some '_' =>
      word ['_']
      some <$> one (Numeral.isDigit base)
    | some c => if Numeral.isDigit base c then some <$> one (Numeral.isDigit base) else return none
    | none => return none

/-- Takes one or more digits of a base. -/
def digits (base : Nat) : Reader (List Char) := do
  let first ← one (Numeral.isDigit base)
  return first :: (← moreDigits base)

/-- Takes decimal digits that do not start with a zero, or a zero. -/
def wholeDigits : Reader (List Char) := do
  match ← one (Numeral.isDigit 10) with
  | '0' => return ['0']
  | first => return first :: (← moreDigits 10)

/-- Takes a sign, if there is one, and tells whether it is a minus. -/
def sign : Reader Bool := do
  match ← next with
  | some '-' =>
    word ['-']
    return true
  | some '+' =>
    word ['+']
    return false
  | _ => return false

/-- An integer that sixty-four bits hold. -/
def bounded (value : Int) : Reader Int :=
  if -9223372036854775808 ≤ value ∧ value ≤ 9223372036854775807 then return value else failure

/-- Takes digits of a base behind its mark. -/
def marked (mark : Char) (base : Nat) : Reader Int := do
  word ['0', mark]
  bounded (Numeral.value base (← digits base))

/-- Takes an integer. -/
def integer : Reader Int := do
  match ← get with
  | '0' :: 'x' :: _ => marked 'x' 16
  | '0' :: 'o' :: _ => marked 'o' 8
  | '0' :: 'b' :: _ => marked 'b' 2
  | _ =>
    let isNegative ← sign
    let value : Int := Numeral.value 10 (← wholeDigits)
    bounded (if isNegative then -value else value)

/-- The least number that is infinite as a binary float of double width: half a step
above the greatest finite one. -/
def floatLimit : Nat := Nat.pow 2 1024 - Nat.pow 2 970

/-- Whether a decimal number, written by its digits and the power of ten behind
them, is infinite as a binary float of double width. -/
def overflows (digits : List Char) (exponent : Int) : Bool :=
  let value := Numeral.value 10 digits
  if value = 0 then false
  else if 400 < exponent then true
  else if 0 ≤ exponent then floatLimit ≤ value * Nat.pow 10 exponent.toNat
  else if digits.length < (-exponent).toNat then false
  else floatLimit * Nat.pow 10 (-exponent).toNat ≤ value

/-- Takes a fraction and gives its digits. -/
def fraction : Reader (List Char) := do
  word ['.']
  settled (digits 10)

/-- Takes an exponent. -/
def exponent : Reader Int := do
  let _ ← one fun c => c = 'e' || c = 'E'
  let isNegative ← sign
  let value : Int := Numeral.value 10 (← settled (digits 10))
  return if isNegative then -value else value

/-- Takes a float. One that is too large is at fault, unless it is negative. -/
def float : Reader Unit := do
  let isNegative ← sign
  (word ['i', 'n', 'f'] <|> word ['n', 'a', 'n']) <|> do
    let whole ← wholeDigits
    let decimals ← optional fraction
    let power ← optional exponent
    if decimals.isNone && power.isNone then failure
    let places := decimals.getD []
    if !isNegative && overflows (whole ++ places) (power.getD 0 - places.length) then
      settled failure

end BankAsm.Toml.Number
