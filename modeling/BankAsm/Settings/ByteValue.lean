import BankAsm.Text.Numeral

/-!
# Byte values and definitions

How a configuration writes a byte: a number sign in front of a hexadecimal numeral,
a percent sign in front of a binary one, or a decimal numeral as it stands. A definition
`NAME=value` gives a label its byte on the command line. The name ends at the first
equals sign and may be empty; the value is a decimal numeral.
-/

namespace BankAsm

/-- What is wrong with a text that writes no byte, and the base it was read in. -/
structure ByteValueFault where
  text : String
  base : Nat
  fault : Text.Numeral.Fault
deriving DecidableEq

/-- The wording of a fault. -/
def ByteValueFault.message (f : ByteValueFault) : String :=
  f.text ++ " is not a valid base " ++ toString f.base ++ " value: " ++ f.fault.text

namespace ByteValue

/-- The base that a text is written in, and the numeral behind the mark of the base. -/
def split : List Char → Nat × List Char
  | '#' :: numeral => (16, numeral)
  | '%' :: numeral => (2, numeral)
  | numeral => (10, numeral)

/-- The byte that a text writes. -/
def read (text : String) : Except ByteValueFault UInt8 :=
  let (base, numeral) := split text.toList
  (Text.Numeral.readByte base numeral).mapError fun fault => ⟨text, base, fault⟩

end ByteValue

/-- What is wrong with a text that is no definition. -/
inductive DefinitionFault where
  | noEqualsSign (text : String)
  | badValue (fault : Text.Numeral.Fault)
deriving DecidableEq

/-- The wording of a fault. -/
def DefinitionFault.message : DefinitionFault → String
  | .noEqualsSign text => "invalid SYMBOL=value: no `=` found in `" ++ text ++ "`"
  | .badValue fault => fault.text

/-- The name and the byte of a definition. -/
def Definition.read (text : String) : Except DefinitionFault (String × UInt8) :=
  match text.toList.dropWhile (· ≠ '=') with
  | [] => .error (.noEqualsSign text)
  | _ :: numeral =>
    match Text.Numeral.readByte 10 numeral with
    | .error fault => .error (.badValue fault)
    | .ok value => .ok (String.ofList (text.toList.takeWhile (· ≠ '=')), value)

end BankAsm
