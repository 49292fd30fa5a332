import BankAsm.Signature

/-!
# Written signatures

The text of a signature: the mnemonic, then every parameter behind one space, a
kind or class in angle brackets and a group in square brackets.
-/

namespace BankAsm

namespace Param

mutual

/-- The text of a parameter. -/
def chars : Param → List Char
  | .kind k => '<' :: k.name.toList ++ ['>']
  | .group ps => '[' :: (spacedChars ps).drop 1 ++ [']']
  | .register => "<Register>".toList
  | .number => "<Number>".toList

/-- The texts of parameters, a space in front of each. -/
def spacedChars : List Param → List Char
  | [] => []
  | p :: ps => ' ' :: p.chars ++ spacedChars ps

end

/-- The parameter that a name in angle brackets stands for. -/
def ofName? (name : String) : Option Param :=
  if name = "Register" then some .register
  else if name = "Number" then some .number
  else (TokenKind.operands.find? fun k => k.name = name).map .kind

end Param

/-- The text of a signature. -/
def Signature.text (s : Signature) : String :=
  s.mnemonic ++ String.ofList (Param.spacedChars s.params)

end BankAsm
