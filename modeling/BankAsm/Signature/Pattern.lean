import BankAsm.Signature.Text
import BankAsm.Text.Blank

/-!
# Reading of patterns

`Signature.ofPattern` reads the text of a signature. White space around it and
extra spaces between its parameters say nothing.
-/

namespace BankAsm

/-- What is wrong with the text of a pattern. -/
inductive PatternFault where
  | noMnemonic
  | unclosedClass (name : String)
  | unknownClass (name : String)
  | unexpected (c : Char)
  | unclosedGroup
deriving DecidableEq

/-- The wording of a fault. -/
def PatternFault.text : PatternFault → String
  | .noMnemonic => "pattern has no mnemonic"
  | .unclosedClass name => "unclosed class `<" ++ name ++ "`"
  | .unknownClass name => "unknown class `<" ++ name ++ ">`"
  | .unexpected c => "unexpected `" ++ String.singleton c ++ "` in pattern"
  | .unclosedGroup => "unclosed group"

namespace Param

/-- Reads parameters one character at a time. `name` holds the name of an open
class backwards, `done` the parameters of the innermost open group backwards, and
`outer` those of the groups around it. -/
def read (name : Option (List Char)) (done : List Param) (outer : List (List Param)) :
    List Char → Except PatternFault (List Param)
  | [] =>
    match name, outer with
    | some letters, _ => .error (.unclosedClass (String.ofList letters.reverse))
    | none, _ :: _ => .error .unclosedGroup
    | none, [] => .ok done.reverse
  | c :: cs =>
    match name with
    | some letters =>
      if c = '>' then
        let written := String.ofList letters.reverse
        match ofName? written with
        | some param => read none (param :: done) outer cs
        | none => .error (.unknownClass written)
      else read (some (c :: letters)) done outer cs
    | none =>
      if c = ' ' then read none done outer cs
      else if c = '[' then read none [] (done :: outer) cs
      else if c = '<' then read (some []) done outer cs
      else
        match outer with
        | around :: others =>
          if c = ']' then read none (.group done.reverse :: around) others cs
          else .error (.unexpected c)
        | [] => .error (.unexpected c)

end Param

/-- The signature that a text writes down. The mnemonic ends at the first space. -/
def Signature.ofPattern (text : String) : Except PatternFault Signature :=
  let cs := Text.trim text.toList
  let mnemonic := cs.takeWhile (· ≠ ' ')
  if mnemonic = [] then .error .noMnemonic
  else
    (Param.read none [] [] (cs.drop mnemonic.length)).map fun params =>
      ⟨String.ofList mnemonic, params⟩

end BankAsm
