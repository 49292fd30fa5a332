import BankAsm.Diagnostic
import BankAsm.Token
import BankAsm.Token.Word

/-!
# Lexemes

A lexeme is cut from the front of a source: a bracket, a quoted character, a
quoted string or a word. It keeps its spelling, so what is left of the source is
what stands behind the spelling. Where no lexeme can be cut, a misfit tells the
cause and the characters that stand before the place it is reported at. Which
characters may stand in a source, and which of them end a run, comes first.
-/

namespace BankAsm

/-- Whether a character may stand in a source: a newline, or ASCII from the space on. -/
def isLegal (c : Char) : Bool := c == '\n' || (' ' ≤ c && c ≤ '\x7F')

/-- Whether a character ends a run of characters that belong together. -/
def isSeparator (c : Char) : Bool :=
  c == ' ' || c == '\n' || c == ',' || c == '[' || c == ']'

/-- Whether a character continues a run. -/
def isRegular (c : Char) : Bool := isLegal c && !isSeparator c

/-- Whether a character prints as itself. -/
def isPrintable (c : Char) : Bool := ' ' ≤ c && c ≤ '~'

/-- The first byte of a character in UTF-8, which names it when it is illegal. -/
def leadByte (c : Char) : UInt8 := (String.utf8EncodeChar c).headD 0

/-- A lexeme with the kind and text of its token. -/
structure Lexeme where
  kind : TokenKind
  text : List Char
  spelling : List Char
deriving DecidableEq

/-- Why no lexeme can be cut. -/
structure Misfit where
  cause : Cause
  before : List Char
deriving DecidableEq

namespace Misfit

/-- The misfit at a character that may not stand in a source. -/
def illegal (c : Char) (before : List Char) : Misfit := ⟨.illegalByte (leadByte c), before⟩

/-- The misfit of a whole lexeme, reported where it starts. -/
def unrecognized (lexeme : List Char) : Misfit := ⟨.unrecognized (String.ofList lexeme), []⟩

end Misfit

namespace Lexeme

/-- The run of regular characters at the front. An illegal character behind it is
a misfit, reported behind what was `passed` before and the run. -/
def run (passed cs : List Char) : Except Misfit (List Char) :=
  let taken := cs.takeWhile isRegular
  match cs.drop taken.length with
  | [] => .ok taken
  | c :: _ => if isLegal c then .ok taken else .error (.illegal c (passed ++ taken))

/-- The lexeme of a word. The words of the language are no labels. -/
def ofWord (word : List Char) : Except Misfit Lexeme :=
  match Word.kind? word with
  | none => .error (.unrecognized word)
  | some .assignment =>
    let name := String.ofList word.dropLast
    if Vocabulary.isWord name then .error ⟨.reservedLabel name, []⟩
    else .ok ⟨.assignment, word.dropLast, word⟩
  | some kind => .ok ⟨kind, word, word⟩

/-- The word at the front. -/
def readWord (cs : List Char) : Except Misfit Lexeme := run [] cs >>= ofWord

/-- A literal with this spelling, if it is recognized and a separator or the end
stands behind it. -/
def close (kind : TokenKind) (text? : Option (List Char)) (spelling behind : List Char) :
    Except Misfit Lexeme :=
  match run spelling behind with
  | .error misfit => .error misfit
  | .ok [] =>
    match text? with
    | some text => .ok ⟨kind, text, spelling⟩
    | none => .error (.unrecognized spelling)
  | .ok trailing => .error (.unrecognized (spelling ++ trailing))

/-- The text of a quoted character: one printable character, or the name of a
control character. -/
def characterText? (inner : List Char) : Option (List Char) :=
  match inner with
  | [c] => if isPrintable c then some inner else none
  | _ => if (Vocabulary.controlCode? (String.ofList inner)).isSome then some inner else none

/-- The quoted character behind an opening quote. The quote itself is spelled with
three quotes. -/
def readCharacter (cs : List Char) : Except Misfit Lexeme :=
  let inner := cs.takeWhile fun c => isLegal c && c != '\'' && c != '\n'
  match cs.drop inner.length with
  | '\'' :: behind =>
    if inner = [] then
      match behind with
      | '\'' :: behind => close .character (some ['\'']) ['\'', '\'', '\''] behind
      | _ => .error (.unrecognized ['\'', '\''])
    else close .character (characterText? inner) ('\'' :: inner ++ ['\'']) behind
  | c :: _ =>
    if isLegal c then .error (.unrecognized ('\'' :: inner))
    else .error (.illegal c ('\'' :: inner))
  | [] => .error (.unrecognized ('\'' :: inner))

/-- How a quoted string ends. -/
inductive StringEnd where
  | closed
  | broken
  | illegal (c : Char)
deriving DecidableEq

/-- A quoted string behind its opening quote. -/
structure StringBody where
  spelling : List Char
  content : List Char
  ending : StringEnd
deriving DecidableEq

/-- A string body with one more character of content in front. -/
def StringBody.push (spelling : List Char) (c : Char) (rest : StringBody) : StringBody :=
  ⟨spelling ++ rest.spelling, c :: rest.content, rest.ending⟩

/-- Reads a quoted string up to its closing quote, or to where it breaks off. -/
def readStringBody : List Char → StringBody
  | [] => ⟨[], [], .broken⟩
  | '"' :: _ => ⟨['"'], [], .closed⟩
  | '\\' :: 'n' :: cs => .push ['\\', 'n'] '\n' (readStringBody cs)
  | '\\' :: '\\' :: cs => .push ['\\', '\\'] '\\' (readStringBody cs)
  | '\\' :: '"' :: cs => .push ['\\', '"'] '"' (readStringBody cs)
  | '\\' :: _ => ⟨['\\'], [], .broken⟩
  | c :: cs =>
    if isPrintable c then .push [c] c (readStringBody cs)
    else if c = '\n' then ⟨[], [], .broken⟩
    else if isLegal c then ⟨[c], [], .broken⟩
    else ⟨[], [], .illegal c⟩

/-- The quoted string behind an opening quote. A string is not empty. -/
def readString (cs : List Char) : Except Misfit Lexeme :=
  let body := readStringBody cs
  let spelling := '"' :: body.spelling
  match body.ending with
  | .broken => .error (.unrecognized spelling)
  | .illegal c => .error (.illegal c spelling)
  | .closed =>
    if body.content = [] then .error (.unrecognized spelling)
    else close .string (some body.content) spelling (cs.drop body.spelling.length)

/-- The lexeme at the front of a source that starts with a legal character and
with neither a gap nor a separator of statements. -/
def read (c : Char) (cs : List Char) : Except Misfit Lexeme :=
  if c = '[' then .ok ⟨.opener, ['['], ['[']⟩
  else if c = ']' then .ok ⟨.closer, [']'], [']']⟩
  else if c = '\'' then readCharacter cs
  else if c = '"' then readString cs
  else readWord (c :: cs)

end Lexeme

end BankAsm
