/-!
# Arguments

The arguments of a command fall into options with their texts and operands. An
option has a letter and a word. Its text is joined to it, with or without an equals
sign behind a letter, or is the next argument, which then must not look like an
option. Behind two dashes all arguments are operands.
-/

namespace BankAsm

/-- The options of the command. -/
inductive Flag where
  | output
  | banks
  | config
  | define
  | format
  | logLevel
deriving DecidableEq

namespace Flag

/-- The letter of an option. -/
def letter : Flag → Char
  | .output => 'o'
  | .banks => 'b'
  | .config => 'c'
  | .define => 'D'
  | .format => 'f'
  | .logLevel => 'l'

/-- The word of an option. -/
def word : Flag → String
  | .output => "output"
  | .banks => "banks"
  | .config => "config"
  | .define => "define"
  | .format => "format"
  | .logLevel => "log-level"

/-- The options. -/
def all : List Flag := [.output, .banks, .config, .define, .format, .logLevel]

/-- The option of a letter. -/
def ofLetter? (c : Char) : Option Flag := all.find? fun flag => flag.letter = c

/-- The option of a word. -/
def ofWord? (word : String) : Option Flag := all.find? fun flag => flag.word = word

end Flag

/-- A part of the arguments. -/
inductive Argument where
  | option (flag : Flag) (text : String)
  | operand (text : String)
deriving DecidableEq

namespace Argument

/-- How an argument looks on its own. -/
inductive Look where
  /-- Two dashes. -/
  | terminator
  /-- An option with its text joined to it. -/
  | joined (flag : Flag) (text : String)
  /-- An option whose text is the next argument. -/
  | pending (flag : Flag)
  /-- A dash and more that name no option. -/
  | unknown
  /-- Anything else. -/
  | plain
deriving DecidableEq

/-- How an option of a word looks, with what stands behind the word. -/
def lookOfWord (cs : List Char) : Look :=
  let word := cs.takeWhile (· ≠ '=')
  match Flag.ofWord? (String.ofList word), cs.drop word.length with
  | none, _ => .unknown
  | some flag, [] => .pending flag
  | some flag, _ :: text => .joined flag (String.ofList text)

/-- How an option of a letter looks, with what stands behind the letter. -/
def lookOfLetter (letter : Char) (behind : List Char) : Look :=
  match Flag.ofLetter? letter, behind with
  | none, _ => .unknown
  | some flag, [] => .pending flag
  | some flag, '=' :: text => .joined flag (String.ofList text)
  | some flag, text => .joined flag (String.ofList text)

/-- How an argument looks. -/
def look (argument : String) : Look :=
  match argument.toList with
  | ['-', '-'] => .terminator
  | '-' :: '-' :: cs => lookOfWord cs
  | '-' :: letter :: behind => lookOfLetter letter behind
  | _ => .plain

/-- The parts of arguments, if every option is known and has a text. -/
def parts : List String → Option (List Argument)
  | [] => some []
  | first :: rest =>
    match look first with
    | .unknown => none
    | .terminator => some (rest.map .operand)
    | .plain => (parts rest).map (.operand first :: ·)
    | .joined flag text => (parts rest).map (.option flag text :: ·)
    | .pending flag =>
      match rest with
      | [] => none
      | text :: rest =>
        if look text = .plain then (parts rest).map (.option flag text :: ·) else none

/-- The operands among arguments. -/
def operands (arguments : List Argument) : List String :=
  arguments.filterMap fun
    | .operand text => some text
    | .option .. => none

/-- The texts of an option among arguments. -/
def texts (flag : Flag) (arguments : List Argument) : List String :=
  arguments.filterMap fun
    | .option other text => if other = flag then some text else none
    | .operand _ => none

end Argument

end BankAsm
