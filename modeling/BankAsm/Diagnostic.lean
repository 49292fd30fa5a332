import BankAsm.Position
import BankAsm.Signature.Text
import BankAsm.Text.Numeral
import BankAsm.Vocabulary

/-!
# Diagnostics

A diagnostic is the cause that ends a run and the position it is reported at.
Causes are data; their wording is in `Cause.text` alone. Every cause has a kind,
and every kind belongs to the stage of the work that it is about.
-/

namespace BankAsm

/-- The part of the work that a diagnostic is about. -/
inductive Category where
  | lexical
  | structural
  | semantic
  | label
  | layout
deriving DecidableEq

/-- The kinds of causes. -/
inductive CauseKind where
  | illegalCharacter
  | unrecognizedToken
  | emptyStatement
  | reservedLabel
  | missingMnemonic
  | nesting
  | unknownForm
  | badDatum
  | badConstant
  | duplicateLabel
  | undefinedLabel
  | voidBank
  | bankOverflow
  | overlap
  | badStep
deriving DecidableEq

/-- The part of the work that a kind of causes belongs to. -/
def CauseKind.category : CauseKind → Category
  | .illegalCharacter | .unrecognizedToken | .emptyStatement => .lexical
  | .missingMnemonic | .nesting => .structural
  | .unknownForm | .badDatum | .badConstant => .semantic
  | .reservedLabel | .duplicateLabel | .undefinedLabel => .label
  | .voidBank | .bankOverflow | .overlap | .badStep => .layout

/-- What stands in the way of a step to a neighbouring statement. -/
inductive Obstacle where
  | directive
  | emptySpace
deriving DecidableEq

/-- What stands where a datum was expected. -/
inductive NonDatum where
  | group
  | vector
  | token (kind : TokenKind)
deriving DecidableEq

/-- Why a run ends. -/
inductive Cause where
  | illegalByte (byte : UInt8)
  | unrecognized (lexeme : String)
  | emptyStatement
  | reservedLabel (word : String)
  | missingMnemonic (found : TokenKind)
  | unclosedGroup
  | strayCloser
  | unknownForm (signature : Signature)
  | malformedEncoding (signature : Signature)
  | badDatum (found : NonDatum)
  | vectorConstant
  | duplicateLabel (name : String)
  | unassignedLabel (name : String)
  | undefinedLabel (name : String)
  | voidBank (bank : Nat)
  | bankOverflow (mnemonic : String) (bank : Nat)
  | overlap (mnemonic : String) (bank address : Nat)
  | badStep (isLast : Bool) (obstacle : Obstacle)
  /-- What an encoding that is not built in has against a statement. -/
  | refused (kind : CauseKind) (text : String)
deriving DecidableEq

/-- The wording of what was found in place of a datum. -/
def NonDatum.text : NonDatum → String
  | .group => "Group"
  | .vector => "Vector"
  | .token kind => kind.name

/-- The wording of an obstacle. -/
def Obstacle.text : Obstacle → String
  | .directive => "a directive"
  | .emptySpace => "empty space"

namespace Cause

/-- The kind of a cause. -/
def kind : Cause → CauseKind
  | .illegalByte _ => .illegalCharacter
  | .unrecognized _ => .unrecognizedToken
  | .emptyStatement => .emptyStatement
  | .reservedLabel _ => .reservedLabel
  | .missingMnemonic _ => .missingMnemonic
  | .unclosedGroup | .strayCloser => .nesting
  | .unknownForm _ | .malformedEncoding _ => .unknownForm
  | .badDatum _ => .badDatum
  | .vectorConstant => .badConstant
  | .duplicateLabel _ => .duplicateLabel
  | .unassignedLabel _ | .undefinedLabel _ => .undefinedLabel
  | .voidBank _ => .voidBank
  | .bankOverflow _ _ => .bankOverflow
  | .overlap _ _ _ => .overlap
  | .badStep _ _ => .badStep
  | .refused kind _ => kind

/-- The wording of a cause. -/
def text : Cause → String
  | .illegalByte byte => "cannot scan charcode, 0x" ++ String.ofList (Text.hex byte.toNat)
  | .unrecognized lexeme => "unrecognized token, " ++ lexeme
  | .emptyStatement => "empty instruction"
  | .reservedLabel word => "a language word (" ++ word ++ ") cannot be used as a label."
  | .missingMnemonic found => "expected an initial Mnemonic (not " ++ found.name ++ ")."
  | .unclosedGroup => "instruction terminated while nested."
  | .strayCloser => "closer found without a preceding Opener."
  | .unknownForm signature => "incomprehensible grammar, " ++ signature.text
  | .malformedEncoding signature => "malformed encoding for " ++ signature.text
  | .badDatum found => "expected a Datum (not " ++ found.text ++ ")."
  | .vectorConstant => "expected a Constant (not Vector)."
  | .duplicateLabel name => "label `" ++ name ++ "` is already assigned."
  | .unassignedLabel name => "label `" ++ name ++ "` is not assigned yet."
  | .undefinedLabel name => "label `" ++ name ++ "` is never assigned."
  | .voidBank bank => "Bank " ++ toString bank ++ " is (currently) unpopulated."
  | .bankOverflow mnemonic bank =>
    "the `" ++ mnemonic ++ "` " ++ Vocabulary.noun mnemonic ++ " overflowed Bank "
      ++ toString bank ++ "."
  | .overlap mnemonic bank address =>
    "the `" ++ mnemonic ++ "` " ++ Vocabulary.noun mnemonic ++ " overwrote Bank "
      ++ toString bank ++ " #" ++ String.ofList (Text.hex address) ++ "."
  | .badStep isLast obstacle =>
    "cannot skip " ++ (if isLast then "to" else "over") ++ " " ++ obstacle.text ++ "."
  | .refused _ text => text

end Cause

/-- A cause at a position of the source. -/
structure Diagnostic where
  cause : Cause
  position : Position
deriving DecidableEq

namespace Diagnostic

/-- The kind of the cause. -/
def kind (d : Diagnostic) : CauseKind := d.cause.kind

/-- The shown form: the position, then the wording of the cause. -/
def message (d : Diagnostic) : String := d.position.text ++ ": " ++ d.cause.text

end Diagnostic

/-- Why a computation has no result: it reports a diagnostic, or it is stuck
because it was given what a statement that fits its encoding cannot hold. -/
inductive Failure where
  | reported (diagnostic : Diagnostic)
  | stuck
deriving DecidableEq

end BankAsm
