import BankAsm.Diagnostic
import BankAsm.Octet
import BankAsm.Statement

/-!
# Encoding tables

A table gives every signature that it knows an encoder. A rule is registered for
all the signatures that its patterns stand for, and a later rule takes the place
of an earlier one. So no pattern is ever matched: a statement is looked up by its
own signature.
-/

namespace BankAsm

/-- Turns a statement into octets. -/
abbrev Encoder := Statement → Except Failure (List Octet)

/-- Patterns with the encoder of the statements that fit them. -/
structure Rule where
  patterns : List Signature
  encoder : Encoder

/-- The rule of statements that are one operation code, whatever their operands. -/
def Rule.opcode (patterns : List Signature) (code : UInt8) : Rule :=
  ⟨patterns, fun _ => .ok [.byte code]⟩

/-- Signatures with their encoders, the newest entry first. -/
structure EncodingTable where
  entries : List (Signature × Encoder)

namespace EncodingTable

/-- The table that knows no signature. -/
def empty : EncodingTable := ⟨[]⟩

/-- A table in which every concrete signature of the patterns has the encoder. -/
def register (table : EncodingTable) (rule : Rule) : EncodingTable :=
  let signatures := rule.patterns.flatMap Signature.expand
  ⟨(signatures.map fun s => (s, rule.encoder)).reverse ++ table.entries⟩

/-- A table with further rules, in order. -/
def registerAll (table : EncodingTable) (rules : List Rule) : EncodingTable :=
  rules.foldl register table

/-- The encoder of a signature, looked up as it is written. -/
def find? (table : EncodingTable) (s : Signature) : Option Encoder :=
  table.entries.lookup s

/-- Whether a signature has an encoder. -/
def contains (table : EncodingTable) (s : Signature) : Bool := (table.find? s).isSome

/-- The signatures that have an encoder, each once. -/
def signatures (table : EncodingTable) : List Signature := (table.entries.map (·.1)).eraseDups

/-- How many signatures have an encoder. -/
def size (table : EncodingTable) : Nat := table.signatures.length

/-- The encoder of a statement. -/
def lookup (table : EncodingTable) (s : Statement) : Except Diagnostic Encoder :=
  match table.find? s.signature with
  | some encoder => .ok encoder
  | none => .error ⟨.unknownForm s.signature, s.position⟩

/-- The octets of a statement. -/
def encode (table : EncodingTable) (s : Statement) : Except Failure (List Octet) :=
  match table.lookup s with
  | .ok encoder => encoder s
  | .error diagnostic => .error (.reported diagnostic)

end EncodingTable

end BankAsm
