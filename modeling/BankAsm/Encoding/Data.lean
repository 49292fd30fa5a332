import BankAsm.Encoding.Table

/-!
# Data

The encoding of `DATA`. Its operands follow one another: a constant is its byte, a
reference is pending, a string gives the bytes of its text, and a newline operand
gives a line feed for each of its bars. Groups, vectors and all else are no data.
-/

namespace BankAsm.Datum

/-- The byte of a line feed. -/
def lineFeed : UInt8 := 0x0A

/-- The octets of one operand of a statement at a position. -/
def octets (position : Position) : Operand → Except Failure (List Octet)
  | .group _ => .error (.reported ⟨.badDatum .group, position⟩)
  | .token t =>
    match t.kind with
    | .loop | .skip => .error (.reported ⟨.badDatum .vector, t.position⟩)
    | .digit | .decimal | .hexadecimal | .character | .reference =>
      match t.octet? with
      | some octet => .ok [octet]
      | none => .error .stuck
    | .string => .ok ((t.text.toList.flatMap String.utf8EncodeChar).map .byte)
    | .newline => .ok (List.replicate t.steps (.byte lineFeed))
    | kind => .error (.reported ⟨.badDatum (.token kind), t.position⟩)

/-- The octets of operands in order, or what the first operand without any reports. -/
def octetsAll (position : Position) : List Operand → Except Failure (List Octet)
  | [] => .ok []
  | operand :: operands => do
    let first ← octets position operand
    let others ← octetsAll position operands
    return first ++ others

/-- The encoder of `DATA`. -/
def encoder : Encoder := fun s => octetsAll s.position s.operands

end BankAsm.Datum
