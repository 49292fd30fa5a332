import BankAsm.Octet

/-!
# Relocations

What a `LOCATE` sets. Its encoding is a mode byte and the constants that the mode
asks for.
-/

namespace BankAsm

/-- The parts of a place that are set anew. -/
inductive Relocation where
  | bank (bank : UInt8)
  | address (address : UInt8)
  | both (bank address : UInt8)
deriving DecidableEq

namespace Relocation

/-- The mode that sets the bank alone. -/
def bankMode : UInt8 := 0

/-- The mode that sets the address alone. -/
def addressMode : UInt8 := 1

/-- The mode that sets the bank and the address. -/
def bothMode : UInt8 := 2

/-- The relocation that a mode and constants spell. -/
def ofBytes? (mode : Octet) (constants : List UInt8) : Option Relocation :=
  match mode, constants with
  | .byte mode, [value] =>
    if mode = bankMode then some (.bank value)
    else if mode = addressMode then some (.address value)
    else none
  | .byte mode, [first, second] => if mode = bothMode then some (.both first second) else none
  | _, _ => none

end Relocation

end BankAsm
