import BankAsm.Text.Numeral

/-!
# Events

What an assembly tells about its progress. Every event has a level, belongs to a
stage, and has one wording.
-/

namespace BankAsm

/-- How much an event matters, the least first. -/
inductive Level where
  | trace
  | debug
  | info
  | warn
  | error
deriving DecidableEq

namespace Level

/-- The rank of a level. -/
def rank : Level → Nat
  | .trace => 1
  | .debug => 2
  | .info => 3
  | .warn => 4
  | .error => 5

/-- The written name. -/
def name : Level → String
  | .trace => "TRACE"
  | .debug => "DEBUG"
  | .info => "INFO"
  | .warn => "WARN"
  | .error => "ERROR"

/-- The levels, the least first. -/
def all : List Level := [.trace, .debug, .info, .warn, .error]

end Level

/-- The stage of an assembly that an event belongs to. -/
inductive Stage where
  | encoding
  | placing
  | resolving
deriving DecidableEq

/-- Something that happened in an assembly. -/
inductive Event where
  | tableBuilt (signatures : Nat)
  | placingStarted
  | labelBound (name : String) (value : UInt8)
  | located (bank address : Nat)
  | statementPlaced (mnemonic : String) (bank address bytes : Nat)
  | placingDone (statements labels bytes : Nat)
  | resolvingStarted
  | imagesDone (bytes banks : Nat)
deriving DecidableEq

namespace Event

/-- How much the event matters. -/
def level : Event → Level
  | .tableBuilt _ | .placingStarted | .statementPlaced .. | .resolvingStarted => .trace
  | .labelBound .. | .located .. | .placingDone .. | .imagesDone .. => .debug

/-- The stage that the event belongs to. -/
def stage : Event → Stage
  | .tableBuilt _ => .encoding
  | .placingStarted | .labelBound .. | .located .. | .statementPlaced .. | .placingDone .. =>
    .placing
  | .resolvingStarted | .imagesDone .. => .resolving

/-- A bank and an address in it. -/
def placeText (bank address : Nat) : String :=
  "Bank " ++ toString bank ++ " #" ++ String.ofList (Text.hex address)

/-- The wording of the event. -/
def text : Event → String
  | .tableBuilt signatures => "instruction set has " ++ toString signatures ++ " shapes"
  | .placingStarted => "starting pass 1"
  | .labelBound name value =>
    "label `" ++ name ++ "` = #" ++ String.ofList (Text.hex value.toNat)
  | .located bank address => "located " ++ placeText bank address
  | .statementPlaced mnemonic bank address bytes =>
    mnemonic ++ " in " ++ placeText bank address ++ " (" ++ toString bytes ++ " bytes)"
  | .placingDone statements labels bytes =>
    "pass 1: " ++ toString statements ++ " instructions, " ++ toString labels ++ " labels, "
      ++ toString bytes ++ " bytes"
  | .resolvingStarted => "starting pass 2"
  | .imagesDone bytes banks =>
    "pass 2: " ++ toString bytes ++ " bytes into " ++ toString banks ++ " banks"

end Event

end BankAsm
