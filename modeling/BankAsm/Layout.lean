import BankAsm.Diagnostic
import BankAsm.LabelTable
import BankAsm.Relocation
import BankAsm.Statement

/-!
# Layout

The layout is where the next statement goes, and the labels bound so far. Placing
a statement gives it the place and moves the layout past its octets. A bank holds
`bankSize` bytes: nothing is placed beyond its end, and no label is bound to it.

Placing can fail. `Placing` keeps the layout in both cases, since a failure leaves
behind what was changed before it.
-/

namespace BankAsm

/-- How many bytes a bank holds. -/
def bankSize : Nat := 256

/-- Where the next statement goes, and what labels stand for so far. -/
structure Layout where
  banks : Nat
  bank : Nat
  address : Nat
  labels : LabelTable
deriving DecidableEq

/-- A statement at its place, with its octets. -/
structure Placed where
  statement : Statement
  bank : Nat
  address : Nat
  code : List Octet
deriving DecidableEq

/-- The layout after a statement was placed, or was not. -/
structure Placing where
  layout : Layout
  outcome : Except Diagnostic Placed

namespace Layout

/-- The layout in front of the first statement. There is at least one bank. -/
def start (banks : Nat) (seeds : List (String × UInt8)) : Layout :=
  ⟨max 1 banks, 0, 0, LabelTable.ofList seeds⟩

/-- A statement that takes a place of the layout. -/
def placed (layout : Layout) (s : Statement) (code : List Octet) : Placed :=
  ⟨s, layout.bank, layout.address, code⟩

/-- The diagnostic of a statement that its bank has no room for. -/
def overflow (layout : Layout) (s : Statement) : Diagnostic :=
  ⟨.bankOverflow s.mnemonic layout.bank, s.position⟩

/-- The diagnostic of a directive whose octets do not spell what it does. -/
def malformed (s : Statement) : Diagnostic := ⟨.malformedEncoding s.signature, s.position⟩

/-- The byte of an octet that has to be known now. -/
def constant (layout : Layout) : Octet → Except Diagnostic UInt8
  | .byte value => .ok value
  | .label name position =>
    match layout.labels.find? name with
    | some value => .ok value
    | none => .error ⟨.unassignedLabel name, position⟩
  | .vector _ _ position => .error ⟨.vectorConstant, position⟩

/-- The bytes of octets that have to be known now, in order. -/
def constants (layout : Layout) : List Octet → Except Diagnostic (List UInt8)
  | [] => .ok []
  | octet :: octets => do
    let first ← layout.constant octet
    let others ← layout.constants octets
    return first :: others

/-- The layout with a label bound to a byte. A label is bound once. -/
def bind (layout : Layout) (label : Label) (value : UInt8) : Except Diagnostic Layout :=
  if layout.labels.contains label.name then .error ⟨.duplicateLabel label.name, label.position⟩
  else .ok { layout with labels := layout.labels.insert label.name value }

/-- The layout with the label of a statement, if it has one, bound to the address. -/
def bindHere (layout : Layout) (s : Statement) : Except Diagnostic Layout :=
  match s.label with
  | none => .ok layout
  | some label =>
    if layout.address < bankSize then layout.bind label (UInt8.ofNat layout.address)
    else .error (layout.overflow s)

/-- The layout with the parts of the place set that a relocation sets. -/
def move (layout : Layout) : Relocation → Layout
  | .bank bank => { layout with bank := bank.toNat }
  | .address address => { layout with address := address.toNat }
  | .both bank address => { layout with bank := bank.toNat, address := address.toNat }

/-- The layout behind an assignment. -/
def assign (layout : Layout) (s : Statement) (code : List Octet) : Except Diagnostic Layout :=
  match code with
  | [octet] => do
    let value ← layout.constant octet
    match s.label with
    | none => return layout
    | some label => layout.bind label value
  | _ => .error (malformed s)

/-- The layout that a relocation moves to, whether or not it has the bank. -/
def relocate (layout : Layout) (s : Statement) (code : List Octet) : Except Diagnostic Layout :=
  match code with
  | [] => .error (malformed s)
  | mode :: octets => do
    let values ← layout.constants octets
    match Relocation.ofBytes? mode values with
    | some relocation => return layout.move relocation
    | none => .error (malformed s)

/-- Places an assignment. A failure changes nothing. -/
def placeAssign (layout : Layout) (s : Statement) (code : List Octet) : Placing :=
  match layout.assign s code with
  | .ok after => ⟨after, .ok (after.placed s [])⟩
  | .error diagnostic => ⟨layout, .error diagnostic⟩

/-- Places a relocation. The move stands even if the bank does not exist, or the
label cannot be bound. -/
def placeLocate (layout : Layout) (s : Statement) (code : List Octet) : Placing :=
  match layout.relocate s code with
  | .error diagnostic => ⟨layout, .error diagnostic⟩
  | .ok moved =>
    if moved.bank < moved.banks then
      match moved.bindHere s with
      | .ok after => ⟨after, .ok (after.placed s [])⟩
      | .error diagnostic => ⟨moved, .error diagnostic⟩
    else ⟨moved, .error ⟨.voidBank moved.bank, s.position⟩⟩

/-- Places a statement with its octets. If they do not fit, the label is bound and
the address has moved all the same. -/
def placeOctets (layout : Layout) (s : Statement) (code : List Octet) : Placing :=
  match layout.bindHere s with
  | .error diagnostic => ⟨layout, .error diagnostic⟩
  | .ok bound =>
    let after := { bound with address := bound.address + code.length }
    if after.address ≤ bankSize then ⟨after, .ok (bound.placed s code)⟩
    else ⟨after, .error (after.overflow s)⟩

/-- Places a statement with its octets, as its role demands. -/
def place (layout : Layout) (s : Statement) (code : List Octet) : Placing :=
  match s.role with
  | .assign => layout.placeAssign s code
  | .locate => layout.placeLocate s code
  | .emit => layout.placeOctets s code

end Layout

end BankAsm
