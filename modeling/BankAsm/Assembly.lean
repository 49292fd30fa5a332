import BankAsm.Encoding.InstructionSet
import BankAsm.Program
import BankAsm.Statement.Read

/-!
# Assembly

An assembly places the statements of a source one at a time. Pulling gives the
next statement at its place, or the failure that ends the assembly; finishing
places all that is left and gives the program of it.
-/

namespace BankAsm

/-- A layout under way, with the statements that are still to be placed. -/
structure Assembly where
  table : EncodingTable
  layout : Layout
  pending : Feed Diagnostic Statement

namespace Assembly

/-- The assembly of a source by a table, with labels that are bound beforehand. -/
def start (table : EncodingTable) (source : String) (banks : Nat)
    (seeds : List (String × UInt8)) : Assembly :=
  ⟨table, Layout.start banks seeds, Statement.ofSource source⟩

/-- Encodes and places a statement. A statement that is not encoded changes nothing. -/
def placeNext (table : EncodingTable) (layout : Layout) (s : Statement) :
    Layout × Except Failure Placed :=
  match table.encode s with
  | .error failure => (layout, .error failure)
  | .ok code =>
    match layout.place s code with
    | ⟨after, .ok placed⟩ => (after, .ok placed)
    | ⟨after, .error diagnostic⟩ => (after, .error (.reported diagnostic))

/-- The next statement at its place, if there is one, and the assembly behind it.
Nothing is left to pull behind a failure. -/
def pull (assembly : Assembly) : Option (Except Failure Placed) × Assembly :=
  match assembly.pending with
  | ⟨[], none⟩ => (none, assembly)
  | ⟨[], some diagnostic⟩ =>
    (some (.error (.reported diagnostic)), { assembly with pending := .done })
  | ⟨s :: rest, failure⟩ =>
    match placeNext assembly.table assembly.layout s with
    | (layout, .ok placed) =>
      (some (.ok placed), { assembly with layout, pending := ⟨rest, failure⟩ })
    | (layout, .error f) => (some (.error f), { assembly with layout, pending := .done })

/-- Places statements in order, up to the first failure. -/
def placeAll (table : EncodingTable) (layout : Layout) :
    List Statement → Except Failure (Layout × List Placed)
  | [] => .ok (layout, [])
  | s :: rest =>
    match placeNext table layout s with
    | (_, .error failure) => .error failure
    | (after, .ok placed) =>
      (placeAll table after rest).map fun (last, others) => (last, placed :: others)

/-- The program of the statements that are still to be placed. -/
def finish (assembly : Assembly) : Except Failure Program :=
  match placeAll assembly.table assembly.layout assembly.pending.items with
  | .error failure => .error failure
  | .ok (layout, placed) =>
    match assembly.pending.failure with
    | some diagnostic => .error (.reported diagnostic)
    | none => .ok ⟨placed, layout.labels, layout.banks⟩

end Assembly

/-- The program of a source in the language. -/
def assemble (source : String) (banks : Nat) (seeds : List (String × UInt8)) :
    Except Failure Program :=
  (Assembly.start instructionSet source banks seeds).finish

end BankAsm
