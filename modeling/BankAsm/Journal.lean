import BankAsm.Assembly
import BankAsm.Event
import BankAsm.Program.Image
import BankAsm.Settings

/-!
# Journals

The events of an assembly, in order, read off the layouts before and after each
statement.
-/

namespace BankAsm.Journal

/-- The place that a statement moves the layout to, if it does and the bank exists. -/
def located (table : EncodingTable) (layout : Layout) (s : Statement) : List Event :=
  match s.role, table.encode s with
  | .locate, .ok code =>
    match layout.relocate s code with
    | .ok moved => if moved.bank < moved.banks then [.located moved.bank moved.address] else []
    | .error _ => []
  | _, _ => []

/-- The labels that the later layout has beyond those of the earlier. -/
def bound (before after : Layout) : List Event :=
  (after.labels.entries.drop before.labels.size).map fun entry => .labelBound entry.1 entry.2

/-- The placing itself, if the statement found a place. -/
def settled (outcome : Except Failure Placed) : List Event :=
  match outcome with
  | .ok placed =>
    [.statementPlaced placed.statement.mnemonic placed.bank placed.address placed.code.length]
  | .error _ => []

/-- The events of placing statements in order, up to the first failure. -/
def placing (table : EncodingTable) (layout : Layout) : List Statement → List Event
  | [] => []
  | s :: rest =>
    let (after, outcome) := Assembly.placeNext table layout s
    let events := located table layout s ++ bound layout after ++ settled outcome
    match outcome with
    | .ok _ => events ++ placing table after rest
    | .error _ => events

/-- The events of making the output of a program in a format. -/
def output (program : Program) (fill : UInt8) : OutputFormat → List Event
  | .flat => [.resolvingStarted]
  | .banks =>
    .resolvingStarted :: match program.images fill with
      | .ok images => [.imagesDone program.size images.length]
      | .error _ => []

/-- The events of placing all statements of an assembly. -/
def finishing (assembly : Assembly) : List Event :=
  placing assembly.table assembly.layout assembly.pending.items
    ++ match assembly.finish with
      | .ok program =>
        [.placingDone program.placed.length program.labels.size program.size]
      | .error _ => []

/-- The events of assembling a source in the language, and then making its output
in some formats. -/
def assembling (source : String) (banks : Nat) (seeds : List (String × UInt8))
    (formats : List OutputFormat) (fill : UInt8) : List Event :=
  let assembly := Assembly.start instructionSet source banks seeds
  [.tableBuilt assembly.table.size, .placingStarted] ++ finishing assembly
    ++ match assembly.finish with
      | .ok program => formats.flatMap (output program fill)
      | .error _ => []

/-- The events that matter at least as much as a level. -/
def atLeast (level : Level) (events : List Event) : List Event :=
  events.filter fun event => level.rank ≤ event.level.rank

end BankAsm.Journal
