/-!
# Stretches of characters

A property of characters as the stretches of code points that have it, in ascending
order, no two of which touch.
-/

namespace BankAsm.Text

/-- Code points from a first to a last one. -/
abbrev Stretch := Nat × Nat

namespace Stretch

/-- Whether a code point lies in one of some stretches. -/
def anyHas (stretches : List Stretch) (n : Nat) : Bool :=
  stretches.any fun stretch => stretch.1 ≤ n && n ≤ stretch.2

/-- Whether no stretch is empty, and each ends before the next but for a gap. -/
def apart : List Stretch → Bool
  | [] => true
  | [stretch] => stretch.1 ≤ stretch.2
  | stretch :: next :: rest =>
    stretch.1 ≤ stretch.2 && stretch.2 + 1 < next.1 && apart (next :: rest)

/-- How many code points some stretches have. -/
def size (stretches : List Stretch) : Nat :=
  stretches.foldl (fun total stretch => total + (stretch.2 + 1 - stretch.1)) 0

end Stretch

end BankAsm.Text
