/-!
# Runs of code points

A run is an arithmetic progression of code points, the unit in which the character tables of this
library are written.  A shift is a run whose members are all mapped at one distance.
-/

namespace TestWriter.Text

/-- The code points `first`, `first + stride`, ... up to `last`. -/
structure Run where
  first : Nat
  last : Nat
  stride : Nat
  deriving DecidableEq

/-- Whether a code point belongs to the run. -/
def Run.contains (r : Run) (n : Nat) : Bool :=
  r.first ≤ n && n ≤ r.last && (n - r.first) % r.stride == 0

/-- A run of letters mapped to other letters at a common offset. -/
structure Shift where
  run : Run
  offset : Int
  deriving DecidableEq

/-- The image of a code point under the first shift whose run holds it. -/
def shift? (table : List Shift) (n : Nat) : Option Nat :=
  (table.find? fun s => s.run.contains n).map fun s => ((n : Int) + s.offset).toNat

/-- Whether some run of the table holds the character. -/
def inRuns (table : List Run) (c : Char) : Bool :=
  table.any fun r => r.contains c.toNat

end TestWriter.Text
