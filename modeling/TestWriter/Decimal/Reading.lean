import TestWriter.Decimal.Text
import TestWriter.Text.Lines

/-!
# Reading decimal text

The number nearest to a decimal, written as `Binary32.text` and `Binary64.text` write numbers: a
sign, digits with an optional point, and an optional exponent; or the name of a special value.
-/

namespace TestWriter.Decimal

/-- The value of some digits, at least one. -/
def natOfText? (cs : List Char) : Option Nat :=
  if cs.isEmpty || !cs.all Char.isDigit then none
  else some (cs.foldl (fun n c => 10 * n + (c.toNat - '0'.toNat)) 0)

/-- The value of an exponent with an optional minus sign. -/
def exponentOfText? : List Char → Option Int
  | '-' :: cs => (natOfText? cs).map fun n => -(n : Int)
  | cs => (natOfText? cs).map fun n => (n : Int)

/-- The decimal of a text without sign. -/
def Scientific.ofText? (cs : List Char) : Option Scientific := do
  let (mantissa, exponent) ←
    match Text.cut? ['e'] cs with
    | some (mantissa, exponent) => (exponentOfText? exponent).map fun e => (mantissa, e)
    | none => some (cs, 0)
  match Text.cut? ['.'] mantissa with
  | some (whole, places) => return ⟨← natOfText? (whole ++ places), exponent - places.length⟩
  | none => return ⟨← natOfText? mantissa, exponent⟩

/-- The sign of a text, and the pattern of its magnitude in a format. -/
def Format.ofText? (f : Format) (s : String) : Option (Bool × Nat) :=
  let (negative, cs) :=
    match s.toList with
    | '-' :: cs => (true, cs)
    | cs => (false, cs)
  if s = "NaN" then some (false, f.convert .nan)
  else if cs = "inf".toList then some (negative, f.infinity)
  else (Scientific.ofText? cs).map fun d => (negative, f.ofDecimal d.digits d.exponent)

/-- The number of 32 bits that a text denotes. -/
def Binary32.ofText? (s : String) : Option Binary32 :=
  (single.ofText? s).map fun (negative, bits) => .ofPattern negative bits

/-- The number of 64 bits that a text denotes. -/
def Binary64.ofText? (s : String) : Option Binary64 :=
  (double.ofText? s).map fun (negative, bits) => .ofPattern negative bits

end TestWriter.Decimal
