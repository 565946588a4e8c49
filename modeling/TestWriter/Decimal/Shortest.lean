import TestWriter.Decimal.Binary

/-!
# Shortest decimals

The decimal with the fewest digits that reads back to a given binary number; of two with equally
many digits the nearer one, and of two equally near the larger.
-/

namespace TestWriter.Decimal

/-- A decimal number: `digits * 10 ^ exponent`. -/
structure Scientific where
  digits : Nat
  exponent : Int
  deriving DecidableEq

namespace Scientific

/-- Move trailing zeros of the digits into the exponent, at most `fuel` of them. -/
def strip : Nat → Scientific → Scientific
  | 0, s => s
  | fuel + 1, s =>
    if s.digits ≠ 0 ∧ s.digits % 10 = 0 then strip fuel ⟨s.digits / 10, s.exponent + 1⟩ else s

end Scientific

/-- The decimals that read back to a number: those between `low / unit` and `high / unit`, the ends
included when `closed` holds.  The number itself is `value / unit`. -/
structure Interval where
  low : Nat
  value : Nat
  high : Nat
  unit : Nat
  closed : Bool

namespace Interval

/-- The interval of `m * 2 ^ q`.  Below a power of two the next number is at half the distance. -/
def ofFinite (f : Format) (m : Nat) (q : Int) : Interval :=
  let below := if m = twoTo f.fractionBits ∧ f.minExponent < q then 1 else 2
  let power := twoTo (q - 2).toNat
  { low := (4 * m - below) * power
    value := 4 * m * power
    high := (4 * m + 2) * power
    unit := twoTo (2 - q).toNat
    closed := m % 2 = 0 }

/-- Whether `n * 10 ^ k` lies in the interval. -/
def contains (i : Interval) (n : Nat) (k : Int) : Bool :=
  let scaledPoint := n * tenTo k.toNat * i.unit
  let ten := tenTo (-k).toNat
  if i.closed then i.low * ten ≤ scaledPoint && scaledPoint ≤ i.high * ten
  else i.low * ten < scaledPoint && scaledPoint < i.high * ten

/-- The decimal of the grid `10 ^ k` that lies in the interval and is nearest to the value. -/
def onGrid? (i : Interval) (k : Int) : Option Scientific :=
  let num := i.value * tenTo (-k).toNat
  let den := i.unit * tenTo k.toNat
  let floor := num / den
  let down := i.contains floor k && floor ≠ 0
  let up := i.contains (floor + 1) k
  if up && (!down || den ≤ 2 * (num % den)) then some ⟨floor + 1, k⟩
  else if down then some ⟨floor, k⟩
  else none

/-- The exponent of the first decimal digit of the value. -/
def leadingExponent (i : Interval) : Int :=
  let whole := i.value / i.unit
  if whole ≠ 0 then ((Nat.toDigits 10 whole).length : Int) - 1
  else
    -- The value is below one: count the zeros after the point.
    let places := (Nat.toDigits 10 (i.unit / i.value)).length
    if i.unit ≤ i.value * tenTo (places - 1) then -((places : Int) - 1) else -(places : Int)

/-- Search the grids from the coarsest on, at most `fuel` of them. -/
def search (i : Interval) : Nat → Int → Option Scientific
  | 0, _ => none
  | fuel + 1, k =>
    match i.onGrid? k with
    | some s => some s
    | none => i.search fuel (k - 1)

end Interval

/-- The shortest decimal that reads back to `m * 2 ^ q`, for a positive `m`.  Seventeen digits
always suffice, so the second branch is not reached. -/
def shortest (f : Format) (m : Nat) (q : Int) : Scientific :=
  let i := Interval.ofFinite f m q
  match i.search 18 i.leadingExponent with
  | some s => s.strip 18
  | none => ⟨0, 0⟩

end TestWriter.Decimal
