import TestWriter.Decimal.Binary

/-!
# Scaling by powers of ten

Multiplication and division of 64 bit numbers by a power of ten, where the power itself is first
rounded to 64 bits.  A number written as a significand below `2 ^ 64` and a power of ten is read by
one such step, or by several when it is smaller than `10 ^ -308`; the result can differ in the last
place from the number nearest to the decimal.
-/

namespace TestWriter.Decimal

/-- The largest power of ten with a 64 bit number near it. -/
def largestPower : Nat := 308

/-- The number nearest to a power of ten, as a quotient. -/
def powerOfTen (k : Nat) : Nat × Nat :=
  match double.magnitude (double.round (tenTo k) 1) with
  | .finite m q => Format.scaled m 1 q
  | _ => (1, 1)

/-- A pattern as a quotient; infinity and NaN as zero. -/
def quotient (bits : Nat) : Nat × Nat :=
  match double.magnitude bits with
  | .finite m q => Format.scaled m 1 q
  | _ => (0, 1)

/-- Multiply a positive pattern by a power of ten, or answer `none` beyond the largest number. -/
def scaleUp? (bits k : Nat) : Option Nat :=
  let (n, d) := quotient bits
  let (pn, pd) := powerOfTen k
  let product := double.round (n * pn) (d * pd)
  if product = double.infinity then none else some product

/-- Divide a positive pattern by a power of ten. -/
def scaleDown (bits k : Nat) : Nat :=
  let (n, d) := quotient bits
  let (pn, pd) := powerOfTen k
  double.round (n * pd) (d * pn)

/-- Divide a positive pattern by `10 ^ k` in steps of the largest power. -/
def scaleDownBy (bits k : Nat) : Nat :=
  if k ≤ largestPower then scaleDown bits k
  else if bits = 0 then 0
  else scaleDownBy (scaleDown bits largestPower) (k - largestPower)
termination_by k
decreasing_by
  simp only [largestPower] at *
  omega

/-- Read `significand * 10 ^ exponent`; `none` beyond the largest number. -/
def Binary64.scaled? (negative : Bool) (significand : Nat) (exponent : Int) : Option Binary64 :=
  let bits := double.round significand 1
  let pattern :=
    if exponent < 0 then some (scaleDownBy bits (-exponent).toNat)
    else if exponent.toNat ≤ largestPower then scaleUp? bits exponent.toNat
    else if bits = 0 then some 0
    else none
  pattern.map (.ofPattern negative)

/-- A number of milliseconds in seconds: the whole seconds, plus the rest as a fraction, each rounded
and their sum rounded again. -/
def Binary64.secondsOfMillis (millis : Nat) : Binary64 :=
  let (n, d) := quotient (double.round (millis / 1000) 1)
  let (n', d') := quotient (double.round (millis % 1000 * 1000000) 1000000000)
  .ofPattern false (double.round (n * d' + n' * d) (d * d'))

end TestWriter.Decimal
