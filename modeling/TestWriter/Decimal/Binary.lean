/-!
# Binary floating point numbers

The interchange formats of 32 and 64 bits, as bit patterns.  A finite number is `m * 2 ^ q` with a
sign; `Format.round` takes a quotient of natural numbers to the nearest number of a format, a tie
to the even significand.
-/

namespace TestWriter.Decimal

/-- `2 ^ k`. -/
def twoTo (k : Nat) : Nat := Nat.pow 2 k

/-- `10 ^ k`. -/
def tenTo (k : Nat) : Nat := Nat.pow 10 k

/-- A binary interchange format. -/
structure Format where
  fractionBits : Nat
  exponentBits : Nat

/-- The format of 32 bits. -/
def single : Format := ⟨23, 8⟩

/-- The format of 64 bits. -/
def double : Format := ⟨52, 11⟩

/-- What a bit pattern denotes, its sign apart. -/
inductive Magnitude
  | nan
  | infinite
  | finite (significand : Nat) (exponent : Int)
  deriving DecidableEq

namespace Format

/-- The bias of the exponent field. -/
def bias (f : Format) : Nat := twoTo (f.exponentBits - 1) - 1

/-- The exponent of the last place of the smallest numbers. -/
def minExponent (f : Format) : Int := 1 - (f.bias : Int) - f.fractionBits

/-- The pattern of positive infinity. -/
def infinity (f : Format) : Nat := (twoTo f.exponentBits - 1) * twoTo f.fractionBits

/-- The pattern of the sign bit. -/
def signBit (f : Format) : Nat := twoTo (f.fractionBits + f.exponentBits)

/-- Whether the sign bit of a pattern is set. -/
def negative (f : Format) (bits : Nat) : Bool := bits / f.signBit % 2 == 1

/-- The number that a pattern denotes, its sign apart. -/
def magnitude (f : Format) (bits : Nat) : Magnitude :=
  let fraction := bits % twoTo f.fractionBits
  let field := bits / twoTo f.fractionBits % twoTo f.exponentBits
  if field = twoTo f.exponentBits - 1 then
    if fraction = 0 then .infinite else .nan
  else if field = 0 then .finite fraction f.minExponent
  else .finite (twoTo f.fractionBits + fraction) (f.minExponent + field - 1)

/-- The quotient rounded to the nearest natural number, a tie to the even one. -/
def roundQuotient (num den : Nat) : Nat :=
  let low := num / den
  let rest := num % den
  if 2 * rest < den then low
  else if den < 2 * rest then low + 1
  else low + low % 2

/-- `n * 2 ^ k` as a quotient of natural numbers. -/
def scaled (num den : Nat) (k : Int) : Nat × Nat :=
  if 0 ≤ k then (num * twoTo k.toNat, den) else (num, den * twoTo (-k).toNat)

/-- The exponent `e` with `2 ^ e ≤ num / den < 2 ^ (e + 1)`, for positive arguments. -/
def binaryExponent (num den : Nat) : Int :=
  let guess := (num.log2 : Int) - den.log2
  let (n, d) := scaled num den (-guess)
  if n < d then guess - 1 else guess

/-- The pattern of the number nearest to a quotient; infinity beyond the largest number. -/
def round (f : Format) (num den : Nat) : Nat :=
  if num = 0 then 0
  else
    let last := max (binaryExponent num den - f.fractionBits) f.minExponent
    let (n, d) := scaled num den (-last)
    min ((last - f.minExponent).toNat * twoTo f.fractionBits + roundQuotient n d) f.infinity

/-- The pattern of the number nearest to `m * 2 ^ q`. -/
def ofFinite (f : Format) (m : Nat) (q : Int) : Nat :=
  let (n, d) := scaled m 1 q
  f.round n d

/-- The pattern of the number nearest to `m * 10 ^ e`.  Exponents far outside the range of the
format are answered without computing the power. -/
def ofDecimal (f : Format) (m : Nat) (e : Int) : Nat :=
  let places := (Nat.toDigits 10 m).length + e
  if m = 0 then 0
  else if 400 < places then f.infinity
  else if places < -400 then 0
  else if 0 ≤ e then f.round (m * tenTo e.toNat) 1
  else f.round m (tenTo (-e).toNat)

/-- A pattern with the given sign. -/
def withSign (f : Format) (negative : Bool) (bits : Nat) : Nat :=
  if negative then f.signBit + bits else bits

end Format

/-- A number of the 32 bit format. -/
structure Binary32 where
  bits : UInt32
  deriving DecidableEq

/-- A number of the 64 bit format. -/
structure Binary64 where
  bits : UInt64
  deriving DecidableEq

namespace Binary32

/-- The number that is denoted, its sign apart. -/
def magnitude (x : Binary32) : Magnitude := single.magnitude x.bits.toNat

/-- Whether the sign is negative. -/
def negative (x : Binary32) : Bool := single.negative x.bits.toNat

/-- Whether the number is not a number. -/
def isNaN (x : Binary32) : Bool := x.magnitude = .nan

/-- Whether the number is neither infinite nor a NaN. -/
def isFinite (x : Binary32) : Bool :=
  match x.magnitude with
  | .finite .. => true
  | _ => false

/-- The number with the given sign and pattern. -/
def ofPattern (negative : Bool) (bits : Nat) : Binary32 :=
  ⟨UInt32.ofNat (single.withSign negative bits)⟩

end Binary32

namespace Binary64

/-- The number that is denoted, its sign apart. -/
def magnitude (x : Binary64) : Magnitude := double.magnitude x.bits.toNat

/-- Whether the sign is negative. -/
def negative (x : Binary64) : Bool := double.negative x.bits.toNat

/-- Whether the number is not a number. -/
def isNaN (x : Binary64) : Bool := x.magnitude = .nan

/-- Whether the number is neither infinite nor a NaN. -/
def isFinite (x : Binary64) : Bool :=
  match x.magnitude with
  | .finite .. => true
  | _ => false

/-- The number with the given sign and pattern. -/
def ofPattern (negative : Bool) (bits : Nat) : Binary64 :=
  ⟨UInt64.ofNat (double.withSign negative bits)⟩

end Binary64

/-- A value that no digits denote. -/
inductive Special
  | nan
  | plusInfinity
  | minusInfinity
  deriving DecidableEq, Repr

/-- The special value of a sign and a magnitude, if they are one. -/
def special? (negative : Bool) : Magnitude → Option Special
  | .nan => some .nan
  | .infinite => some (if negative then .minusInfinity else .plusInfinity)
  | .finite .. => none

/-- The special value that the number is, if any. -/
def Binary32.special? (x : Binary32) : Option Special :=
  Decimal.special? x.negative x.magnitude

/-- The special value that the number is, if any. -/
def Binary64.special? (x : Binary64) : Option Special :=
  Decimal.special? x.negative x.magnitude

/-- A pattern with the meaning of `magnitude` in another format. -/
def Format.convert (f : Format) : Magnitude → Nat
  | .nan => f.infinity + twoTo (f.fractionBits - 1)
  | .infinite => f.infinity
  | .finite m q => f.ofFinite m q

/-- The nearest number of 32 bits. -/
def Binary64.narrow (x : Binary64) : Binary32 :=
  .ofPattern x.negative (single.convert x.magnitude)

/-- The same number in 64 bits. -/
def Binary32.widen (x : Binary32) : Binary64 :=
  .ofPattern x.negative (double.convert x.magnitude)

/-- The number of 64 bits nearest to an integer. -/
def Binary64.ofInt (n : Int) : Binary64 :=
  .ofPattern (n < 0) (double.round n.natAbs 1)

/-- The number of 32 bits nearest to an integer. -/
def Binary32.ofInt (n : Int) : Binary32 :=
  .ofPattern (n < 0) (single.round n.natAbs 1)

end TestWriter.Decimal
