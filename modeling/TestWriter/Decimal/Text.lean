import TestWriter.Decimal.Shortest

/-!
# Decimal text

How numbers are written.  The digits are the shortest that read back.  A number is positional, with
at least one decimal place, when its first digit has an exponent from -4 up to 15; any other is
written with an exponent that has a sign only when it is negative.
-/

namespace TestWriter.Decimal

/-- The smallest exponent of the first digit that is written positionally. -/
def firstPositional : Int := -4

/-- The smallest exponent of the first digit that is again written with an exponent. -/
def firstLarge : Int := 16

/-- Digits with a point after `places` of them, `0` standing for missing digits. -/
def positional (digits : List Char) (places : Int) : List Char :=
  if places ≤ 0 then '0' :: '.' :: (List.replicate (-places).toNat '0' ++ digits)
  else
    let whole := places.toNat
    if digits.length ≤ whole then
      digits ++ List.replicate (whole - digits.length) '0' ++ ['.', '0']
    else digits.take whole ++ '.' :: digits.drop whole

/-- Digits with a point after the first one and an exponent. -/
def exponential (digits : List Char) (exponent : Int) : List Char :=
  let mantissa :=
    match digits with
    | [] => []
    | [d] => [d]
    | d :: rest => d :: '.' :: rest
  mantissa ++ 'e' :: (toString exponent).toList

/-- The text of a decimal. -/
def Scientific.text (s : Scientific) : List Char :=
  let digits := Nat.toDigits 10 s.digits
  let leading := s.exponent + digits.length - 1
  if s.digits = 0 then ['0', '.', '0']
  else if firstPositional ≤ leading ∧ leading < firstLarge then positional digits (leading + 1)
  else exponential digits leading

/-- The text of a number of a format. -/
def textOf (f : Format) (negative : Bool) : Magnitude → String
  | .nan => "NaN"
  | .infinite => if negative then "-inf" else "inf"
  | .finite m q =>
    let digits := if m = 0 then Scientific.text ⟨0, 0⟩ else (shortest f m q).text
    String.ofList (if negative then '-' :: digits else digits)

/-- The text of a number of 32 bits, with the digits that its own width needs. -/
def Binary32.text (x : Binary32) : String := textOf single x.negative x.magnitude

/-- The text of a number of 64 bits. -/
def Binary64.text (x : Binary64) : String := textOf double x.negative x.magnitude

end TestWriter.Decimal
