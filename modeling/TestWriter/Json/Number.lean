import TestWriter.Json.Basic

/-!
# Reading JSON numbers

A number without fraction and exponent is an integer when it fits 64 bits, signed or unsigned;
`-0` is a floating point number.  Every other number is read by its leading digits, as many as fit
64 bits, and a power of ten; further digits only count as places.  A number beyond all floating
point numbers is well formed, but has no value.
-/

namespace TestWriter.Json

/-- The bound of the leading digits. -/
def digitLimit : Nat := UInt64.size

/-- The digits read so far: the significand, and the power of ten that scales it. -/
structure Digits where
  significand : Nat
  exponent : Int

/-- The digits at the front of a text, and the rest. -/
def spanDigits (cs : List Char) : List Char × List Char :=
  (cs.takeWhile Char.isDigit, cs.dropWhile Char.isDigit)

/-- The value of a digit. -/
def digitValue (c : Char) : Nat := c.toNat - '0'.toNat

/-- Take the digits before the point.  Once one does not fit, it and all later ones only scale. -/
def Digits.whole : Digits → List Char → Digits
  | d, [] => d
  | d, c :: rest =>
    let next := d.significand * 10 + digitValue c
    if next < digitLimit then Digits.whole ⟨next, d.exponent⟩ rest
    else ⟨d.significand, d.exponent + (rest.length + 1)⟩

/-- Take the digits after the point.  Once one does not fit, it and all later ones are dropped. -/
def Digits.fraction : Digits → List Char → Digits
  | d, [] => d
  | d, c :: rest =>
    let next := d.significand * 10 + digitValue c
    if next < digitLimit then Digits.fraction ⟨next, d.exponent - 1⟩ rest else d

/-- The value of a digit sequence. -/
def natOfDigits (cs : List Char) : Nat :=
  cs.foldl (fun n c => n * 10 + digitValue c) 0

/-- The optional fraction: the digits after a point, at least one. -/
def readFraction : List Char → Option (List Char × List Char)
  | '.' :: rest =>
    match spanDigits rest with
    | ([], _) => none
    | (digits, rest) => some (digits, rest)
  | cs => some ([], cs)

/-- The optional exponent: a sign and at least one digit. -/
def readExponent : List Char → Option (Option Int × List Char)
  | c :: rest =>
    if c = 'e' ∨ c = 'E' then
      let (negative, rest) :=
        match rest with
        | '-' :: r => (true, r)
        | '+' :: r => (false, r)
        | r => (false, r)
      match spanDigits rest with
      | ([], _) => none
      | (digits, rest) =>
        let n := natOfDigits digits
        some (some (if negative then -(n : Int) else n), rest)
    else some (none, c :: rest)
  | [] => some (none, [])

/-- The value of the digits, scaled by a further power of ten. -/
def Digits.real? (d : Digits) (negative : Bool) (exponent : Int) : Option Number :=
  (Decimal.Binary64.scaled? negative d.significand (d.exponent + exponent)).map .real

/-- An integer, or a floating point number where it does not fit. -/
def integerOrReal? (negative : Bool) (digits : List Char) : Option Number :=
  let n := natOfDigits digits
  let fits : Bool := if negative then n != 0 && n ≤ Int64.minValue.toInt.natAbs else n < digitLimit
  if fits then some (.integer (if negative then -(n : Int) else n))
  else (Digits.whole ⟨0, 0⟩ digits).real? negative 0

/-- Read an unsigned number, with its value if it has one; a leading zero stands alone. -/
def readUnsigned (negative : Bool) (cs : List Char) : Option (Option Number × List Char) :=
  match spanDigits cs with
  | ([], _) => none
  | (digits, rest) =>
    if digits.head? = some '0' ∧ 1 < digits.length then none
    else
      (readFraction rest).bind fun (places, afterFraction) =>
        (readExponent afterFraction).map fun (exponent, afterExponent) =>
          if places = [] ∧ exponent = none then (integerOrReal? negative digits, afterExponent)
          else
            let d := Digits.fraction (Digits.whole ⟨0, 0⟩ digits) places
            (d.real? negative (exponent.getD 0), afterExponent)

/-- Read a number, with its value if it has one. -/
def readNumber : List Char → Option (Option Number × List Char)
  | '-' :: rest => readUnsigned true rest
  | cs => readUnsigned false cs

end TestWriter.Json
