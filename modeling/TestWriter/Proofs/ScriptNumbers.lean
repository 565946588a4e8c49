import TestWriter.Proofs.DecimalTexts
import TestWriter.Target.JavaScript

/-!
# Numbers of JavaScript

All numbers of JavaScript have 64 bits; one of 32 bits is widened, which keeps its value.  A
difference is rounded, infinity less infinity is no number, and no comparison with a NaN holds.  Main
statements: the written form of a number is read as the same number, and a number lies within a
tolerance of itself exactly when it is finite.
-/

namespace TestWriter

namespace Decimal

/-! ## Patterns and signs -/

/-- A number of a given sign and pattern has this sign, and denotes what the pattern does. -/
theorem Binary64.ofPattern_spec {bits : Nat} (hbits : bits < double.signBit) (negative : Bool) :
    (Binary64.ofPattern negative bits).negative = negative ∧
      (Binary64.ofPattern negative bits).magnitude = double.magnitude bits := by
  have hword : double.signBit * 2 = UInt64.size := rfl
  have hpos : 0 < double.signBit := twoTo_pos _
  have hbound : double.withSign negative bits < UInt64.size := by
    cases negative <;> simp only [Format.withSign, Bool.false_eq_true, if_false, if_true] <;> omega
  have htoNat : (Binary64.ofPattern negative bits).bits.toNat = double.withSign negative bits :=
    UInt64.toNat_ofNat_of_lt hbound
  rw [Binary64.negative, Binary64.magnitude, htoNat, ← Format.magnitude_mod_signBit]
  cases negative with
  | false =>
      simp only [Format.withSign, Bool.false_eq_true, if_false, Format.negative,
        Nat.div_eq_of_lt hbits, Nat.mod_eq_of_lt hbits]
      exact ⟨rfl, trivial⟩
  | true =>
      simp only [Format.withSign, if_true, Format.negative, Nat.add_mod_left, Nat.mod_eq_of_lt hbits,
        Nat.add_div_left _ hpos, Nat.div_eq_of_lt hbits]
      exact ⟨rfl, trivial⟩

/-- The patterns of finite numbers leave the bit of the sign free. -/
theorem Format.Canonical.pattern_lt_signBit {m : Nat} {q : Int} (h : double.Canonical m q) :
    double.pattern m q < double.signBit :=
  h.inRange.trans (by decide)

/-! ## Widening -/

/-- A number of 32 bits can be written with as many bits as one of 64 bits has. -/
theorem exists_canonical_of_single {m : Nat} {q : Int} (hm : 0 < m) (h : single.Canonical m q) :
    ∃ m' q', double.Canonical m' q' ∧ (m : ℚ) * 2 ^ q = m' * 2 ^ q' := by
  have hbits : m < 2 ^ 24 := h.lt
  have hmin : -149 ≤ q := h.min_le
  have hmax : q ≤ 104 := h.le_max.trans (by decide)
  have hlog : m.log2 < 24 := (Nat.log2_lt hm.ne').mpr hbits
  have hlow : 2 ^ 52 ≤ m * 2 ^ (52 - m.log2) :=
    calc 2 ^ 52 = 2 ^ m.log2 * 2 ^ (52 - m.log2) := by rw [← pow_add]; congr 1; omega
      _ ≤ m * 2 ^ (52 - m.log2) := Nat.mul_le_mul_right _ (Nat.log2_self_le hm.ne')
  have hhigh : m * 2 ^ (52 - m.log2) < 2 ^ 53 :=
    calc m * 2 ^ (52 - m.log2) < 2 ^ (m.log2 + 1) * 2 ^ (52 - m.log2) :=
          Nat.mul_lt_mul_of_pos_right Nat.lt_log2_self (by positivity)
      _ = 2 ^ 53 := by rw [← pow_add]; congr 1; omega
  refine ⟨m * 2 ^ (52 - m.log2), q - (52 - m.log2 : Nat), ⟨hhigh, ?_, Or.inr hlow, ?_⟩, ?_⟩
  · change (-1074 : Int) ≤ _
    omega
  · have hexponent : (q - (52 - m.log2 : Nat) - double.minExponent).toNat ≤ 1178 := by
      change (q - (52 - m.log2 : Nat) - (-1074)).toNat ≤ _
      omega
    calc double.pattern (m * 2 ^ (52 - m.log2)) (q - (52 - m.log2 : Nat))
        ≤ 1178 * 2 ^ 52 + m * 2 ^ (52 - m.log2) :=
          Nat.add_le_add_right (Nat.mul_le_mul_right _ hexponent) _
      _ < 1178 * 2 ^ 52 + 2 ^ 53 := Nat.add_lt_add_left hhigh _
      _ < double.infinity := by decide
  · have hpower := zpow_sub₀ (two_ne_zero (α := ℚ)) q (52 - m.log2 : Nat)
    rw [hpower, zpow_natCast]
    push_cast
    field_simp

theorem Format.ofFinite_zero (f : Format) (q : Int) : f.ofFinite 0 q = 0 := by
  simp only [ofFinite, scaled, Nat.zero_mul]
  split <;> rfl

/-- Two magnitudes are the same value, with whatever significands and exponents. -/
inductive Magnitude.Same : Magnitude → Magnitude → Prop
  | nan : Same .nan .nan
  | infinite : Same .infinite .infinite
  | finite {m n : Nat} {q r : Int} (hvalue : (m : ℚ) * 2 ^ q = n * 2 ^ r) :
    Same (.finite m q) (.finite n r)

/-- A number keeps its sign and its value when it is widened. -/
theorem Binary32.widen_same (x : Binary32) :
    x.widen.negative = x.negative ∧ x.widen.magnitude.Same x.magnitude := by
  rw [widen]
  cases hmagnitude : x.magnitude with
  | nan =>
      have hspec := Binary64.ofPattern_spec
        (by decide : double.convert .nan < double.signBit) x.negative
      have hnan : double.magnitude (double.convert .nan) = .nan := by decide
      rw [hspec.1, hspec.2, hnan]
      exact ⟨rfl, .nan⟩
  | infinite =>
      have hspec := Binary64.ofPattern_spec
        (by decide : double.convert .infinite < double.signBit) x.negative
      have hinfinite : double.magnitude (double.convert .infinite) = .infinite := by decide
      rw [hspec.1, hspec.2, hinfinite]
      exact ⟨rfl, .infinite⟩
  | finite m q =>
      simp only [Format.convert]
      rcases Nat.eq_zero_or_pos m with rfl | hm
      · have hspec := Binary64.ofPattern_spec (twoTo_pos _ : 0 < double.signBit) x.negative
        have hzero : double.magnitude 0 = .finite 0 double.minExponent := by decide
        rw [Format.ofFinite_zero, hspec.1, hspec.2, hzero]
        exact ⟨rfl, .finite (by rw [Nat.cast_zero, zero_mul, zero_mul])⟩
      · obtain ⟨m', q', hcanonical, hvalue⟩ :=
          exists_canonical_of_single hm (Format.canonical_of_magnitude hmagnitude).1
        have hspec := Binary64.ofPattern_spec hcanonical.pattern_lt_signBit x.negative
        rw [Format.ofFinite_eq_pattern hm hcanonical hvalue, hspec.1, hspec.2,
          hcanonical.magnitude_pattern]
        exact ⟨rfl, .finite hvalue.symm⟩

/-- A number is a NaN as the widened one is. -/
theorem Binary32.isNaN_widen (x : Binary32) : x.widen.isNaN = x.isNaN := by
  obtain ⟨-, hsame⟩ := x.widen_same
  rw [Binary64.isNaN, isNaN]
  generalize x.widen.magnitude = wide at hsame ⊢
  generalize x.magnitude = narrow at hsame ⊢
  cases hsame <;> rfl

/-! ## Differences and comparisons -/

namespace Binary64

/-- The number that is no number. -/
def nan : Binary64 := .ofPattern false (double.convert .nan)

/-- A whole number with a sign. -/
def signed (negative : Bool) (n : Nat) : Int := if negative then -n else n

/-- The difference of two numbers, rounded.  An infinity less another of its sign is no number, and
zero is negative only as the difference of a negative and a positive zero. -/
def sub (x y : Binary64) : Binary64 :=
  match x.magnitude, y.magnitude with
  | .nan, _ | _, .nan => nan
  | .infinite, .infinite => if x.negative = y.negative then nan else x
  | .infinite, .finite .. => x
  | .finite .., .infinite => .ofPattern (!y.negative) double.infinity
  | .finite m q, .finite n r =>
    let last := min q r
    let difference := signed x.negative (m * twoTo (q - last).toNat) -
      signed y.negative (n * twoTo (r - last).toNat)
    if difference = 0 then .ofPattern (x.negative && !y.negative) 0
    else .ofPattern (difference < 0) (double.ofFinite difference.natAbs last)

/-- The number without its sign. -/
def abs (x : Binary64) : Binary64 := .ofPattern false (x.bits.toNat % double.signBit)

/-- The place of a number among all numbers in order. -/
def rank (x : Binary64) : Int := signed x.negative (x.bits.toNat % double.signBit)

/-- Whether a number is at most another one; a NaN is not. -/
def le (x y : Binary64) : Bool := !x.isNaN && !y.isNaN && decide (x.rank ≤ y.rank)

/-- Nothing is within a tolerance of an infinity or of a NaN, not even itself. -/
theorem sub_self_of_not_finite {x : Binary64} (hx : x.isFinite = false) : x.sub x = nan := by
  cases hmagnitude : x.magnitude with
  | finite m q => simp [isFinite, hmagnitude] at hx
  | infinite => simp only [sub, hmagnitude, if_true]
  | nan => simp only [sub, hmagnitude]

theorem sub_self_of_finite {x : Binary64} (hx : x.isFinite = true) :
    x.sub x = .ofPattern false 0 := by
  cases hmagnitude : x.magnitude with
  | finite m q => simp only [sub, hmagnitude, Int.sub_self, if_true, Bool.and_not_self]
  | _ => simp [isFinite, hmagnitude] at hx

/-- A number lies within a tolerance of itself exactly when it is finite. -/
theorem abs_sub_self_le {x tolerance : Binary64} (hnan : tolerance.isNaN = false)
    (hsign : tolerance.negative = false) : (x.sub x).abs.le tolerance = x.isFinite := by
  cases hx : x.isFinite with
  | false =>
      rw [sub_self_of_not_finite hx, le, show nan.abs.isNaN = true by decide]
      rfl
  | true =>
      have hzero : (Binary64.ofPattern false 0).abs = .ofPattern false 0 := rfl
      have hrank : (Binary64.ofPattern false 0).rank ≤ tolerance.rank := by
        rw [rank, rank, hsign]
        exact Int.natCast_nonneg _
      rw [sub_self_of_finite hx, hzero, le, hnan, decide_eq_true hrank]
      decide

end Binary64

end Decimal

/-! ## Written numbers -/

namespace Target.JavaScript

open Decimal (Binary64)

/-- The number that a text is read as: one of the names of special values, or a decimal. -/
def readNumber? (s : String) : Option Binary64 :=
  if s = "NaN" then some Binary64.nan
  else if s = "Infinity" then some (.ofPattern false Decimal.double.infinity)
  else if s = "-Infinity" then some (.ofPattern true Decimal.double.infinity)
  else if s.toList.any Char.isDigit then Binary64.ofText? s
  else none

/-- A number is read back as it is written, and any NaN as the same one. -/
theorem readNumber?_number (x : Binary64) :
    readNumber? (number x) = some (if x.isNaN then Binary64.nan else x) := by
  rw [number, Binary64.special?, Binary64.isNaN]
  cases hx : x.magnitude with
  | nan => rfl
  | infinite =>
      have hpattern := x.ofPattern_mod
      rw [Decimal.Format.mod_signBit_of_infinite hx] at hpattern
      cases hnegative : x.negative with
      | false =>
          rw [hnegative] at hpattern
          exact congrArg some hpattern
      | true =>
          rw [hnegative] at hpattern
          exact congrArg some hpattern
  | finite m q =>
      have hdigit := Decimal.any_isDigit_textOf Decimal.double x.negative m q
      rw [← hx] at hdigit
      change (x.text.toList.any Char.isDigit) = true at hdigit
      have hname : ∀ name : String, name.toList.any Char.isDigit = false → x.text ≠ name := by
        rintro name hname rfl
        rw [hname] at hdigit
        cases hdigit
      have hfinite : x.isFinite = true := by rw [Binary64.isFinite, hx]
      simp only [Decimal.special?, readNumber?, if_neg (hname "NaN" (by decide)),
        if_neg (hname "Infinity" (by decide)), if_neg (hname "-Infinity" (by decide)), hdigit,
        if_true, Binary64.ofText?_text hfinite]
      rfl

end Target.JavaScript

end TestWriter
