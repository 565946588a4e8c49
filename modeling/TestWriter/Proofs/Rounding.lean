import Mathlib
import TestWriter.Decimal.Binary

/-!
# Rounding to binary formats

A finite number of a format is `m * 2 ^ q` with a significand that uses all its bits, unless the
exponent is the smallest.  Main statement: a quotient between the midpoints around such a number is
rounded to the pattern of this number, and so is a midpoint when the significand is even.
-/

namespace TestWriter.Decimal

/-! ## Powers -/

theorem cast_twoTo (k : Nat) : ((twoTo k : Nat) : ℚ) = 2 ^ k := Nat.cast_pow 2 k

theorem cast_tenTo (k : Nat) : ((tenTo k : Nat) : ℚ) = 10 ^ k := Nat.cast_pow 10 k

theorem twoTo_pos (k : Nat) : 0 < twoTo k := Nat.pow_pos Nat.two_pos

theorem zpow_two_pos (k : Int) : (0 : ℚ) < 2 ^ k := zpow_pos two_pos k

/-- A power with any exponent, as a quotient of powers with natural ones. -/
theorem zpow_toNat_mul (b : ℚ) (hb : b ≠ 0) (k : Int) :
    b ^ k * b ^ (-k).toNat = b ^ k.toNat := by
  rw [← zpow_natCast, ← zpow_natCast, ← zpow_add₀ hb]
  congr 1
  omega

/-! ## Between bounds -/

/-- A number lies between two bounds, and on one of them only if they are included. -/
structure Between (low high : ℚ) (closed : Prop) (x : ℚ) : Prop where
  low_le : low ≤ x
  le_high : x ≤ high
  apart : ¬closed → low < x ∧ x < high

namespace Between

variable {low high x c : ℚ} {closed : Prop}

theorem of_lt (hlow : low < x) (hhigh : x < high) : Between low high closed x :=
  ⟨hlow.le, hhigh.le, fun _ => ⟨hlow, hhigh⟩⟩

theorem of_closed (hclosed : closed) (hlow : low ≤ x) (hhigh : x ≤ high) :
    Between low high closed x :=
  ⟨hlow, hhigh, fun h => absurd hclosed h⟩

/-- Positive factors keep the order. -/
theorem mul_iff (hc : 0 < c) :
    Between (low * c) (high * c) closed (x * c) ↔ Between low high closed x := by
  constructor
  · rintro ⟨hlow, hhigh, hapart⟩
    refine ⟨le_of_mul_le_mul_right hlow hc, le_of_mul_le_mul_right hhigh hc, fun hopen => ?_⟩
    obtain ⟨hlow, hhigh⟩ := hapart hopen
    exact ⟨lt_of_mul_lt_mul_right hlow hc.le, lt_of_mul_lt_mul_right hhigh hc.le⟩
  · rintro ⟨hlow, hhigh, hapart⟩
    refine ⟨mul_le_mul_of_nonneg_right hlow hc.le, mul_le_mul_of_nonneg_right hhigh hc.le,
      fun hopen => ?_⟩
    obtain ⟨hlow, hhigh⟩ := hapart hopen
    exact ⟨mul_lt_mul_of_pos_right hlow hc, mul_lt_mul_of_pos_right hhigh hc⟩

end Between

namespace Format

/-! ## Rounding to whole numbers -/

/-- What lies within a half of a whole number is rounded to it, a half away if it is even. -/
theorem roundQuotient_eq {n d m : Nat} (hd : 0 < d)
    (h : Between (m - 1 / 2) (m + 1 / 2) (m % 2 = 0) (n / d)) : roundQuotient n d = m := by
  have hdiv : n / d * d + n % d = n := Nat.div_add_mod' n d
  have hrest : n % d < d := Nat.mod_lt n hd
  have hpos : (0 : ℚ) < d := Nat.cast_pos.mpr hd
  have hlow : 2 * (m * d) ≤ 2 * n + d := by
    have hle := (le_div_iff₀ hpos).mp h.low_le
    have hcast : (2 * (m * d) : ℚ) ≤ 2 * n + d := by linarith
    exact_mod_cast hcast
  have hhigh : 2 * n ≤ 2 * (m * d) + d := by
    have hle := (div_le_iff₀ hpos).mp h.le_high
    have hcast : (2 * n : ℚ) ≤ 2 * (m * d) + d := by linarith
    exact_mod_cast hcast
  have hapart : m % 2 = 1 → 2 * (m * d) < 2 * n + d ∧ 2 * n < 2 * (m * d) + d := by
    intro hodd
    obtain ⟨hlt, hlt'⟩ := h.apart (by omega)
    have hcast : (2 * (m * d) : ℚ) < 2 * n + d := by linarith [(lt_div_iff₀ hpos).mp hlt]
    have hcast' : (2 * n : ℚ) < 2 * (m * d) + d := by linarith [(div_lt_iff₀ hpos).mp hlt']
    exact ⟨by exact_mod_cast hcast, by exact_mod_cast hcast'⟩
  simp only [roundQuotient]
  generalize n / d = floor at hdiv ⊢
  obtain hm | rfl | rfl | hm : m + 1 ≤ floor ∨ m = floor ∨ m = floor + 1 ∨ floor + 2 ≤ m := by omega
  · have hmul := Nat.mul_le_mul_right d hm
    rw [Nat.add_mul] at hmul
    omega
  · split
    · rfl
    · rw [if_neg (by omega)]
      omega
  · rw [Nat.add_mul] at hlow hhigh hapart
    rw [if_neg (by omega)]
    split
    · rfl
    · omega
  · have hmul := Nat.mul_le_mul_right d hm
    rw [Nat.add_mul] at hmul
    omega

/-! ## Scaling and the exponent of a quotient -/

theorem scaled_pos {num den : Nat} (hden : 0 < den) (k : Int) : 0 < (scaled num den k).2 := by
  simp only [scaled]
  split
  · exact hden
  · exact Nat.mul_pos hden (twoTo_pos _)

theorem scaled_value {num den : Nat} (k : Int) :
    ((scaled num den k).1 : ℚ) / (scaled num den k).2 = num / den * 2 ^ k := by
  simp only [scaled]
  split
  · next hk =>
    rw [Nat.cast_mul, cast_twoTo, ← zpow_natCast, Int.toNat_of_nonneg hk]
    ring
  · next hk =>
    have hneg : (2 : ℚ) ^ k = (2 ^ (-k).toNat)⁻¹ := by
      rw [← zpow_natCast, Int.toNat_of_nonneg (by omega), ← zpow_neg, neg_neg]
    rw [Nat.cast_mul, cast_twoTo, hneg]
    ring

section

variable {num den : Nat} (hnum : 0 < num) (hden : 0 < den)

include hnum hden

/-- The difference of the binary lengths misses the exponent of a quotient by one at most. -/
theorem log2_quotient :
    (2 : ℚ) ^ ((num.log2 : Int) - den.log2 - 1) < num / den ∧
      (num / den : ℚ) < 2 ^ ((num.log2 : Int) - den.log2 + 1) := by
  have hden' : (0 : ℚ) < den := Nat.cast_pos.mpr hden
  have hnumlow : (2 : ℚ) ^ num.log2 ≤ num := by exact_mod_cast Nat.log2_self_le hnum.ne'
  have hnumhigh : (num : ℚ) < 2 ^ (num.log2 + 1) := by exact_mod_cast Nat.lt_log2_self
  have hdenlow : (2 : ℚ) ^ den.log2 ≤ den := by exact_mod_cast Nat.log2_self_le hden.ne'
  have hdenhigh : (den : ℚ) < 2 ^ (den.log2 + 1) := by exact_mod_cast Nat.lt_log2_self
  rw [lt_div_iff₀ hden', div_lt_iff₀ hden']
  constructor
  · calc (2 : ℚ) ^ ((num.log2 : Int) - den.log2 - 1) * den
        < 2 ^ ((num.log2 : Int) - den.log2 - 1) * 2 ^ (den.log2 + 1) :=
          mul_lt_mul_of_pos_left hdenhigh (zpow_two_pos _)
      _ = 2 ^ num.log2 := by
          rw [← zpow_natCast, ← zpow_natCast, ← zpow_add₀ two_ne_zero]
          congr 1
          omega
      _ ≤ num := hnumlow
  · calc (num : ℚ) < 2 ^ (num.log2 + 1) := hnumhigh
      _ = 2 ^ ((num.log2 : Int) - den.log2 + 1) * 2 ^ den.log2 := by
          rw [← zpow_natCast, ← zpow_natCast, ← zpow_add₀ two_ne_zero]
          congr 1
          omega
      _ ≤ 2 ^ ((num.log2 : Int) - den.log2 + 1) * den :=
          mul_le_mul_of_nonneg_left hdenlow (zpow_two_pos _).le

/-- The exponent of a quotient is that of the power of two below it. -/
theorem binaryExponent_spec :
    (2 : ℚ) ^ binaryExponent num den ≤ num / den ∧
      (num / den : ℚ) < 2 ^ (binaryExponent num den + 1) := by
  obtain ⟨hlow, hhigh⟩ := log2_quotient hnum hden
  simp only [binaryExponent]
  generalize (num.log2 : Int) - den.log2 = guess at *
  have hscale := @scaled_value num den (-guess)
  have hpos := @scaled_pos num den hden (-guess)
  have hless : (scaled num den (-guess)).1 < (scaled num den (-guess)).2 ↔
      (num / den : ℚ) < 2 ^ guess := by
    rw [← Nat.cast_lt (α := ℚ), ← div_lt_one (Nat.cast_pos.mpr hpos), hscale, zpow_neg,
      ← div_eq_mul_inv, div_lt_one (zpow_two_pos guess)]
  split
  · next hlt => exact ⟨hlow.le, by rw [sub_add_cancel]; exact hless.mp hlt⟩
  · next hge => exact ⟨not_lt.mp fun h => hge (hless.mpr h), hhigh⟩

end

/-! ## Finite numbers -/

variable (f : Format)

/-- The pattern of a finite number. -/
def pattern (m : Nat) (q : Int) : Nat := (q - f.minExponent).toNat * twoTo f.fractionBits + m

/-- A significand and an exponent are those of a finite number: the significand uses all its bits,
unless the exponent is the smallest. -/
structure Canonical (m : Nat) (q : Int) : Prop where
  lt : m < 2 * twoTo f.fractionBits
  min_le : f.minExponent ≤ q
  normal : q = f.minExponent ∨ twoTo f.fractionBits ≤ m
  inRange : f.pattern m q < f.infinity

/-- How far the midpoint below a number is, in units of its last place: below a power of two the next
number is at half the distance. -/
def gap (m : Nat) (q : Int) : ℚ :=
  if m = twoTo f.fractionBits ∧ f.minExponent < q then 1 / 4 else 1 / 2

/-- A number lies between the midpoints around `m * 2 ^ q`. -/
def Around (m : Nat) (q : Int) : ℚ → Prop :=
  Between ((m - f.gap m q) * 2 ^ q) ((m + 1 / 2) * 2 ^ q) (m % 2 = 0)

variable {f} {m : Nat} {q : Int}

theorem gap_pos : 0 < f.gap m q := by
  simp only [gap]
  split <;> norm_num

theorem gap_le_half : f.gap m q ≤ 1 / 2 := by
  simp only [gap]
  split <;> norm_num

/-- A number lies between the midpoints around it. -/
theorem around_self : f.Around m q (m * 2 ^ q) := by
  have hpos := zpow_two_pos q
  apply Between.of_lt
  · exact mul_lt_mul_of_pos_right (sub_lt_self _ gap_pos) hpos
  · exact mul_lt_mul_of_pos_right (lt_add_of_pos_right _ (by norm_num)) hpos

namespace Canonical

variable (h : f.Canonical m q)

include h

/-- The exponent field bounds the exponents. -/
theorem le_max : q ≤ max f.minExponent (f.minExponent + twoTo f.exponentBits - 3) := by
  rcases h.normal with rfl | hnormal
  · exact le_max_left _ _
  · have hpattern : ((q - f.minExponent).toNat + 1) * twoTo f.fractionBits < f.infinity := by
      rw [Nat.add_mul, Nat.one_mul]
      exact (Nat.add_le_add_left hnormal _).trans_lt h.inRange
    have hfield := Nat.lt_of_mul_lt_mul_right hpattern
    have hmin := h.min_le
    omega

/-- The bits of a pattern are the significand and the exponent. -/
theorem magnitude_pattern : f.magnitude (f.pattern m q) = .finite m q := by
  have hpos := twoTo_pos f.fractionBits
  have hrange := h.inRange
  simp only [infinity] at hrange
  have hfield : f.pattern m q / twoTo f.fractionBits < twoTo f.exponentBits - 1 :=
    (Nat.div_lt_iff_lt_mul hpos).mpr hrange
  have hmod : f.pattern m q / twoTo f.fractionBits % twoTo f.exponentBits =
      f.pattern m q / twoTo f.fractionBits := Nat.mod_eq_of_lt (by omega)
  simp only [magnitude, hmod]
  rw [if_neg hfield.ne, pattern, Nat.add_comm, Nat.add_mul_div_right _ _ hpos,
    Nat.add_mul_mod_self_right]
  have hmin := h.min_le
  rcases lt_or_ge m (twoTo f.fractionBits) with hlt | hge
  · -- a smaller significand belongs to the smallest exponent
    have hq := h.normal.resolve_right (not_le.mpr hlt)
    rw [Nat.div_eq_of_lt hlt, Nat.mod_eq_of_lt hlt, if_pos (by omega), hq]
  · have hlt := h.lt
    have hdiv : m / twoTo f.fractionBits = 1 := Nat.div_eq_of_lt_le (by omega) (by omega)
    have hrest : m % twoTo f.fractionBits = m - twoTo f.fractionBits := by
      rw [Nat.mod_eq_sub_mod hge, Nat.mod_eq_of_lt (by omega)]
    rw [hdiv, hrest, if_neg (by omega)]
    congr 1 <;> omega

end Canonical

/-- A pattern without its sign is made of the fraction and the exponent field. -/
theorem mod_signBit (bits : Nat) : bits % f.signBit = bits % twoTo f.fractionBits +
    twoTo f.fractionBits * (bits / twoTo f.fractionBits % twoTo f.exponentBits) := by
  have hsignBit : f.signBit = twoTo f.fractionBits * twoTo f.exponentBits := Nat.pow_add ..
  rw [hsignBit, Nat.mod_mul]

/-- What a pattern denotes, its sign apart, does not depend on its sign. -/
theorem magnitude_mod_signBit (bits : Nat) : f.magnitude (bits % f.signBit) = f.magnitude bits := by
  have hpos := twoTo_pos f.fractionBits
  have hfraction : bits % twoTo f.fractionBits < twoTo f.fractionBits := Nat.mod_lt _ hpos
  have hfield : bits / twoTo f.fractionBits % twoTo f.exponentBits < twoTo f.exponentBits :=
    Nat.mod_lt _ (twoTo_pos _)
  rw [mod_signBit]
  simp only [magnitude, Nat.add_mul_mod_self_left, Nat.add_mul_div_left _ _ hpos, Nat.mod_mod,
    Nat.div_eq_of_lt hfraction, Nat.zero_add]

/-- Only one pattern, its sign apart, is that of infinity. -/
theorem mod_signBit_of_infinite {bits : Nat} (h : f.magnitude bits = .infinite) :
    bits % f.signBit = f.infinity := by
  simp only [magnitude] at h
  split at h
  · next hfield =>
    split at h
    · next hfraction => rw [mod_signBit, hfraction, hfield, Nat.zero_add, infinity, Nat.mul_comm]
    · cases h
  · split at h <;> cases h

/-- The significand and the exponent of a pattern are those of a finite number, and its pattern is
the given one, the sign apart. -/
theorem canonical_of_magnitude {bits : Nat} (h : f.magnitude bits = .finite m q) :
    f.Canonical m q ∧ f.pattern m q = bits % f.signBit := by
  have hpos := twoTo_pos f.fractionBits
  have hfraction : bits % twoTo f.fractionBits < twoTo f.fractionBits := Nat.mod_lt _ hpos
  have hfield : bits / twoTo f.fractionBits % twoTo f.exponentBits < twoTo f.exponentBits :=
    Nat.mod_lt _ (twoTo_pos _)
  rw [mod_signBit]
  simp only [magnitude] at h
  generalize bits % twoTo f.fractionBits = fraction at h hfraction ⊢
  generalize bits / twoTo f.fractionBits % twoTo f.exponentBits = field at h hfield ⊢
  have hinfinity : (field + 1) * twoTo f.fractionBits ≤ f.infinity ∨
      field = twoTo f.exponentBits - 1 := by
    refine or_iff_not_imp_right.mpr fun hne => Nat.mul_le_mul_right _ ?_
    omega
  split at h
  · split at h <;> cases h
  · next hne =>
    have hbound := hinfinity.resolve_right hne
    rw [Nat.add_mul, Nat.one_mul] at hbound
    split at h
    · next hzero =>
      cases h
      have hpattern : f.pattern m f.minExponent = m := by simp [pattern]
      refine ⟨⟨by omega, le_rfl, Or.inl rfl, by omega⟩, ?_⟩
      rw [hpattern, hzero, Nat.mul_zero, Nat.add_zero]
    · next hnonzero =>
      cases h
      obtain ⟨k, rfl⟩ : ∃ k, field = k + 1 := ⟨field - 1, by omega⟩
      have hshift : (f.minExponent + (k + 1 : Nat) - 1 - f.minExponent).toNat = k := by omega
      have hpattern : f.pattern (twoTo f.fractionBits + fraction)
          (f.minExponent + (k + 1 : Nat) - 1) = fraction + (k + 1) * twoTo f.fractionBits := by
        rw [pattern, hshift, Nat.add_mul, Nat.one_mul]
        omega
      refine ⟨⟨by omega, by omega, Or.inr (by omega), ?_⟩, ?_⟩
      · rw [hpattern]
        omega
      · rw [hpattern, Nat.mul_comm]

/-! ## Rounding between midpoints -/

/-- The exponent of the last place to which a quotient is rounded. -/
def lastPlace (f : Format) (num den : Nat) : Int :=
  max (binaryExponent num den - f.fractionBits) f.minExponent

theorem round_of_pos {num den : Nat} (hnum : 0 < num) :
    f.round num den = min ((f.lastPlace num den - f.minExponent).toNat * twoTo f.fractionBits +
      roundQuotient (scaled num den (-f.lastPlace num den)).1
        (scaled num den (-f.lastPlace num den)).2) f.infinity :=
  if_neg hnum.ne'

/-- A quotient is rounded to a pattern when the whole number nearest to it, in units of its last
place, makes up this pattern. -/
theorem round_eq_pattern_of_lastPlace {num den n : Nat} (hnum : 0 < num) (hden : 0 < den)
    (h : f.Canonical m q)
    (hn : Between (n - 1 / 2) (n + 1 / 2) (n % 2 = 0)
      (num / den * 2 ^ (-f.lastPlace num den)))
    (hpattern : (f.lastPlace num den - f.minExponent).toNat * twoTo f.fractionBits + n =
      f.pattern m q) : f.round num den = f.pattern m q := by
  rw [← scaled_value] at hn
  rw [round_of_pos hnum, roundQuotient_eq (scaled_pos hden _) hn, hpattern]
  exact Nat.min_eq_left h.inRange.le

/-- The last place of a quotient between the midpoints around a number is that of the number, or the
one below where the number is a power of two and the quotient is smaller. -/
theorem lastPlace_cases {num den : Nat} (hnum : 0 < num) (hden : 0 < den) (h : f.Canonical m q)
    (hx : f.Around m q (num / den)) :
    f.lastPlace num den = q ∨
      m = twoTo f.fractionBits ∧ f.minExponent < q ∧ f.lastPlace num den = q - 1 ∧
        (num / den : ℚ) < 2 ^ (f.fractionBits + q) := by
  obtain ⟨hlow, hhigh⟩ := binaryExponent_spec hnum hden
  have hbits : (2 : ℚ) ^ (f.fractionBits : Int) = twoTo f.fractionBits := by
    rw [cast_twoTo, zpow_natCast]
  have hpower := zpow_two_pos q
  have hsplit : (2 : ℚ) ^ (f.fractionBits + q) = twoTo f.fractionBits * 2 ^ q := by
    rw [zpow_add₀ two_ne_zero, hbits]
  -- the quotient is smaller than the first number with one bit more
  have hupper : binaryExponent num den < f.fractionBits + q + 1 := by
    have hm : (m : ℚ) + 1 ≤ 2 * twoTo f.fractionBits := by exact_mod_cast h.lt
    rw [← zpow_lt_zpow_iff_right₀ (one_lt_two (α := ℚ))]
    calc (2 : ℚ) ^ binaryExponent num den ≤ num / den := hlow
      _ ≤ (m + 1 / 2) * 2 ^ q := hx.le_high
      _ < 2 * twoTo f.fractionBits * 2 ^ q := mul_lt_mul_of_pos_right (by linarith) hpower
      _ = 2 ^ (f.fractionBits + q + 1) := by rw [zpow_add_one₀ two_ne_zero, hsplit]; ring
  have hmin := h.min_le
  rcases eq_or_lt_of_le (show f.lastPlace num den ≤ q by simp only [lastPlace]; omega) with heq | hlt
  · exact Or.inl heq
  · have hsmaller : (num / den : ℚ) < 2 ^ (f.fractionBits + q) := by
      refine hhigh.trans_le (zpow_le_zpow_right₀ one_le_two ?_)
      simp only [lastPlace] at hlt
      omega
    have hnormal : twoTo f.fractionBits ≤ m := by
      refine h.normal.resolve_left ?_
      simp only [lastPlace] at hlt
      omega
    have hm : m = twoTo f.fractionBits := by
      refine le_antisymm (not_lt.mp fun hlarger => ?_) hnormal
      have hcast : (twoTo f.fractionBits : ℚ) + 1 ≤ m := by exact_mod_cast hlarger
      have hle : (m - f.gap m q) * 2 ^ q < twoTo f.fractionBits * 2 ^ q :=
        hx.low_le.trans_lt (hsmaller.trans_eq hsplit)
      linarith [lt_of_mul_lt_mul_right hle hpower.le, f.gap_le_half (m := m) (q := q)]
    have hless : f.minExponent < q := (le_max_right _ _).trans_lt hlt
    have hgap : f.gap m q = 1 / 4 := if_pos ⟨hm, hless⟩
    have hlower : f.fractionBits + q - 1 < binaryExponent num den + 1 := by
      have hone : (1 : ℚ) ≤ twoTo f.fractionBits := by exact_mod_cast twoTo_pos f.fractionBits
      rw [← zpow_lt_zpow_iff_right₀ (one_lt_two (α := ℚ))]
      calc (2 : ℚ) ^ (f.fractionBits + q - 1) = twoTo f.fractionBits / 2 * 2 ^ q := by
            rw [zpow_sub_one₀ two_ne_zero, hsplit]
            ring
        _ < (m - f.gap m q) * 2 ^ q := by
            refine mul_lt_mul_of_pos_right ?_ hpower
            rw [hgap, hm]
            linarith
        _ ≤ num / den := hx.low_le
        _ < 2 ^ (binaryExponent num den + 1) := hhigh
    refine Or.inr ⟨hm, hless, ?_, hsmaller⟩
    simp only [lastPlace] at hlt ⊢
    omega

/-- What lies between the midpoints around a number is rounded to its pattern. -/
theorem round_eq_pattern {num den : Nat} (hnum : 0 < num) (hden : 0 < den) (h : f.Canonical m q)
    (hx : f.Around m q (num / den)) : f.round num den = f.pattern m q := by
  have hpower := zpow_two_pos (-q)
  have hone : (2 : ℚ) ^ q * 2 ^ (-q) = 1 := by
    rw [← zpow_add₀ two_ne_zero, add_neg_cancel, zpow_zero]
  -- in units of the last place of the number
  have hunits : Between (m - f.gap m q) (m + 1 / 2) (m % 2 = 0) (num / den * 2 ^ (-q)) := by
    have hscaled := (Between.mul_iff hpower).mpr hx
    rwa [mul_assoc, mul_assoc, hone, mul_one, mul_one] at hscaled
  rcases lastPlace_cases hnum hden h hx with hlast | ⟨hm, hmin, hlast, hless⟩
  · apply round_eq_pattern_of_lastPlace hnum hden h (n := m)
    · have hgap := f.gap_le_half (m := m) (q := q)
      rw [hlast]
      refine ⟨by linarith [hunits.low_le], hunits.le_high, fun hopen => ?_⟩
      obtain ⟨hlow, hhigh⟩ := hunits.apart hopen
      exact ⟨by linarith, hhigh⟩
    · rw [hlast, pattern]
  · -- just below a power of two the last place is finer, and the quotient is rounded up
    have hdouble : (2 : ℚ) ^ (-(q - 1)) = 2 ^ (-q) * 2 := by
      rw [neg_sub, sub_eq_neg_add, zpow_add_one₀ two_ne_zero]
    apply round_eq_pattern_of_lastPlace hnum hden h (n := 2 * m)
    · have hgap : f.gap m q = 1 / 4 := if_pos ⟨hm, hmin⟩
      have hlow := hunits.low_le
      have hhigh : (num / den : ℚ) * 2 ^ (-q) ≤ m := by
        have hle := mul_le_mul_of_nonneg_right hless.le hpower.le
        rwa [← zpow_add₀ two_ne_zero, add_neg_cancel_right, zpow_natCast, ← cast_twoTo, ← hm] at hle
      rw [hlast, hdouble, ← mul_assoc, Nat.cast_mul, Nat.cast_two]
      apply Between.of_closed (Nat.mul_mod_right 2 m) <;> linarith
    · have hshift : (q - f.minExponent).toNat = (q - 1 - f.minExponent).toNat + 1 := by omega
      rw [hlast, pattern, hshift, hm, Nat.add_mul, Nat.one_mul]
      omega

/-- A number is rounded to itself, whichever significand and exponent it is written with. -/
theorem ofFinite_eq_pattern {n : Nat} {r : Int} (hn : 0 < n) (h : f.Canonical m q)
    (hvalue : (n : ℚ) * 2 ^ r = m * 2 ^ q) : f.ofFinite n r = f.pattern m q := by
  have hnum : 0 < (scaled n 1 r).1 := by
    simp only [scaled]
    split
    · exact Nat.mul_pos hn (twoTo_pos _)
    · exact hn
  have haround : f.Around m q ((scaled n 1 r).1 / (scaled n 1 r).2) := by
    rw [scaled_value, Nat.cast_one, div_one, hvalue]
    exact around_self
  exact round_eq_pattern hnum (scaled_pos Nat.one_pos r) h haround

end Format

end TestWriter.Decimal
