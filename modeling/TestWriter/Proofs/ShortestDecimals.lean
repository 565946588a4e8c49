import TestWriter.Decimal.Shortest
import TestWriter.Proofs.Rounding

/-!
# Reading shortest decimals back

The grids of decimals are searched from a coarse one on, for a decimal between the midpoints around a
number.  Main statement: the eighteenth grid has one at the latest, and the decimal that is found is
rounded to the number again.
-/

namespace TestWriter.Decimal

/-! ## Decimals -/

/-- The number that a decimal denotes. -/
def Scientific.value (s : Scientific) : ℚ := s.digits * 10 ^ s.exponent

theorem zpow_ten_pos (k : Int) : (0 : ℚ) < 10 ^ k := zpow_pos (by norm_num) k

theorem Scientific.value_pos {s : Scientific} (h : s.digits ≠ 0) : 0 < s.value :=
  mul_pos (Nat.cast_pos.mpr (Nat.pos_of_ne_zero h)) (zpow_ten_pos _)

/-- Zeros at the end of the digits are worth a higher exponent. -/
theorem Scientific.value_strip (fuel : Nat) (s : Scientific) : (s.strip fuel).value = s.value := by
  induction fuel generalizing s with
  | zero => rfl
  | succ fuel ih =>
      rw [strip]
      split
      · next h =>
        have hdigits : s.digits / 10 * 10 = s.digits := Nat.div_mul_cancel (Nat.dvd_of_mod_eq_zero h.2)
        rw [ih, value, value, zpow_add_one₀ (by norm_num)]
        nth_rewrite 2 [← hdigits]
        push_cast
        ring
      · rfl

theorem Scientific.digits_strip (fuel : Nat) {s : Scientific} (h : s.digits ≠ 0) :
    (s.strip fuel).digits ≠ 0 := by
  intro hzero
  have hvalue := s.value_strip fuel
  rw [value, hzero, Nat.cast_zero, zero_mul] at hvalue
  exact (value_pos h).ne hvalue

/-- A number is smaller than the power of ten with as many zeros as it has digits. -/
theorem lt_pow_length_toDigits (n : Nat) : n < 10 ^ (Nat.toDigits 10 n).length :=
  (Nat.length_toDigits_le_iff (by norm_num) Nat.length_toDigits_pos).mp le_rfl

theorem pow_length_toDigits_le {n : Nat} (hn : n ≠ 0) :
    10 ^ ((Nat.toDigits 10 n).length - 1) ≤ n := by
  rcases Nat.eq_zero_or_pos ((Nat.toDigits 10 n).length - 1) with hzero | hpos
  · rw [hzero]
    exact Nat.pos_of_ne_zero hn
  · refine not_lt.mp fun hlt => ?_
    have hle := (Nat.length_toDigits_le_iff (by norm_num) hpos).mpr hlt
    omega

/-! ## Decimals in an interval -/

namespace Interval

variable {i : Interval}

/-- An interval contains the decimals between its ends. -/
theorem contains_iff (hunit : 0 < i.unit) (n : Nat) (k : Int) :
    i.contains n k = true ↔
      Between (i.low / i.unit) (i.high / i.unit) (i.closed = true) (n * 10 ^ k) := by
  have hunit' : (0 : ℚ) < i.unit := Nat.cast_pos.mpr hunit
  have hten : (0 : ℚ) < tenTo (-k).toNat := by
    rw [cast_tenTo]
    positivity
  have hpoint : ((n * tenTo k.toNat * i.unit : Nat) : ℚ) =
      n * 10 ^ k * i.unit * tenTo (-k).toNat := by
    rw [Nat.cast_mul, Nat.cast_mul, cast_tenTo, cast_tenTo, ← zpow_toNat_mul 10 (by norm_num)]
    ring
  have hle : i.low * tenTo (-k).toNat ≤ n * tenTo k.toNat * i.unit ↔
      (i.low / i.unit : ℚ) ≤ n * 10 ^ k := by
    rw [← Nat.cast_le (α := ℚ), hpoint, Nat.cast_mul, mul_le_mul_iff_left₀ hten, div_le_iff₀ hunit']
  have hge : n * tenTo k.toNat * i.unit ≤ i.high * tenTo (-k).toNat ↔
      (n * 10 ^ k : ℚ) ≤ i.high / i.unit := by
    rw [← Nat.cast_le (α := ℚ), hpoint, Nat.cast_mul, mul_le_mul_iff_left₀ hten, le_div_iff₀ hunit']
  have hlt : i.low * tenTo (-k).toNat < n * tenTo k.toNat * i.unit ↔
      (i.low / i.unit : ℚ) < n * 10 ^ k := by
    rw [← Nat.cast_lt (α := ℚ), hpoint, Nat.cast_mul, mul_lt_mul_iff_left₀ hten, div_lt_iff₀ hunit']
  have hgt : n * tenTo k.toNat * i.unit < i.high * tenTo (-k).toNat ↔
      (n * 10 ^ k : ℚ) < i.high / i.unit := by
    rw [← Nat.cast_lt (α := ℚ), hpoint, Nat.cast_mul, mul_lt_mul_iff_left₀ hten, lt_div_iff₀ hunit']
  simp only [contains]
  split
  · next hclosed =>
    rw [Bool.and_eq_true, decide_eq_true_eq, decide_eq_true_eq, hle, hge]
    exact ⟨fun h => .of_closed hclosed h.1 h.2, fun h => ⟨h.low_le, h.le_high⟩⟩
  · next hopen =>
    rw [Bool.and_eq_true, decide_eq_true_eq, decide_eq_true_eq, hlt, hgt]
    exact ⟨fun h => .of_lt h.1 h.2, fun h => h.apart hopen⟩

/-- The decimal above the value on a grid. -/
def next (i : Interval) (k : Int) : Nat :=
  i.value * tenTo (-k).toNat / (i.unit * tenTo k.toNat) + 1

/-- The decimal above the value is less than a step of the grid away. -/
theorem next_spec (hunit : 0 < i.unit) (k : Int) :
    (i.value / i.unit : ℚ) < i.next k * 10 ^ k ∧
      (i.next k * 10 ^ k : ℚ) ≤ i.value / i.unit + 10 ^ k := by
  have hunit' : (0 : ℚ) < i.unit := Nat.cast_pos.mpr hunit
  have hten : (0 : ℚ) < 10 ^ k := zpow_ten_pos k
  have hscale : ((i.value * tenTo (-k).toNat : Nat) : ℚ) / (i.unit * tenTo k.toNat : Nat) =
      i.value / i.unit / 10 ^ k := by
    rw [Nat.cast_mul, Nat.cast_mul, cast_tenTo, cast_tenTo, ← zpow_toNat_mul 10 (by norm_num) k]
    field_simp
  have hfloor := Nat.floor_div_eq_div (K := ℚ) (i.value * tenTo (-k).toNat) (i.unit * tenTo k.toNat)
  rw [hscale] at hfloor
  have hpos : (0 : ℚ) ≤ i.value / i.unit / 10 ^ k := by positivity
  rw [next, ← hfloor, Nat.cast_add_one]
  constructor
  · rw [← div_lt_iff₀ hten]
    exact Nat.lt_floor_add_one _
  · rw [add_one_mul, add_le_add_iff_right, ← le_div_iff₀ hten]
    exact Nat.floor_le hpos

/-- What is found on a grid lies in the interval. -/
theorem of_onGrid? {k : Int} {s : Scientific} (h : i.onGrid? k = some s) :
    s.digits ≠ 0 ∧ i.contains s.digits s.exponent = true := by
  simp only [onGrid?] at h
  split at h
  · next hup =>
    cases h
    exact ⟨Nat.succ_ne_zero _, (Bool.and_eq_true_iff.mp hup).1⟩
  · split at h
    · next hdown =>
      cases h
      obtain ⟨hcontains, hfloor⟩ := Bool.and_eq_true_iff.mp hdown
      exact ⟨of_decide_eq_true hfloor, hcontains⟩
    · cases h

/-- A grid is not passed over when the decimal above the value lies in the interval. -/
theorem isSome_onGrid? {k : Int} (h : i.contains (i.next k) k = true) :
    (i.onGrid? k).isSome = true := by
  simp only [next] at h
  simp only [onGrid?, h, Bool.true_and]
  generalize (i.contains (i.value * tenTo (-k).toNat / (i.unit * tenTo k.toNat)) k &&
    decide (i.value * tenTo (-k).toNat / (i.unit * tenTo k.toNat) ≠ 0)) = down
  cases down with
  | false => rfl
  | true => split <;> rfl

theorem of_search {fuel : Nat} {k : Int} {s : Scientific} (h : i.search fuel k = some s) :
    s.digits ≠ 0 ∧ i.contains s.digits s.exponent = true := by
  induction fuel generalizing k with
  | zero => cases h
  | succ fuel ih =>
      simp only [search] at h
      split at h
      · next hfound => exact of_onGrid? (hfound.trans h)
      · exact ih h

/-- A search ends where a grid in its reach is not passed over. -/
theorem isSome_search {fuel j : Nat} {k : Int} (hj : j < fuel)
    (h : (i.onGrid? (k - j)).isSome = true) : (i.search fuel k).isSome = true := by
  induction fuel generalizing j k with
  | zero => omega
  | succ fuel ih =>
      simp only [search]
      split
      · rfl
      · next hnone =>
        cases j with
        | zero =>
            rw [Nat.cast_zero, sub_zero, hnone] at h
            cases h
        | succ j =>
            apply ih (Nat.lt_of_succ_lt_succ hj)
            rwa [sub_sub, add_comm 1, ← Nat.cast_succ]

/-- The search starts no higher than the first digit of the value. -/
theorem zpow_leadingExponent_le (hvalue : 0 < i.value) (hunit : 0 < i.unit) :
    (10 : ℚ) ^ i.leadingExponent ≤ i.value / i.unit := by
  have hunit' : (0 : ℚ) < i.unit := Nat.cast_pos.mpr hunit
  rw [le_div_iff₀ hunit']
  simp only [leadingExponent]
  split
  · next hwhole =>
    have hlength : 0 < (Nat.toDigits 10 (i.value / i.unit)).length := Nat.length_toDigits_pos
    have hle := (Nat.le_div_iff_mul_le hunit).mp (pow_length_toDigits_le hwhole)
    generalize (Nat.toDigits 10 (i.value / i.unit)).length = length at *
    have hexponent : (length : Int) - 1 = (length - 1 : Nat) := by omega
    rw [hexponent, zpow_natCast]
    exact_mod_cast hle
  · next hsmall =>
    have hsmaller : i.value < i.unit := by
      rw [not_not, Nat.div_eq_zero_iff] at hsmall
      omega
    have hplaces := lt_pow_length_toDigits (i.unit / i.value)
    have hlength : 0 < (Nat.toDigits 10 (i.unit / i.value)).length := Nat.length_toDigits_pos
    generalize (Nat.toDigits 10 (i.unit / i.value)).length = places at *
    have hinverse : ∀ n : Nat, i.unit ≤ i.value * 10 ^ n →
        (10 : ℚ) ^ (-(n : Int)) * i.unit ≤ i.value := by
      intro n hn
      rw [zpow_neg, zpow_natCast, inv_mul_le_iff₀ (by positivity), mul_comm]
      exact_mod_cast hn
    split
    · next hle =>
      have hexponent : -((places : Int) - 1) = -((places - 1 : Nat) : Int) := by omega
      rw [hexponent]
      exact hinverse _ hle
    · exact hinverse _ ((Nat.div_lt_iff_lt_mul hvalue).mp hplaces |>.le.trans_eq (mul_comm _ _))

end Interval

/-! ## The interval of a number -/

namespace Interval

variable {f : Format} {m : Nat} {q : Int}

theorem unit_ofFinite_pos : 0 < (ofFinite f m q).unit := twoTo_pos _

/-- Multiples of a quarter of the last place, as quotients by the unit. -/
theorem quarters_div_unit (n : Nat) :
    ((n * twoTo (q - 2).toNat : Nat) : ℚ) / (ofFinite f m q).unit = n / 4 * 2 ^ q := by
  have hsplit := zpow_toNat_mul 2 two_ne_zero (q - 2)
  have hfour : (2 : ℚ) ^ q = 2 ^ (q - 2) * 4 := by
    rw [zpow_sub₀ two_ne_zero]
    norm_num
  have hunit : (ofFinite f m q).unit = twoTo (-(q - 2)).toNat := by rw [neg_sub]; rfl
  rw [hunit, Nat.cast_mul, cast_twoTo, cast_twoTo, ← hsplit, hfour]
  field_simp

theorem value_ofFinite : ((ofFinite f m q).value : ℚ) / (ofFinite f m q).unit = m * 2 ^ q := by
  refine (quarters_div_unit (4 * m)).trans ?_
  push_cast
  ring

/-- The interval of a number holds what lies between the midpoints around it. -/
theorem contains_ofFinite_iff (hm : 0 < m) (n : Nat) (k : Int) :
    (ofFinite f m q).contains n k = true ↔ f.Around m q (n * 10 ^ k) := by
  have hlow : ((ofFinite f m q).low : ℚ) / (ofFinite f m q).unit = (m - f.gap m q) * 2 ^ q := by
    refine (quarters_div_unit _).trans ?_
    rw [Format.gap]
    split
    · rw [Nat.cast_sub (by omega)]
      push_cast
      ring
    · rw [Nat.cast_sub (by omega)]
      push_cast
      ring
  have hhigh : ((ofFinite f m q).high : ℚ) / (ofFinite f m q).unit = (m + 1 / 2) * 2 ^ q := by
    refine (quarters_div_unit (4 * m + 2)).trans ?_
    push_cast
    ring
  rw [contains_iff unit_ofFinite_pos, hlow, hhigh, Format.Around]
  simp [ofFinite]

/-- A grid with steps of less than half of the last place is not passed over. -/
theorem contains_next (hm : 0 < m) {k : Int} (hstep : (10 : ℚ) ^ k < 1 / 2 * 2 ^ q) :
    (ofFinite f m q).contains ((ofFinite f m q).next k) k = true := by
  obtain ⟨hlow, hhigh⟩ := next_spec (unit_ofFinite_pos (f := f) (m := m) (q := q)) k
  rw [value_ofFinite] at hlow hhigh
  rw [contains_ofFinite_iff hm]
  apply Between.of_lt
  · have hgap := mul_lt_mul_of_pos_right (sub_lt_self (m : ℚ) (f.gap_pos (m := m) (q := q)))
      (zpow_two_pos q)
    exact hgap.trans hlow
  · linarith

end Interval

namespace Format

variable {f : Format} {m : Nat} {q : Int}

/-- The shortest decimal of a number lies between the midpoints around it, where seventeen digits
tell the numbers of the format apart. -/
theorem shortest_around (hdigits : 4 * twoTo f.fractionBits ≤ tenTo 17) (hm : 0 < m)
    (h : f.Canonical m q) :
    (shortest f m q).digits ≠ 0 ∧ f.Around m q (shortest f m q).value := by
  have hleading := Interval.zpow_leadingExponent_le (i := .ofFinite f m q)
    (Nat.mul_pos (by omega) (twoTo_pos _)) Interval.unit_ofFinite_pos
  rw [Interval.value_ofFinite] at hleading
  -- a step of the last grid is less than half of the last place
  have hstep : (10 : ℚ) ^ ((Interval.ofFinite f m q).leadingExponent - (17 : Nat)) <
      1 / 2 * 2 ^ q := by
    have hbits : (m : ℚ) < 2 * twoTo f.fractionBits := by exact_mod_cast h.lt
    have hcast : (4 * twoTo f.fractionBits : ℚ) ≤ 10 ^ 17 := by exact_mod_cast hdigits
    rw [zpow_sub₀ (by norm_num), zpow_natCast, div_lt_iff₀ (by positivity)]
    calc (10 : ℚ) ^ (Interval.ofFinite f m q).leadingExponent ≤ m * 2 ^ q := hleading
      _ < 1 / 2 * 10 ^ 17 * 2 ^ q := mul_lt_mul_of_pos_right (by linarith) (zpow_two_pos q)
      _ = 1 / 2 * 2 ^ q * 10 ^ 17 := by ring
  have hfound := Interval.isSome_search (by norm_num : 17 < 18)
    (Interval.isSome_onGrid? (Interval.contains_next (f := f) hm hstep))
  obtain ⟨s, hs⟩ := Option.isSome_iff_exists.mp hfound
  obtain ⟨hnonzero, hcontains⟩ := Interval.of_search hs
  have hshortest : shortest f m q = s.strip 18 := by simp only [shortest, hs]
  rw [hshortest, Scientific.value_strip]
  exact ⟨Scientific.digits_strip 18 hnonzero, (Interval.contains_ofFinite_iff hm _ _).mp hcontains⟩

/-! ## Rounding decimals -/

/-- The bounds on exponents do not matter for decimals of at most four hundred places. -/
theorem exists_ofDecimal_eq_round {d : Nat} {e : Int} (hd : d ≠ 0)
    (hlow : (10 : ℚ) ^ (-401 : Int) ≤ d * 10 ^ e) (hhigh : (d : ℚ) * 10 ^ e < 10 ^ (400 : Int)) :
    ∃ num den : Nat, 0 < num ∧ 0 < den ∧ (num / den : ℚ) = d * 10 ^ e ∧
      f.ofDecimal d e = f.round num den := by
  have hten := zpow_ten_pos e
  have hlength : 0 < (Nat.toDigits 10 d).length := Nat.length_toDigits_pos
  have hupper : (d : ℚ) < 10 ^ (Nat.toDigits 10 d).length := by
    exact_mod_cast lt_pow_length_toDigits d
  have hlower : (10 : ℚ) ^ ((Nat.toDigits 10 d).length - 1) ≤ d := by
    exact_mod_cast pow_length_toDigits_le hd
  simp only [ofDecimal, if_neg hd]
  generalize (Nat.toDigits 10 d).length = length at *
  have hnotLarge : ¬400 < (length : Int) + e := by
    intro hlarge
    have hle : (10 : ℚ) ^ (400 : Int) ≤ 10 ^ (length - 1) * 10 ^ e := by
      rw [← zpow_natCast, ← zpow_add₀ (by norm_num)]
      exact zpow_le_zpow_right₀ (by norm_num) (by omega)
    exact absurd hhigh (not_lt.mpr (hle.trans (mul_le_mul_of_nonneg_right hlower hten.le)))
  have hnotSmall : ¬(length : Int) + e < -400 := by
    intro hsmall
    have hle : (10 : ℚ) ^ length * 10 ^ e ≤ 10 ^ (-401 : Int) := by
      rw [← zpow_natCast, ← zpow_add₀ (by norm_num)]
      exact zpow_le_zpow_right₀ (by norm_num) (by omega)
    exact absurd hlow (not_le.mpr ((mul_lt_mul_of_pos_right hupper hten).trans_le hle))
  rw [if_neg hnotLarge, if_neg hnotSmall]
  split
  · next he =>
    refine ⟨d * tenTo e.toNat, 1, ?_, Nat.one_pos, ?_, rfl⟩
    · exact Nat.mul_pos (Nat.pos_of_ne_zero hd) (Nat.pow_pos (by norm_num))
    · rw [Nat.cast_mul, cast_tenTo, ← zpow_natCast, Int.toNat_of_nonneg he, Nat.cast_one, div_one]
  · next he =>
    refine ⟨d, tenTo (-e).toNat, Nat.pos_of_ne_zero hd, Nat.pow_pos (by norm_num), ?_, rfl⟩
    rw [cast_tenTo, ← zpow_natCast, Int.toNat_of_nonneg (by omega), zpow_neg, div_inv_eq_mul]

end Format

/-! ## The format of 64 bits -/

theorem zpow_two_le_zpow_ten {n k : Int} (hk : 0 ≤ k) (h : n ≤ 3 * k) : (2 : ℚ) ^ n ≤ 10 ^ k :=
  calc (2 : ℚ) ^ n ≤ 2 ^ (3 * k) := zpow_le_zpow_right₀ one_le_two h
    _ = 8 ^ k := by rw [zpow_mul]; norm_num
    _ ≤ 10 ^ k := zpow_le_zpow_left₀ hk (by norm_num) (by norm_num)

section

variable {m : Nat} {q : Int} (hm : 0 < m) (h : double.Canonical m q)

include hm h

/-- The numbers around one of 64 bits are between two powers of two. -/
theorem bounds_of_around {x : ℚ} (hx : double.Around m q x) :
    (2 : ℚ) ^ (-1075 : Int) ≤ x ∧ x < 2 ^ (1024 : Int) := by
  have hpower := zpow_two_pos q
  constructor
  · have hmin : (-1074 : Int) ≤ q := h.min_le
    have hone : (1 : ℚ) ≤ m := by exact_mod_cast hm
    have hgap := double.gap_le_half (m := m) (q := q)
    calc (2 : ℚ) ^ (-1075 : Int) ≤ 2 ^ (q - 1) := zpow_le_zpow_right₀ one_le_two (by omega)
      _ = 1 / 2 * 2 ^ q := by rw [zpow_sub_one₀ two_ne_zero]; ring
      _ ≤ (m - double.gap m q) * 2 ^ q := mul_le_mul_of_nonneg_right (by linarith) hpower.le
      _ ≤ x := hx.low_le
  · have hmax : q ≤ 971 := h.le_max.trans (by decide)
    have hbits : (m : ℚ) + 1 ≤ 2 * 2 ^ 52 := by
      rw [← cast_twoTo]
      exact_mod_cast h.lt
    calc x ≤ (m + 1 / 2) * 2 ^ q := hx.le_high
      _ < 2 * 2 ^ 52 * 2 ^ q := mul_lt_mul_of_pos_right (by linarith) hpower
      _ = 2 ^ (53 + q) := by rw [zpow_add₀ two_ne_zero]; norm_num
      _ ≤ 2 ^ (1024 : Int) := zpow_le_zpow_right₀ one_le_two (by omega)

/-- A decimal around a number of 64 bits is rounded to this number. -/
theorem ofDecimal_eq_pattern {d : Nat} {e : Int} (hd : d ≠ 0)
    (hx : double.Around m q (d * 10 ^ e)) : double.ofDecimal d e = double.pattern m q := by
  obtain ⟨hlow, hhigh⟩ := bounds_of_around hm h hx
  have hsmall : (10 : ℚ) ^ (-401 : Int) ≤ d * 10 ^ e := by
    refine le_trans ?_ hlow
    rw [zpow_neg, zpow_neg]
    exact inv_anti₀ (zpow_two_pos _) (zpow_two_le_zpow_ten (by norm_num) (by norm_num))
  have hlarge : (d : ℚ) * 10 ^ e < 10 ^ (400 : Int) :=
    hhigh.trans_le (zpow_two_le_zpow_ten (by norm_num) (by norm_num))
  obtain ⟨num, den, hnum, hden, hvalue, hround⟩ :=
    Format.exists_ofDecimal_eq_round hd hsmall hlarge
  rw [hround]
  apply Format.round_eq_pattern hnum hden h
  rwa [hvalue]

/-- The shortest decimal of a number of 64 bits is rounded to this number, with whatever digits and
exponent it is written. -/
theorem ofDecimal_of_value_eq_shortest {d : Nat} {e : Int}
    (hvalue : (d : ℚ) * 10 ^ e = (shortest double m q).value) :
    double.ofDecimal d e = double.pattern m q := by
  have hdigits : 4 * twoTo double.fractionBits ≤ tenTo 17 := by decide
  obtain ⟨hnonzero, haround⟩ := Format.shortest_around hdigits hm h
  have hd : d ≠ 0 := by
    rintro rfl
    have hpos := Scientific.value_pos hnonzero
    rw [← hvalue, Nat.cast_zero, zero_mul] at hpos
    exact lt_irrefl _ hpos
  exact ofDecimal_eq_pattern hm h hd (hvalue ▸ haround)

end

end TestWriter.Decimal
