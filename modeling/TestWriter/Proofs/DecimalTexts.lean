import TestWriter.Decimal.Reading
import TestWriter.Proofs.ShortestDecimals

/-!
# Reading numbers back

A decimal is written with a point inside, in front of or behind its digits, or with an exponent.
Main statement: read back, each of these texts denotes the decimal, so that a finite number of 64
bits is read back from its text.
-/

namespace TestWriter.Decimal

open Text (cut?)

/-! ## Digits -/

/-- A text is made of digits. -/
def IsDigits (cs : List Char) : Prop := ∀ c ∈ cs, c.isDigit = true

theorem isDigits_toDigits (n : Nat) : IsDigits (Nat.toDigits 10 n) :=
  fun _ hc => Nat.isDigit_of_mem_toDigits (by norm_num) (by norm_num) hc

theorem isDigits_zeros (k : Nat) : IsDigits (List.replicate k '0') := by
  intro c hc
  rw [List.eq_of_mem_replicate hc]
  rfl

namespace IsDigits

variable {cs ds : List Char}

theorem append (hcs : IsDigits cs) (hds : IsDigits ds) : IsDigits (cs ++ ds) :=
  List.forall_mem_append.mpr ⟨hcs, hds⟩

theorem notMem (h : IsDigits cs) {c : Char} (hc : c.isDigit = false) : c ∉ cs := by
  intro hmem
  rw [h c hmem] at hc
  cases hc

theorem natOfText? (h : IsDigits cs) (hne : cs ≠ []) :
    natOfText? cs = some (Nat.ofDigitChars 10 cs 0) := by
  have hempty : cs.isEmpty = false := by simpa using hne
  have hall : cs.all Char.isDigit = true := List.all_eq_true.mpr h
  rw [Decimal.natOfText?, hempty, hall]
  rfl

end IsDigits

theorem exponentOfText?_toString (n : Int) : exponentOfText? (toString n).toList = some n := by
  cases n with
  | ofNat n =>
      have htext : (toString (Int.ofNat n)).toList = Nat.toDigits 10 n := Nat.toList_repr
      have hdigits := isDigits_toDigits n
      have hvalue := hdigits.natOfText? Nat.toDigits_ne_nil
      rw [Nat.ofDigitChars_ten_toDigits] at hvalue
      rw [htext]
      obtain ⟨c, cs, hcons⟩ := List.exists_cons_of_ne_nil (Nat.toDigits_ne_nil (n := n) (b := 10))
      rw [hcons] at hvalue hdigits ⊢
      have hminus : c ≠ '-' := by
        rintro rfl
        exact hdigits.notMem rfl List.mem_cons_self
      rw [exponentOfText?, hvalue]
      · rfl
      · intro cs' heq
        exact hminus (List.cons.inj heq).1
  | negSucc n =>
      have htext : (toString (Int.negSucc n)).toList = '-' :: Nat.toDigits 10 (n + 1) := by
        show ("-" ++ (n + 1).repr).toList = _
        rw [String.toList_append, Nat.toList_repr]
        rfl
      have hvalue := (isDigits_toDigits (n + 1)).natOfText? Nat.toDigits_ne_nil
      rw [Nat.ofDigitChars_ten_toDigits] at hvalue
      rw [htext, exponentOfText?, hvalue]
      rfl

/-! ## Decimals -/

/-- A text is cut at a pattern whose first character is not in front of it. -/
theorem cut?_append {c : Char} {before : List Char} (h : c ∉ before) (pattern after : List Char) :
    cut? (c :: pattern) (before ++ (c :: pattern ++ after)) = some (before, after) := by
  have hfirst : Text.FirstBehind before ([] ++ c :: pattern) :=
    Text.firstBehind_of_notMem List.not_mem_nil h
  exact Text.cut?_eq_some_iff.mpr ⟨(List.append_assoc ..).symm, hfirst⟩

theorem cut?_of_notMem {c : Char} {before : List Char} (h : c ∉ before) (after : List Char) :
    cut? [c] (before ++ c :: after) = some (before, after) :=
  cut?_append h [] after

theorem cut?_eq_none_of_notMem {c : Char} {cs : List Char} (h : c ∉ cs) : cut? [c] cs = none :=
  Text.cut?_eq_none_iff.mpr fun hpart => h (hpart.subset List.mem_cons_self)

namespace Scientific

/-- The digits of a text without exponent, whose own exponent is the given one less the number of
digits behind the point. -/
def ofMantissa? (cs : List Char) (exponent : Int) : Option Scientific :=
  match cut? ['.'] cs with
  | some (whole, places) =>
    (natOfText? (whole ++ places)).map fun n => ⟨n, exponent - places.length⟩
  | none => (natOfText? cs).map fun n => ⟨n, exponent⟩

theorem ofText?_of_notMem {cs : List Char} (h : 'e' ∉ cs) : ofText? cs = ofMantissa? cs 0 := by
  simp only [ofText?, cut?_eq_none_of_notMem h, ofMantissa?, Option.bind_eq_bind, Option.bind_some]
  cases cut? ['.'] cs <;> exact (Option.map_eq_bind ..).symm

theorem ofText?_exponential {cs : List Char} (h : 'e' ∉ cs) (n : Int) :
    ofText? (cs ++ 'e' :: (toString n).toList) = ofMantissa? cs n := by
  simp only [ofText?, cut?_of_notMem h, exponentOfText?_toString, ofMantissa?, Option.map_some,
    Option.bind_eq_bind, Option.bind_some]
  cases cut? ['.'] cs <;> exact (Option.map_eq_bind ..).symm

/-- Digits alone are a whole number. -/
theorem ofMantissa?_digits {cs : List Char} (h : IsDigits cs) (hne : cs ≠ []) (n : Int) :
    ofMantissa? cs n = some ⟨Nat.ofDigitChars 10 cs 0, n⟩ := by
  rw [ofMantissa?, cut?_eq_none_of_notMem (h.notMem (rfl : '.'.isDigit = false)),
    h.natOfText? hne]
  rfl

section

variable {whole places : List Char} (hwhole : IsDigits whole) (hplaces : IsDigits places)

include hwhole hplaces

/-- Digits behind a point lower the exponent. -/
theorem ofMantissa?_point (hne : whole ++ places ≠ []) (n : Int) :
    ofMantissa? (whole ++ '.' :: places) n =
      some ⟨Nat.ofDigitChars 10 (whole ++ places) 0, n - places.length⟩ := by
  rw [ofMantissa?, cut?_of_notMem (hwhole.notMem (rfl : '.'.isDigit = false))]
  simp only [(hwhole.append hplaces).natOfText? hne, Option.map_some]

theorem mark_notMem_point : 'e' ∉ whole ++ '.' :: places := by
  simp [hwhole.notMem (rfl : 'e'.isDigit = false), hplaces.notMem (rfl : 'e'.isDigit = false)]

theorem ofText?_point (hne : whole ++ places ≠ []) :
    ofText? (whole ++ '.' :: places) =
      some ⟨Nat.ofDigitChars 10 (whole ++ places) 0, -places.length⟩ := by
  rw [ofText?_of_notMem (mark_notMem_point hwhole hplaces),
    ofMantissa?_point hwhole hplaces hne, zero_sub]

end

section

variable {digits : List Char} (h : IsDigits digits) (hne : digits ≠ [])

include h hne

/-- A positional text denotes its digits in their places. -/
theorem ofText?_positional (places : Int) :
    ∃ s, ofText? (positional digits places) = some s ∧
      s.value = Nat.ofDigitChars 10 digits 0 * 10 ^ (places - digits.length) := by
  have hten : (10 : ℚ) ≠ 0 := by norm_num
  simp only [positional]
  split
  · next hplaces =>
    have hzeros := isDigits_zeros (-places).toNat
    have hleading : Nat.ofDigitChars 10 (['0'] ++ (List.replicate (-places).toNat '0' ++ digits)) 0 =
        Nat.ofDigitChars 10 digits 0 := by
      rw [Nat.ofDigitChars_append, Nat.ofDigitChars_append, Nat.ofDigitChars_replicate_zero]
      rfl
    have hexponent : -(((-places).toNat + digits.length : Nat) : Int) = places - digits.length := by
      omega
    refine ⟨_, ofText?_point (isDigits_zeros 1) (hzeros.append h) (by simp), ?_⟩
    rw [value, List.length_append, List.length_replicate]
    exact congrArg₂ (· * ·) (congrArg Nat.cast hleading) (congrArg ((10 : ℚ) ^ ·) hexponent)
  · next hplaces =>
    split
    · next hlength =>
      have hzeros := isDigits_zeros (places.toNat - digits.length)
      have hsplit : digits ++ List.replicate (places.toNat - digits.length) '0' ++ ['.', '0'] =
          (digits ++ List.replicate (places.toNat - digits.length) '0') ++ '.' :: ['0'] := rfl
      rw [hsplit]
      refine ⟨_, ofText?_point (h.append hzeros) (isDigits_zeros 1) (by simp), ?_⟩
      have hexponent : places - digits.length =
          ((places.toNat - digits.length + 1 : Nat) : Int) + -1 := by omega
      have htrailing : Nat.ofDigitChars 10
          (digits ++ List.replicate (places.toNat - digits.length) '0' ++ ['0']) 0 =
          10 ^ (places.toNat - digits.length + 1) * Nat.ofDigitChars 10 digits 0 := by
        rw [List.append_assoc, ← List.replicate_succ', Nat.ofDigitChars_append,
          Nat.ofDigitChars_replicate_zero]
      rw [value, htrailing, List.length_singleton, hexponent, zpow_add₀ hten, zpow_natCast]
      push_cast
      ring
    · next hlength =>
      refine ⟨_, ofText?_point (fun c hc => h c (List.mem_of_mem_take hc))
        (fun c hc => h c (List.mem_of_mem_drop hc)) ?_, ?_⟩
      · rwa [List.take_append_drop]
      · have hexponent : -(((digits.length - places.toNat : Nat)) : Int) =
            places - digits.length := by omega
        rw [value, List.take_append_drop, List.length_drop, hexponent]

/-- An exponential text denotes its digits, whose first one has the exponent. -/
theorem ofText?_exponential_digits (n : Int) :
    ∃ s, ofText? (exponential digits n) = some s ∧
      s.value = Nat.ofDigitChars 10 digits 0 * 10 ^ (n + 1 - digits.length) := by
  obtain ⟨d, rest, rfl⟩ := List.exists_cons_of_ne_nil hne
  obtain ⟨hd, hrest⟩ := List.forall_mem_cons.mp h
  cases rest with
  | nil =>
      have hmark := h.notMem (rfl : 'e'.isDigit = false)
      refine ⟨_, (ofText?_exponential hmark n).trans (ofMantissa?_digits h hne n), ?_⟩
      simp [value]
  | cons c rest =>
      have hfirst : IsDigits [d] := List.forall_mem_singleton.mpr hd
      refine ⟨_, (ofText?_exponential (mark_notMem_point hfirst hrest) n).trans
        (ofMantissa?_point hfirst hrest (by simp) n), ?_⟩
      have hexponent : n - ((c :: rest).length : Int) = n + 1 - ((d :: c :: rest).length : Int) := by
        simp only [List.length_cons]
        omega
      rw [value, hexponent]
      rfl

end

/-- A decimal is read back from its text, possibly with other digits and another exponent. -/
theorem ofText?_text (s : Scientific) : ∃ r, ofText? s.text = some r ∧ r.value = s.value := by
  have hdigits := isDigits_toDigits s.digits
  have hne := Nat.toDigits_ne_nil (n := s.digits) (b := 10)
  have hvalue : ∀ n : Int, n = s.exponent →
      (Nat.ofDigitChars 10 (Nat.toDigits 10 s.digits) 0 : ℚ) * 10 ^ n = s.value := by
    rintro n rfl
    rw [Nat.ofDigitChars_ten_toDigits, value]
  simp only [text]
  split
  · next hzero =>
    refine ⟨⟨0, -1⟩, rfl, ?_⟩
    rw [value, value, hzero, Nat.cast_zero, zero_mul, zero_mul]
  · split
    · obtain ⟨r, hr, heq⟩ := ofText?_positional hdigits hne
        (s.exponent + (Nat.toDigits 10 s.digits).length - 1 + 1)
      exact ⟨r, hr, heq.trans (hvalue _ (by omega))⟩
    · obtain ⟨r, hr, heq⟩ := ofText?_exponential_digits hdigits hne
        (s.exponent + (Nat.toDigits 10 s.digits).length - 1)
      exact ⟨r, hr, heq.trans (hvalue _ (by omega))⟩

/-- The text of a decimal starts with a digit. -/
theorem exists_text_eq_cons (s : Scientific) : ∃ c cs, s.text = c :: cs ∧ c.isDigit = true := by
  obtain ⟨d, rest, hcons⟩ := List.exists_cons_of_ne_nil (Nat.toDigits_ne_nil (n := s.digits) (b := 10))
  have hd : d.isDigit = true := isDigits_toDigits s.digits d (hcons ▸ List.mem_cons_self)
  simp only [text, hcons]
  split
  · exact ⟨'0', _, rfl, rfl⟩
  · split
    · simp only [positional]
      split
      · exact ⟨'0', _, rfl, rfl⟩
      · next hplaces =>
        split
        · exact ⟨d, _, rfl, hd⟩
        · obtain ⟨k, hk⟩ : ∃ k, (s.exponent + ((d :: rest).length : Int) - 1 + 1).toNat = k + 1 :=
            ⟨_, (Nat.succ_pred_eq_of_ne_zero (by omega)).symm⟩
          rw [hk]
          exact ⟨d, _, rfl, hd⟩
    · cases rest with
      | nil => exact ⟨d, _, rfl, hd⟩
      | cons c rest => exact ⟨d, _, rfl, hd⟩

end Scientific

/-! ## Numbers -/

/-- A decimal with a sign is read back. -/
theorem Format.ofText?_signed (f : Format) {s r : Scientific}
    (h : Scientific.ofText? s.text = some r) (negative : Bool) :
    f.ofText? (String.ofList (if negative then '-' :: s.text else s.text)) =
      some (negative, f.ofDecimal r.digits r.exponent) := by
  obtain ⟨c, cs, hcons, hc⟩ := s.exists_text_eq_cons
  rw [hcons] at h ⊢
  have hother : ∀ {d : Char}, d.isDigit = false → c ≠ d := by
    rintro d hd rfl
    rw [hc] at hd
    cases hd
  have hinf : c :: cs ≠ "inf".toList := fun heq =>
    hother (rfl : 'i'.isDigit = false) (List.cons.inj heq).1
  cases negative with
  | false =>
      have hnan : String.ofList (c :: cs) ≠ "NaN" := fun heq => by
        have hlist := congrArg String.toList heq
        rw [String.toList_ofList] at hlist
        exact hother (rfl : 'N'.isDigit = false) (List.cons.inj hlist).1
      have hminus : ∀ rest, c :: cs = '-' :: rest → False := fun _ heq =>
        hother (rfl : '-'.isDigit = false) (List.cons.inj heq).1
      simp only [Bool.false_eq_true, if_false, ofText?, String.toList_ofList, if_neg hnan,
        if_neg hinf, h, Option.map_some]
  | true =>
      have hnan : String.ofList ('-' :: c :: cs) ≠ "NaN" := fun heq => by
        have hlist := congrArg String.toList heq
        rw [String.toList_ofList] at hlist
        cases hlist
      simp only [if_true, ofText?, String.toList_ofList, if_neg hnan, if_neg hinf, h]
      rfl

/-- The decimal that is written for a finite number. -/
def writtenDecimal (f : Format) (m : Nat) (q : Int) : Scientific :=
  if m = 0 then ⟨0, 0⟩ else shortest f m q

theorem textOf_finite (f : Format) (negative : Bool) (m : Nat) (q : Int) :
    textOf f negative (.finite m q) = String.ofList
      (if negative then '-' :: (writtenDecimal f m q).text else (writtenDecimal f m q).text) := by
  simp only [textOf, writtenDecimal, apply_ite Scientific.text]

/-- There is a digit in the text of a finite number. -/
theorem any_isDigit_textOf (f : Format) (negative : Bool) (m : Nat) (q : Int) :
    (textOf f negative (.finite m q)).toList.any Char.isDigit = true := by
  obtain ⟨c, cs, hcons, hc⟩ := (writtenDecimal f m q).exists_text_eq_cons
  rw [textOf_finite, String.toList_ofList, hcons]
  cases negative <;> simp [hc]

/-- The pattern of a number is read back from its text. -/
theorem ofText?_textOf {m : Nat} {q : Int} (h : double.Canonical m q) (negative : Bool) :
    double.ofText? (textOf double negative (.finite m q)) = some (negative, double.pattern m q) := by
  obtain ⟨r, hr, hvalue⟩ := (writtenDecimal double m q).ofText?_text
  rw [textOf_finite, double.ofText?_signed hr]
  congr 2
  rw [writtenDecimal] at hvalue
  split at hvalue
  · next hzero =>
    have hdigits : r.digits = 0 := by
      by_contra hne
      have hpos := Scientific.value_pos hne
      rw [hvalue, Scientific.value, Nat.cast_zero, zero_mul] at hpos
      exact lt_irrefl _ hpos
    have hsmallest : q = double.minExponent :=
      h.normal.resolve_right (by rw [hzero]; exact not_le.mpr (twoTo_pos _))
    rw [hdigits, hzero, hsmallest]
    rfl
  · next hnonzero => exact ofDecimal_of_value_eq_shortest (Nat.pos_of_ne_zero hnonzero) h hvalue

/-- A number consists of its sign and its pattern. -/
theorem Binary64.ofPattern_mod (x : Binary64) :
    ofPattern x.negative (x.bits.toNat % double.signBit) = x := by
  have hbits : x.bits.toNat < double.signBit * 2 := x.bits.toNat_lt
  have hdiv := Nat.div_add_mod x.bits.toNat double.signBit
  have htop := Nat.div_lt_of_lt_mul hbits
  have hnegative : x.negative = (x.bits.toNat / double.signBit % 2 == 1) := rfl
  have hpattern : double.withSign x.negative (x.bits.toNat % double.signBit) = x.bits.toNat := by
    rw [hnegative, Format.withSign]
    generalize x.bits.toNat / double.signBit = top at hdiv htop ⊢
    obtain rfl | rfl : top = 0 ∨ top = 1 := by omega
    · simpa using hdiv
    · simpa using hdiv
  rw [ofPattern, hpattern, UInt64.ofNat_toNat]

/-- A finite number is read back from its text. -/
theorem Binary64.ofText?_text {x : Binary64} (h : x.isFinite = true) :
    Binary64.ofText? x.text = some x := by
  cases hmagnitude : x.magnitude with
  | finite m q =>
      obtain ⟨hcanonical, hpattern⟩ := Format.canonical_of_magnitude hmagnitude
      rw [Binary64.ofText?, text, hmagnitude, ofText?_textOf hcanonical, hpattern]
      exact congrArg some x.ofPattern_mod
  | _ => simp [isFinite, hmagnitude] at h

end TestWriter.Decimal
