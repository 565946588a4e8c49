import TestWriter.Json.Reader
import TestWriter.Json.Writer
import TestWriter.Proofs.DecimalTexts

/-!
# Texts of JSON values

A text that is written is read in front of whatever may follow it, one part at a time, with twice
its length as a bound for the reader.  Main statement: a value without floating point numbers is
read back from its text as far as it is nested within the limit, so that all of it is read back when
it is not nested more deeply than that.
-/

namespace TestWriter.Json

open Decimal (IsDigits isDigits_toDigits)

/-! ## Numbers -/

/-- What may follow a value inside another one: nothing, or a sign that goes on with or ends it. -/
def Ends (rest : List Char) : Prop := ∀ c ∈ rest.head?, c = ',' ∨ c = ']' ∨ c = '}'

variable {rest : List Char}

theorem ends_nil : Ends [] := fun _ h => nomatch h

theorem ends_cons {c : Char} (h : c = ',' ∨ c = ']' ∨ c = '}') (rest : List Char) :
    Ends (c :: rest) :=
  fun _ hmem => Option.some.inj hmem ▸ h

/-- Digits are read up to the end of a number. -/
theorem spanDigits_append {digits : List Char} (hdigits : IsDigits digits) (hends : Ends rest) :
    spanDigits (digits ++ rest) = (digits, rest) := by
  have hstop : ∀ c ∈ rest.head?, ¬c.isDigit = true := by
    intro c hc
    rcases hends c hc with rfl | rfl | rfl <;> decide
  cases rest with
  | nil =>
      rw [List.append_nil, spanDigits, List.takeWhile_eq_self_iff.mpr hdigits,
        List.dropWhile_eq_nil_iff.mpr hdigits]
  | cons c cs =>
      have hc := hstop c rfl
      rw [spanDigits, List.takeWhile_append_of_pos hdigits, List.dropWhile_append_of_pos hdigits,
        List.takeWhile_cons_of_neg hc, List.dropWhile_cons_of_neg hc, List.append_nil]

theorem natOfDigits_toDigits (n : Nat) : natOfDigits (Nat.toDigits 10 n) = n := by
  have hvalue : natOfDigits (Nat.toDigits 10 n) = Nat.ofDigitChars 10 (Nat.toDigits 10 n) 0 := by
    simp only [natOfDigits, Nat.ofDigitChars, digitValue, Nat.mul_comm]
  rw [hvalue, Nat.ofDigitChars_ten_toDigits]

/-- A number is written without leading zeros. -/
theorem head?_toDigits {n : Nat} (h : 0 < n) : (Nat.toDigits 10 n).head? ≠ some '0' := by
  induction n using Nat.strongRecOn with
  | ind n ih =>
      by_cases hn : n < 10
      · have hdigit : ∀ d < 10, 0 < d → Nat.digitChar d ≠ '0' := by decide
        rw [Nat.toDigits_of_lt_base hn]
        simpa using hdigit n hn h
      · rw [Nat.toDigits_of_base_le (by omega) (by omega),
          List.head?_append_of_ne_nil _ Nat.toDigits_ne_nil]
        exact ih (n / 10) (by omega) (by omega)

theorem readUnsigned_toDigits (negative : Bool) (n : Nat) (hends : Ends rest) :
    readUnsigned negative (Nat.toDigits 10 n ++ rest) =
      some (integerOrReal? negative (Nat.toDigits 10 n), rest) := by
  have hspan := spanDigits_append (isDigits_toDigits n) hends
  have hzero : ¬((Nat.toDigits 10 n).head? = some '0' ∧ 1 < (Nat.toDigits 10 n).length) := by
    rintro ⟨hhead, hlength⟩
    rcases Nat.eq_zero_or_pos n with rfl | hn
    · exact absurd hlength (by decide)
    · exact head?_toDigits hn hhead
  have hfraction : readFraction rest = some ([], rest) := by
    cases rest with
    | nil => rfl
    | cons c cs => rcases hends c rfl with rfl | rfl | rfl <;> rfl
  have hexponent : readExponent rest = some (none, rest) := by
    cases rest with
    | nil => rfl
    | cons c cs => rcases hends c rfl with rfl | rfl | rfl <;> rfl
  obtain ⟨c, cs, hcons⟩ := List.exists_cons_of_ne_nil (Nat.toDigits_ne_nil (n := n) (b := 10))
  rw [readUnsigned, hspan]
  simp only [hcons] at hzero ⊢
  simp only [if_neg hzero, hfraction, hexponent, Option.bind_some, Option.map_some, and_self,
    if_true]

/-- An integer of 64 bits is read back. -/
theorem readNumber_int {n : Int} (hlow : Int64.minValue.toInt ≤ n) (hhigh : n < UInt64.size)
    (hends : Ends rest) :
    readNumber ((toString n).toList ++ rest) = some (some (.integer n), rest) := by
  cases n with
  | ofNat n =>
      have htext : (toString (Int.ofNat n)).toList = Nat.toDigits 10 n := Nat.toList_repr
      obtain ⟨c, cs, hcons⟩ := List.exists_cons_of_ne_nil (Nat.toDigits_ne_nil (n := n) (b := 10))
      have hminus : c ≠ '-' := by
        rintro rfl
        exact (isDigits_toDigits n).notMem rfl (hcons ▸ List.mem_cons_self)
      have hnumber : readNumber (Nat.toDigits 10 n ++ rest) =
          readUnsigned false (Nat.toDigits 10 n ++ rest) := by
        rw [hcons, List.cons_append, readNumber]
        exact fun _ heq => hminus (List.cons.inj heq).1
      have hfits : n < digitLimit := Int.ofNat_lt.mp hhigh
      rw [htext, hnumber, readUnsigned_toDigits false n hends]
      simp [integerOrReal?, natOfDigits_toDigits, hfits]
  | negSucc n =>
      have htext : (toString (Int.negSucc n)).toList = '-' :: Nat.toDigits 10 (n + 1) := by
        show ("-" ++ (n + 1).repr).toList = _
        rw [String.toList_append, Nat.toList_repr]
        rfl
      have hfits : n + 1 ≤ Int64.minValue.toInt.natAbs := by
        have hmin : Int64.minValue.toInt = -9223372036854775808 := by decide
        rw [hmin] at hlow ⊢
        omega
      rw [htext, List.cons_append, readNumber, readUnsigned_toDigits true (n + 1) hends]
      simp only [integerOrReal?, natOfDigits_toDigits, hfits, decide_true, bne_iff_ne, ne_eq,
        Nat.succ_ne_zero, not_false_eq_true, Bool.and_true, if_true]
      simp [Int.negSucc_eq]

/-! ## Strings -/

section

variable {read : Option (List Char)}

theorem readChars_letter {c e : Char} (h : escapeLetter? c = some e) (rest : List Char) :
    readChars read ('\\' :: c :: rest) = readChars (pushChar (some e) read) rest := by
  have hu : c ≠ 'u' := by
    rintro rfl
    cases h
  rw [readChars, h]
  · exact fun _ _ _ _ _ _ _ _ _ heq _ => hu heq
  · exact fun _ _ _ _ _ heq _ => hu heq

/-- Whether a rest of a text starts with an escaped code. -/
def StartsWithCode (rest : List Char) : Prop :=
  ∃ a b c d more, rest = '\\' :: 'u' :: a :: b :: c :: d :: more

theorem readChars_eq_none {a b c d : Char} (h : hex4? a b c d = none) (rest : List Char) :
    readChars read ('\\' :: 'u' :: a :: b :: c :: d :: rest) = none := by
  by_cases hcode : StartsWithCode rest
  · obtain ⟨a', b', c', d', more, rfl⟩ := hcode
    rw [readChars, h]
  · rw [readChars, h]
    exact fun a' b' c' d' more heq => hcode ⟨a', b', c', d', more, heq⟩

/-- An escaped code that is no half of a pair stands for itself, whatever follows it. -/
theorem readChars_code {a b c d : Char} {n : Nat} (h : hex4? a b c d = some n) (hn : n < 0xd800)
    (rest : List Char) :
    readChars read ('\\' :: 'u' :: a :: b :: c :: d :: rest) =
      readChars (pushChar (codeUnit? n) read) rest := by
  by_cases hcode : StartsWithCode rest
  · obtain ⟨a', b', c', d', more, rfl⟩ := hcode
    have hpair : ∀ m, surrogatePair? n m = none := fun m => if_neg (by simp; omega)
    rw [readChars, h]
    cases hnext : hex4? a' b' c' d' with
    | none => exact (readChars_eq_none hnext more).symm
    | some m => simp only [hpair]
  · rw [readChars, h]
    exact fun a' b' c' d' more heq => hcode ⟨a', b', c', d', more, heq⟩

/-- A character is read back from its form inside a string. -/
theorem readChars_escape (c : Char) (rest : List Char) :
    readChars read (escape c ++ rest) = readChars (pushChar (some c) read) rest := by
  unfold escape
  split
  · next letter hletter =>
    have hletters : ∀ e ∈ escapeLetters, escapeLetter? e.2 = some e.1 := by decide
    obtain ⟨before, after, hsplit, -⟩ := List.lookup_eq_some_iff.mp hletter
    exact readChars_letter (hletters (c, letter) (by simp [hsplit])) rest
  · next hnone =>
    have hne : ∀ e ∈ escapeLetters, c ≠ e.1 := by simpa using hnone
    have hquote : c ≠ '"' := hne _ List.mem_cons_self
    have hbackslash : c ≠ '\\' := hne _ (List.mem_cons_of_mem _ List.mem_cons_self)
    split_ifs with hcontrol
    · have hhex : ∀ n < 0x20,
          hex4? '0' '0' (Nat.digitChar (n / 16)) (Nat.digitChar (n % 16)) = some n := by decide
      have hunit : codeUnit? c.toNat = some c := by
        rw [codeUnit?, if_neg (by simp; omega), Char.ofNat_toNat]
      rw [← hunit]
      exact readChars_code (hhex c.toNat hcontrol) (by omega) rest
    · rw [List.singleton_append, readChars, if_neg hcontrol]
      · exact hquote
      · exact fun _ _ _ _ _ _ _ _ _ heq _ => hbackslash heq
      · exact fun _ _ _ _ _ heq _ => hbackslash heq
      · exact fun _ _ heq _ => hbackslash heq

theorem readChars_escaped (cs read rest : List Char) :
    readChars (some read) (cs.flatMap escape ++ '"' :: rest) =
      some (some (read.reverse ++ cs), rest) := by
  induction cs generalizing read with
  | nil => simp [readChars]
  | cons c cs ih =>
      rw [List.flatMap_cons, List.append_assoc, readChars_escape, pushChar, ih]
      simp

/-- A string is read back from its quotes. -/
theorem readString_quoted (s : String) (rest : List Char) :
    readString (quoted s ++ rest) = some (some s, rest) := by
  have hquoted : quoted s ++ rest = '"' :: (s.toList.flatMap escape ++ '"' :: rest) := by
    simp [quoted]
  rw [hquoted, readString, readChars_escaped]
  simp

end

/-! ## Values -/

mutual

/-- Whether the numbers inside a value are integers of 64 bits, and nothing in it is unreadable. -/
def isPlain : Json → Bool
  | .null | .bool _ | .string _ => true
  | .number (.integer n) => Int64.minValue.toInt ≤ n && n < UInt64.size
  | .number (.real _) => false
  | .array elements => elementsPlain elements
  | .object members => membersPlain members
  | .unreadable => false

/-- Whether all elements are plain. -/
def elementsPlain : List Json → Bool
  | [] => true
  | j :: rest => j.isPlain && elementsPlain rest

/-- Whether the values of all members are plain. -/
def membersPlain : List (String × Json) → Bool
  | [] => true
  | (_, j) :: rest => j.isPlain && membersPlain rest

end

/-- A value may start with the character: it is neither blank nor the end of an array. -/
def IsHead (c : Char) : Prop := c ≠ ' ' ∧ c ≠ '\t' ∧ c ≠ '\n' ∧ c ≠ '\r' ∧ c ≠ ']'

instance : DecidablePred IsHead := fun _ => inferInstanceAs (Decidable (_ ∧ _))

theorem skipBlanks_cons {c : Char} (h : IsHead c) (cs : List Char) :
    skipBlanks (c :: cs) = c :: cs := by
  obtain ⟨hspace, htab, hfeed, hreturn, -⟩ := h
  exact List.dropWhile_cons_of_neg (by simp [hspace, htab, hfeed, hreturn])

theorem exists_toString_eq_cons (n : Int) :
    ∃ c cs, (toString n).toList = c :: cs ∧ (c = '-' ∨ c.isDigit = true) := by
  cases n with
  | ofNat n =>
      have htext : (toString (Int.ofNat n)).toList = Nat.toDigits 10 n := Nat.toList_repr
      obtain ⟨c, cs, hcons⟩ := List.exists_cons_of_ne_nil (Nat.toDigits_ne_nil (n := n) (b := 10))
      exact ⟨c, cs, htext.trans hcons,
        Or.inr (isDigits_toDigits n c (hcons ▸ List.mem_cons_self))⟩
  | negSucc n => exact ⟨'-', (n + 1).repr.toList, String.toList_append, Or.inl rfl⟩

theorem isHead_of_number {c : Char} (h : c = '-' ∨ c.isDigit = true) : IsHead c := by
  refine ⟨?_, ?_, ?_, ?_, ?_⟩ <;>
    · rintro rfl
      revert h
      decide

/-- The text of a plain value starts with a character that a value may start with. -/
theorem exists_chars_eq_cons {j : Json} (h : j.isPlain = true) :
    ∃ c cs, j.chars = c :: cs ∧ IsHead c := by
  cases j with
  | null => exact ⟨_, _, by rw [chars], by decide⟩
  | bool b => cases b <;> exact ⟨_, _, by rw [chars], by decide⟩
  | number n =>
      cases n with
      | integer n =>
          obtain ⟨c, cs, hcons, hc⟩ := exists_toString_eq_cons n
          exact ⟨c, cs, by rw [chars, Number.chars, hcons], isHead_of_number hc⟩
      | real x => cases h
  | string s => exact ⟨_, _, by rw [chars, quoted, List.cons_append], by decide⟩
  | array elements => exact ⟨_, _, by rw [chars], by decide⟩
  | object members => exact ⟨_, _, by rw [chars], by decide⟩
  | unreadable => cases h

theorem chars_length_pos {j : Json} (h : j.isPlain = true) : 0 < j.chars.length := by
  obtain ⟨c, cs, hcons, -⟩ := exists_chars_eq_cons h
  simp [hcons]

theorem skipBlanks_quoted (s : String) (rest : List Char) :
    skipBlanks (quoted s ++ rest) = quoted s ++ rest :=
  skipBlanks_cons (by decide) _

/-- What starts like a number is read as one. -/
theorem readValue_of_number {c : Char} (h : c = '-' ∨ c.isDigit = true) (fuel : Nat)
    (cs : List Char) :
    readValue (fuel + 1) (c :: cs) =
      (readNumber (c :: cs)).map fun (n, rest) => (orUnreadable .number n, rest) := by
  rw [readValue, skipBlanks_cons (isHead_of_number h)]
  split
  case h_7 => rfl
  all_goals
    next heq =>
      cases heq
      exact absurd h (by decide)

variable {fuel : Nat}

/-- The elements of an array are read once its first one stands there. -/
theorem readValue_array {c : Char} (hc : IsHead c) (cs : List Char) :
    readValue (fuel + 1) ('[' :: c :: cs) =
      (readElements fuel (c :: cs)).map fun (es, rest) => (.array es, rest) := by
  have hopen : IsHead '[' := by decide
  rw [readValue]
  simp only [skipBlanks_cons hopen, skipBlanks_cons hc]
  split
  · next heq =>
    cases heq
    exact absurd rfl hc.2.2.2.2
  · rfl

/-- The members of an object are read once the name of its first one stands there. -/
theorem readValue_object (cs : List Char) :
    readValue (fuel + 1) ('{' :: '"' :: cs) =
      (readMembers fuel ('"' :: cs)).map fun (ms, rest) => (orUnreadable .object ms, rest) := by
  rw [readValue]
  rfl

section

variable {j : Json} {js : List Json} {ms : List (String × Json)} {cs after : List Char}

theorem readElements_last (h : readValue fuel cs = some (j, ']' :: rest)) :
    readElements (fuel + 1) cs = some ([j], rest) := by
  rw [readElements, h]
  rfl

theorem readElements_more (h : readValue fuel cs = some (j, ',' :: rest))
    (hmore : readElements fuel rest = some (js, after)) :
    readElements (fuel + 1) cs = some (j :: js, after) := by
  rw [readElements, h]
  change (readElements fuel rest).bind _ = _
  rw [hmore]
  rfl

theorem readMembers_last (key : String) (h : readValue fuel cs = some (j, '}' :: rest)) :
    readMembers (fuel + 1) (quoted key ++ ':' :: cs) = some (some [(key, j)], rest) := by
  rw [readMembers, skipBlanks_quoted, readString_quoted]
  change (readValue fuel cs).bind _ = _
  rw [h]
  rfl

theorem readMembers_more (key : String) (h : readValue fuel cs = some (j, ',' :: rest))
    (hmore : readMembers fuel rest = some (some ms, after)) :
    readMembers (fuel + 1) (quoted key ++ ':' :: cs) = some (some ((key, j) :: ms), after) := by
  rw [readMembers, skipBlanks_quoted, readString_quoted]
  change (readValue fuel cs).bind _ = _
  rw [h]
  change (readMembers fuel rest).bind _ = _
  rw [hmore]
  rfl

end

theorem elementChars_singleton (j : Json) : elementChars [j] = j.chars ++ [']'] := by
  simp [elementChars]

theorem elementChars_cons_cons (j k : Json) (es : List Json) :
    elementChars (j :: k :: es) = j.chars ++ ',' :: elementChars (k :: es) := by
  rw [elementChars]
  rfl

theorem memberChars_singleton (key : String) (j : Json) :
    memberChars [(key, j)] = quoted key ++ ':' :: (j.chars ++ ['}']) := by
  simp [memberChars]

theorem memberChars_cons_cons (key : String) (j : Json) (m : String × Json)
    (ms : List (String × Json)) :
    memberChars ((key, j) :: m :: ms) =
      quoted key ++ ':' :: (j.chars ++ ',' :: memberChars (m :: ms)) := by
  rw [memberChars]
  simp

mutual

/-- A plain value is read back in front of whatever ends it. -/
theorem readValue_chars : ∀ (j : Json), j.isPlain = true → ∀ (fuel : Nat) (rest : List Char),
    2 * j.chars.length ≤ fuel → Ends rest → readValue fuel (j.chars ++ rest) = some (j, rest)
  | j, h, 0, _, hfuel, _ => by
      have hpos := chars_length_pos h
      omega
  | .null, _, fuel + 1, rest, _, _ => by rw [chars, readValue]; rfl
  | .bool true, _, fuel + 1, rest, _, _ => by rw [chars, readValue]; rfl
  | .bool false, _, fuel + 1, rest, _, _ => by rw [chars, readValue]; rfl
  | .number (.integer n), h, fuel + 1, rest, _, hends => by
      simp only [isPlain, Bool.and_eq_true, decide_eq_true_eq] at h
      have hread := readNumber_int h.1 h.2 hends
      obtain ⟨c, cs, hcons, hc⟩ := exists_toString_eq_cons n
      rw [hcons, List.cons_append] at hread
      rw [chars, Number.chars, hcons, List.cons_append, readValue_of_number hc, hread]
      rfl
  | .string s, _, fuel + 1, rest, _, _ => by
      have hquoted : quoted s ++ rest = '"' :: ((quoted s).tail ++ rest) := rfl
      have hread := readString_quoted s rest
      rw [hquoted] at hread
      rw [chars, hquoted, readValue]
      simp only [skipBlanks_cons (show IsHead '"' by decide), hread]
      rfl
  | .array [], _, fuel + 1, rest, _, _ => by rw [chars, elementChars, readValue]; rfl
  | .array (j :: es), h, fuel + 1, rest, hfuel, _ => by
      simp only [isPlain] at h
      have hhead := exists_chars_eq_cons (Bool.and_eq_true_iff.mp h).1
      obtain ⟨c, cs, hcons, hc⟩ := hhead
      rw [chars, List.length_cons] at hfuel
      have hread := readElements_chars (j :: es) h (List.cons_ne_nil j es) fuel rest (by omega)
      have htext : elementChars (j :: es) ++ rest = c :: (elementChars (j :: es) ++ rest).tail := by
        rw [elementChars, hcons]
        rfl
      rw [htext] at hread
      rw [chars, List.cons_append, htext, readValue_array hc, hread]
      rfl
  | .object [], _, fuel + 1, rest, _, _ => by rw [chars, memberChars, readValue]; rfl
  | .object ((key, j) :: ms), h, fuel + 1, rest, hfuel, _ => by
      simp only [isPlain] at h
      rw [chars, List.length_cons] at hfuel
      have hread := readMembers_chars ((key, j) :: ms) h (List.cons_ne_nil _ ms) fuel rest
        (by omega)
      have htext : memberChars ((key, j) :: ms) ++ rest =
          '"' :: (memberChars ((key, j) :: ms) ++ rest).tail := by
        rw [memberChars]
        rfl
      rw [htext] at hread
      rw [chars, List.cons_append, htext, readValue_object, hread]
      rfl

theorem readElements_chars : ∀ (es : List Json), elementsPlain es = true → es ≠ [] →
    ∀ (fuel : Nat) (rest : List Char), 2 * (elementChars es).length ≤ fuel →
      readElements fuel (elementChars es ++ rest) = some (es, rest)
  | [], _, hne, _, _, _ => absurd rfl hne
  | j :: es, h, _, 0, _, hfuel => by
      have hpos := chars_length_pos (Bool.and_eq_true_iff.mp h).1
      rw [elementChars, List.length_append] at hfuel
      omega
  | [j], h, _, fuel + 1, rest, hfuel => by
      have hj := (Bool.and_eq_true_iff.mp h).1
      rw [elementChars_singleton, List.length_append, List.length_singleton] at hfuel
      have hread := readValue_chars j hj fuel (']' :: rest) (by omega)
        (ends_cons (Or.inr (Or.inl rfl)) rest)
      rw [elementChars_singleton, List.append_assoc, List.singleton_append]
      exact readElements_last hread
  | j :: k :: es, h, _, fuel + 1, rest, hfuel => by
      obtain ⟨hj, hes⟩ := Bool.and_eq_true_iff.mp h
      rw [elementChars_cons_cons, List.length_append, List.length_cons] at hfuel
      have hread := readValue_chars j hj fuel (',' :: (elementChars (k :: es) ++ rest)) (by omega)
        (ends_cons (Or.inl rfl) _)
      have hmore := readElements_chars (k :: es) hes (List.cons_ne_nil k es) fuel rest (by omega)
      rw [elementChars_cons_cons, List.append_assoc, List.cons_append]
      exact readElements_more hread hmore

theorem readMembers_chars : ∀ (ms : List (String × Json)), membersPlain ms = true → ms ≠ [] →
    ∀ (fuel : Nat) (rest : List Char), 2 * (memberChars ms).length ≤ fuel →
      readMembers fuel (memberChars ms ++ rest) = some (some ms, rest)
  | [], _, hne, _, _, _ => absurd rfl hne
  | (key, j) :: ms, h, _, 0, _, hfuel => by
      have hpos := chars_length_pos (Bool.and_eq_true_iff.mp h).1
      rw [memberChars, List.length_append, List.length_append, List.length_cons] at hfuel
      omega
  | [(key, j)], h, _, fuel + 1, rest, hfuel => by
      have hj := (Bool.and_eq_true_iff.mp h).1
      rw [memberChars_singleton, List.length_append, List.length_cons, List.length_append] at hfuel
      have hread := readValue_chars j hj fuel ('}' :: rest) (by omega)
        (ends_cons (Or.inr (Or.inr rfl)) rest)
      rw [memberChars_singleton, List.append_assoc, List.cons_append, List.append_assoc,
        List.singleton_append]
      exact readMembers_last key hread
  | (key, j) :: m :: ms, h, _, fuel + 1, rest, hfuel => by
      obtain ⟨hj, hms⟩ := Bool.and_eq_true_iff.mp h
      rw [memberChars_cons_cons, List.length_append, List.length_cons, List.length_append,
        List.length_cons] at hfuel
      have hread := readValue_chars j hj fuel (',' :: (memberChars (m :: ms) ++ rest)) (by omega)
        (ends_cons (Or.inl rfl) _)
      have hmore := readMembers_chars (m :: ms) hms (List.cons_ne_nil m ms) fuel rest (by omega)
      rw [memberChars_cons_cons, List.append_assoc, List.cons_append, List.append_assoc,
        List.cons_append]
      exact readMembers_more key hread hmore

end

mutual

/-- Nothing in a plain value is unreadable. -/
theorem isReadable_of_isPlain : ∀ j : Json, j.isPlain = true → j.isReadable = true
  | .null, _ | .bool _, _ | .number _, _ | .string _, _ => by rw [isReadable] <;> simp
  | .array elements, h => elementsReadable_of_plain elements h
  | .object members, h => membersReadable_of_plain members h

theorem elementsReadable_of_plain : ∀ es : List Json,
    elementsPlain es = true → elementsReadable es = true
  | [], _ => rfl
  | j :: rest, h => by
      obtain ⟨hj, hrest⟩ := Bool.and_eq_true_iff.mp h
      exact Bool.and_eq_true_iff.mpr
        ⟨isReadable_of_isPlain j hj, elementsReadable_of_plain rest hrest⟩

theorem membersReadable_of_plain : ∀ ms : List (String × Json),
    membersPlain ms = true → membersReadable ms = true
  | [], _ => rfl
  | (_, j) :: rest, h => by
      obtain ⟨hj, hrest⟩ := Bool.and_eq_true_iff.mp h
      exact Bool.and_eq_true_iff.mpr
        ⟨isReadable_of_isPlain j hj, membersReadable_of_plain rest hrest⟩

end

/-! ## Texts -/

/-- A plain value is read back from its text up to the limit of nesting. -/
theorem read?_text {j : Json} (h : j.isPlain = true) :
    read? j.text = some (j.limited nestingLimit) := by
  have hread := readValue_chars j h (2 * j.chars.length + 2) [] (by omega) ends_nil
  rw [List.append_nil] at hread
  rw [read?, text, String.toList_ofList]
  simp only [hread]
  rfl

mutual

/-- How deeply arrays and objects are nested. -/
def nesting : Json → Nat
  | .array elements => elementNesting elements + 1
  | .object members => memberNesting members + 1
  | _ => 0

/-- How deeply they are nested in some elements. -/
def elementNesting : List Json → Nat
  | [] => 0
  | j :: rest => max j.nesting (elementNesting rest)

/-- How deeply they are nested in the values of some members. -/
def memberNesting : List (String × Json) → Nat
  | [] => 0
  | (_, j) :: rest => max j.nesting (memberNesting rest)

end

mutual

/-- A limit takes nothing away from what is not nested more deeply. -/
theorem limited_of_nesting_le : ∀ (j : Json) {limit : Nat}, j.nesting ≤ limit → j.limited limit = j
  | .array elements, limit, h => by
      rw [nesting] at h
      obtain ⟨limit, rfl⟩ : ∃ k, limit = k + 1 := ⟨limit - 1, by omega⟩
      rw [limited, limitedElements_of_nesting_le elements (by omega)]
  | .object members, limit, h => by
      rw [nesting] at h
      obtain ⟨limit, rfl⟩ : ∃ k, limit = k + 1 := ⟨limit - 1, by omega⟩
      rw [limited, limitedMembers_of_nesting_le members (by omega)]
  | .null, _, _ | .bool _, _, _ | .number _, _, _ | .string _, _, _ | .unreadable, _, _ => by
      rw [limited] <;> simp

theorem limitedElements_of_nesting_le : ∀ (es : List Json) {limit : Nat},
    elementNesting es ≤ limit → limitedElements limit es = es
  | [], _, _ => by rw [limitedElements]
  | j :: rest, _, h => by
      rw [elementNesting] at h
      rw [limitedElements, limited_of_nesting_le j (by omega),
        limitedElements_of_nesting_le rest (by omega)]

theorem limitedMembers_of_nesting_le : ∀ (ms : List (String × Json)) {limit : Nat},
    memberNesting ms ≤ limit → limitedMembers limit ms = ms
  | [], _, _ => by rw [limitedMembers]
  | (key, j) :: rest, _, h => by
      rw [memberNesting] at h
      rw [limitedMembers, limited_of_nesting_le j (by omega),
        limitedMembers_of_nesting_le rest (by omega)]

end

/-- A plain value that is nested within the limit is read back from its text. -/
theorem read?_text_of_nesting_le {j : Json} (h : j.isPlain = true)
    (hnesting : j.nesting ≤ nestingLimit) : read? j.text = some j := by
  rw [read?_text h, limited_of_nesting_le j hnesting]

end TestWriter.Json
