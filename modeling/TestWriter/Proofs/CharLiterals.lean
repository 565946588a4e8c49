import TestWriter.Proofs.Literals

/-!
# Character literals of the JVM

A character of the JVM is one code unit of sixteen bits, and a literal of it holds one code unit or
one escape between single quotes.  Main statement: what is written for a character is read, and as
this character, exactly when the character is a single code unit; of a pair nothing is read.
-/

namespace TestWriter

namespace Text

/-- The code units of a character: its number, or a pair of surrogates. -/
def codeUnits (c : Char) : List Nat :=
  if c.toNat < 0x10000 then [c.toNat]
  else [0xd800 + (c.toNat - 0x10000) / 0x400, 0xdc00 + (c.toNat - 0x10000) % 0x400]

/-- The code units of a text. -/
def unitsOf (s : String) : List Nat := s.toList.flatMap codeUnits

/-- A character is a single code unit. -/
def IsSingleUnit (c : Char) : Prop := c.toNat < 0x10000

instance (c : Char) : Decidable (IsSingleUnit c) := inferInstanceAs (Decidable (_ < _))

theorem codeUnits_of_isSingleUnit {c : Char} (h : IsSingleUnit c) : codeUnits c = [c.toNat] :=
  if_pos h

end Text

namespace CharLiteral

open Text Text.Quoted

/-! ## The reader -/

/-- The code unit that four hexadecimal digits stand for. -/
def hexUnit? (a b c d : Nat) : Option Nat := do
  let digit? := fun u => hexValue? (Char.ofNat u)
  return (← digit? a) * 4096 + (← digit? b) * 256 + (← digit? c) * 16 + (← digit? d)

/-- What Java reads after it has replaced the escapes by number, which come before anything else: a
backslash, the letter `u` and four digits.  A backslash after a backslash starts no escape. -/
def resolve? : List Nat → Option (List Nat)
  | [] => some []
  | 0x5c :: 0x75 :: a :: b :: c :: d :: rest => do
    return (← hexUnit? a b c d) :: (← resolve? rest)
  | 0x5c :: u :: rest => do
    if u = 0x75 then none else return 0x5c :: u :: (← resolve? rest)
  | u :: rest => do return u :: (← resolve? rest)

/-- The code unit between two single quotes: one that is no quote, backslash or line break, or one
that an escape of a single letter stands for. -/
def quoted? (escapes : List (Char × Char)) : List Nat → Option Nat
  | [0x27, u, 0x27] => if u ∈ [0x27, 0x5c, 0x0a, 0x0d] then none else some u
  | [0x27, 0x5c, u, 0x27] => (escapes.lookup (Char.ofNat u)).map Char.toNat
  | _ => none

/-- The escapes of both languages. -/
def sharedEscapes : List (Char × Char) :=
  [('b', Char.ofNat 0x08), ('t', '\t'), ('n', '\n'), ('r', '\r'), ('"', '"'), ('\'', '\''),
   ('\\', '\\')]

/-- The code unit that a language of the JVM reads a literal as.  The octal escapes of Java, which
nobody writes here, are left out; the other languages have no characters of one code unit. -/
def read? : Language → List Nat → Option Nat
  | .java, units =>
    (resolve? units).bind (quoted? (('s', ' ') :: ('f', Char.ofNat 0x0c) :: sharedEscapes))
  | .kotlin, [0x27, 0x5c, 0x75, a, b, c, d, 0x27] => hexUnit? a b c d
  | .kotlin, units => quoted? (('$', '$') :: sharedEscapes) units
  | .javascript, _ | .python, _ | .go, _ => none

/-! ## What is read of a literal -/

theorem hexUnit?_hex4 {n : Nat} (h : n < 0x10000) :
    ∃ a b c d, hex4 n = [a, b, c, d] ∧
      (hex4 n).flatMap codeUnits = [a.toNat, b.toNat, c.toNat, d.toNat] ∧
      hexUnit? a.toNat b.toNat c.toNat d.toNat = some n := by
  have hlt : ∀ k : Nat, k % 16 < 16 := fun k => Nat.mod_lt k (by decide)
  have hsingle : ∀ k : Nat, codeUnits (hexDigit (k % 16)) = [(hexDigit (k % 16)).toNat] := by
    have hall : ∀ m : Fin 16, codeUnits (hexDigit m) = [(hexDigit m).toNat] := by decide
    exact fun k => hall ⟨k % 16, hlt k⟩
  have hdigits : n / 4096 % 16 * 4096 + n / 256 % 16 * 256 + n / 16 % 16 * 16 + n % 16 = n := by
    omega
  refine ⟨_, _, _, _, rfl, ?_, ?_⟩
  · simp [hex4, hsingle]
  · simp [hexUnit?, hexValue?_hexDigit, hlt, hdigits]

theorem resolve?_cons {u : Nat} (hu : u ≠ 0x5c) (rest : List Nat) :
    resolve? (u :: rest) = (resolve? rest).map (u :: ·) := by
  rw [resolve?]
  · cases resolve? rest <;> rfl
  · rintro a b c d tail rfl
    exact absurd rfl hu
  · rintro u tail rfl
    exact absurd rfl hu

/-- An escape by number is read as the unit that it stands for. -/
theorem resolve?_hex4 {n : Nat} (h : n < 0x10000) (rest : List Nat) :
    resolve? (0x5c :: 0x75 :: (hex4 n).flatMap codeUnits ++ rest) =
      (resolve? rest).map (n :: ·) := by
  obtain ⟨a, b, c, d, -, hunits, hread⟩ := hexUnit?_hex4 h
  rw [hunits]
  change resolve? (0x5c :: 0x75 :: a.toNat :: b.toNat :: c.toNat :: d.toNat :: rest) = _
  rw [resolve?, hread]
  cases resolve? rest <;> rfl

variable {c : Char}

/-- The literal of a character, in code units. -/
theorem unitsOf_quoteChar (c : Char) :
    unitsOf (Target.Java.quoteChar c) =
      0x27 :: (escapeChar ['\''] c).flatMap codeUnits ++ [0x27] := by
  have hlist : (Target.Java.quoteChar c).toList = '\'' :: escapeChar ['\''] c ++ ['\''] := by
    simp [Target.Java.quoteChar, literal, escape]
  rw [unitsOf, hlist, List.flatMap_append]
  rfl

/-- A unit between quotes that is none of those that end a literal or start an escape is read. -/
theorem read?_single {language : Language} (hjvm : language.isJvm = true) {u : Nat}
    (hu : u ∉ [0x27, 0x5c, 0x0a, 0x0d]) : read? language [0x27, u, 0x27] = some u := by
  have hslash : u ≠ 0x5c := fun h => hu (by simp [h])
  have hresolve : resolve? [0x27, u, 0x27] = some [0x27, u, 0x27] := by
    rw [resolve?_cons (by decide), resolve?_cons hslash, resolve?_cons (by decide)]
    rfl
  cases language with
  | java => simp [read?, hresolve, quoted?, hu]
  | kotlin => simp [read?, quoted?, hu]
  | javascript | python | go => cases hjvm

/-- Between the quotes of a pair nothing is read. -/
theorem read?_pair (language : Language) {u v : Nat} (hu : u ≠ 0x5c) (hv : v ≠ 0x5c) :
    read? language [0x27, u, v, 0x27] = none := by
  have hresolve : resolve? [0x27, u, v, 0x27] = some [0x27, u, v, 0x27] := by
    rw [resolve?_cons (by decide), resolve?_cons hu, resolve?_cons hv, resolve?_cons (by decide)]
    rfl
  cases language with
  | java => simp [read?, hresolve, quoted?, hu]
  | kotlin => simp [read?, quoted?, hu]
  | javascript | python | go => rfl

/-- A control character is read from its number. -/
theorem read?_hex4 {language : Language} (hjvm : language.isJvm = true) {n : Nat}
    (h : n < 0x10000) (hn : n ∉ [0x27, 0x5c, 0x0a, 0x0d]) :
    read? language (0x27 :: 0x5c :: 0x75 :: (hex4 n).flatMap codeUnits ++ [0x27]) = some n := by
  cases language with
  | java =>
      have hresolve : resolve? (0x27 :: 0x5c :: 0x75 :: (hex4 n).flatMap codeUnits ++ [0x27]) =
          some [0x27, n, 0x27] := by
        change resolve? (0x27 :: (0x5c :: 0x75 :: (hex4 n).flatMap codeUnits ++ [0x27])) = _
        rw [resolve?_cons (by decide), resolve?_hex4 h, resolve?_cons (by decide)]
        rfl
      rw [read?, hresolve]
      simp [quoted?, hn]
  | kotlin =>
      obtain ⟨a, b, c, d, -, hunits, hread⟩ := hexUnit?_hex4 h
      rw [hunits]
      exact hread
  | javascript | python | go => cases hjvm

/-- The literal of a character is read as the character, unless that takes two code units: then it
is no literal at all. -/
theorem read?_quoteChar {language : Language} (hjvm : language.isJvm = true) (c : Char) :
    read? language (unitsOf (Target.Java.quoteChar c)) =
      if IsSingleUnit c then some c.toNat else none := by
  by_cases hshort : c ∈ ['\\', '\n', '\r', '\t', '\'']
  · simp only [List.mem_cons, List.not_mem_nil, or_false] at hshort
    rcases hshort with rfl | rfl | rfl | rfl | rfl <;>
      cases language <;> first | decide | cases hjvm
  simp only [List.mem_cons, List.not_mem_nil, or_false, not_or] at hshort
  obtain ⟨hslash, hfeed, hreturn, htab, hquote⟩ := hshort
  have hunit : c.toNat ∉ [0x27, 0x5c, 0x0a, 0x0d] := by
    intro h
    simp only [List.mem_cons, List.not_mem_nil, or_false] at h
    rcases h with h | h | h | h
    · exact hquote (Char.toNat_inj.mp h)
    · exact hslash (Char.toNat_inj.mp h)
    · exact hfeed (Char.toNat_inj.mp h)
    · exact hreturn (Char.toNat_inj.mp h)
  rw [unitsOf_quoteChar]
  by_cases hcontrol : isControl c = true
  · have hsmall : IsSingleUnit c := by
      simp only [IsSingleUnit]
      simp only [isControl, Bool.or_eq_true, decide_eq_true_eq, Bool.and_eq_true] at hcontrol
      omega
    have hwritten : escapeChar ['\''] c = '\\' :: 'u' :: hex4 c.toNat := by
      simp [escapeChar, hslash, hfeed, hreturn, htab, hquote, hcontrol]
    rw [hwritten, if_pos hsmall]
    exact read?_hex4 hjvm hsmall hunit
  · have hwritten : escapeChar ['\''] c = [c] := by
      simp [escapeChar, hslash, hfeed, hreturn, htab, hquote, hcontrol]
    rw [hwritten, List.flatMap_singleton]
    by_cases hsingle : IsSingleUnit c
    · rw [if_pos hsingle, codeUnits_of_isSingleUnit hsingle]
      exact read?_single hjvm hunit
    · -- The two surrogates are no backslashes, so no escape starts there.
      have hpair : codeUnits c = [0xd800 + (c.toNat - 0x10000) / 0x400,
          0xdc00 + (c.toNat - 0x10000) % 0x400] := if_neg hsingle
      rw [if_neg hsingle, hpair]
      exact read?_pair language (by omega) (by omega)

end CharLiteral

end TestWriter
