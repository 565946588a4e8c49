import TestWriter.Target.Render

/-!
# Reading literals

The escapes of the target languages, as a reader of the text between two quotes that keeps apart the
characters that stand for themselves and those that an escape stands for.  Main statement: in every
language, what is read back from the literal of a text is the text, no character of the literal is a
control character, and what would end the literal or start a template is escaped.
-/

namespace TestWriter

/-- The characters that a language escapes by a backslash before them: the quote, and for Kotlin the
start of a template. -/
def Language.marks : Language → List Char
  | .kotlin => ['"', '$']
  | .java | .javascript | .python | .go => ['"']

namespace Text.Quoted

/-! ## Hexadecimal digits -/

/-- The number that a hexadecimal digit stands for. -/
def hexValue? (c : Char) : Option Nat :=
  if '0' ≤ c ∧ c ≤ '9' then some (c.toNat - 48)
  else if 'a' ≤ c ∧ c ≤ 'f' then some (c.toNat - 87)
  else if 'A' ≤ c ∧ c ≤ 'F' then some (c.toNat - 55)
  else none

/-- The character with the number that four hexadecimal digits stand for. -/
def hexChar? (a b c d : Char) : Option Char := do
  let n := ((← hexValue? a) * 4096) + ((← hexValue? b) * 256) + ((← hexValue? c) * 16) +
    (← hexValue? d)
  if n.isValidChar then return Char.ofNat n else none

theorem hexValue?_hexDigit {n : Nat} (h : n < 16) : hexValue? (hexDigit n) = some n := by
  have hall : ∀ m : Fin 16, hexValue? (hexDigit m) = some m.val := by decide
  exact hall ⟨n, h⟩

theorem isControl_hexDigit {n : Nat} (h : n < 16) : isControl (hexDigit n) = false := by
  have hall : ∀ m : Fin 16, isControl (hexDigit m) = false := by decide
  exact hall ⟨n, h⟩

/-- A character below 65536 is read back from its four digits. -/
theorem hexChar?_hex4 {c : Char} (h : c.toNat < 65536) :
    ∃ x₁ x₂ x₃ x₄, hex4 c.toNat = [x₁, x₂, x₃, x₄] ∧ hexChar? x₁ x₂ x₃ x₄ = some c := by
  refine ⟨_, _, _, _, rfl, ?_⟩
  have hdigits : c.toNat / 4096 % 16 * 4096 + c.toNat / 256 % 16 * 256 + c.toNat / 16 % 16 * 16 +
      c.toNat % 16 = c.toNat := by omega
  have hvalid : c.toNat.isValidChar := c.valid
  simp [hexChar?, hexValue?_hexDigit, Nat.mod_lt, hdigits, hvalid]

theorem isControl_of_mem_hex4 {n : Nat} {x : Char} (hx : x ∈ hex4 n) : isControl x = false := by
  have hlt : ∀ k : Nat, k % 16 < 16 := fun k => Nat.mod_lt k (by decide)
  simp only [hex4, List.mem_cons, List.not_mem_nil, or_false] at hx
  rcases hx with rfl | rfl | rfl | rfl <;> exact isControl_hexDigit (hlt _)

/-! ## The reader -/

/-- A character of a literal, as it is written. -/
inductive Glyph
  /-- A character that stands for itself. -/
  | plain (c : Char)
  /-- An escape, with the character that it stands for. -/
  | escaped (c : Char)
  deriving DecidableEq, Repr

/-- The character that is meant. -/
def Glyph.char : Glyph → Char
  | .plain c | .escaped c => c

/-- The character that a backslash and one more character stand for. -/
def escapeOf? (marked : List Char) (c : Char) : Option Char :=
  if c = '\\' then some '\\'
  else if c = 'n' then some '\n'
  else if c = 'r' then some '\r'
  else if c = 't' then some '\t'
  else if c ∈ marked then some c
  else none

/-- Read the text between two quotes; a backslash that starts no escape is refused. -/
def read? (marked : List Char) : List Char → Option (List Glyph)
  | [] => some []
  | '\\' :: 'u' :: a :: b :: c :: d :: rest => do
    let x ← hexChar? a b c d
    let glyphs ← read? marked rest
    return .escaped x :: glyphs
  | '\\' :: c :: rest => do
    let x ← escapeOf? marked c
    let glyphs ← read? marked rest
    return .escaped x :: glyphs
  | c :: rest => do
    if c = '\\' then none
    else
      let glyphs ← read? marked rest
      return .plain c :: glyphs

/-- How a character is written in a literal. -/
def glyph (marked : List Char) (c : Char) : Glyph :=
  if escapeChar marked c = [c] then .plain c else .escaped c

theorem char_glyph (marked : List Char) (c : Char) : (glyph marked c).char = c := by
  unfold glyph
  split <;> rfl

variable {marked : List Char}

theorem read?_plain {c : Char} (hc : c ≠ '\\') (rest : List Char) :
    read? marked (c :: rest) = (read? marked rest).map (.plain c :: ·) := by
  rw [read?]
  · rw [if_neg hc]
    cases read? marked rest <;> rfl
  · rintro a b c' d rest' rfl -
    exact hc rfl
  · rintro c' rest' rfl -
    exact hc rfl

theorem read?_escapeOf {c x : Char} (hu : c ≠ 'u') (hx : escapeOf? marked c = some x)
    (rest : List Char) :
    read? marked ('\\' :: c :: rest) = (read? marked rest).map (.escaped x :: ·) := by
  rw [read?]
  · rw [hx]
    cases read? marked rest <;> rfl
  · rintro a b c' d rest' rfl -
    exact hu rfl

theorem read?_hex4 {c : Char} (hc : c.toNat < 65536) (rest : List Char) :
    read? marked ('\\' :: 'u' :: hex4 c.toNat ++ rest) =
      (read? marked rest).map (.escaped c :: ·) := by
  obtain ⟨x₁, x₂, x₃, x₄, hhex, hread⟩ := hexChar?_hex4 hc
  rw [hhex]
  change read? marked ('\\' :: 'u' :: x₁ :: x₂ :: x₃ :: x₄ :: rest) = _
  rw [read?, hread]
  cases read? marked rest <;> rfl

/-- What is written for a character is read back as one glyph; the marked characters are no letters
of other escapes. -/
theorem read?_escapeChar (hmarked : ∀ m ∈ marked, m ∉ ['n', 'r', 't', 'u']) (c : Char)
    (rest : List Char) :
    read? marked (escapeChar marked c ++ rest) =
      (read? marked rest).map (glyph marked c :: ·) := by
  by_cases hslash : c = '\\'
  · subst hslash
    exact read?_escapeOf (by decide) rfl rest
  by_cases hfeed : c = '\n'
  · subst hfeed
    exact read?_escapeOf (by decide) rfl rest
  by_cases hreturn : c = '\r'
  · subst hreturn
    exact read?_escapeOf (by decide) rfl rest
  by_cases htab : c = '\t'
  · subst htab
    exact read?_escapeOf (by decide) rfl rest
  by_cases hmark : c ∈ marked
  · have hwritten : escapeChar marked c = ['\\', c] := by
      simp [escapeChar, hslash, hfeed, hreturn, htab, hmark]
    have hletters := hmarked c hmark
    simp only [List.mem_cons, List.not_mem_nil, or_false, not_or] at hletters
    have hescape : escapeOf? marked c = some c := by
      simp [escapeOf?, hslash, hletters, hmark]
    have hglyph : glyph marked c = .escaped c := by simp [glyph, hwritten]
    rw [hwritten, hglyph]
    exact read?_escapeOf hletters.2.2.2 hescape rest
  by_cases hcontrol : isControl c = true
  · have hwritten : escapeChar marked c = '\\' :: 'u' :: hex4 c.toNat := by
      simp [escapeChar, hslash, hfeed, hreturn, htab, hmark, hcontrol]
    have hsmall : c.toNat < 65536 := by
      simp only [isControl, Bool.or_eq_true, decide_eq_true_eq, Bool.and_eq_true] at hcontrol
      omega
    have hglyph : glyph marked c = .escaped c := by simp [glyph, hwritten]
    rw [hwritten, hglyph]
    exact read?_hex4 hsmall rest
  · have hwritten : escapeChar marked c = [c] := by
      simp [escapeChar, hslash, hfeed, hreturn, htab, hmark, hcontrol]
    have hglyph : glyph marked c = .plain c := by simp [glyph, hwritten]
    rw [hwritten, hglyph]
    exact read?_plain hslash rest

/-- The reader gives back what was written, glyph by glyph. -/
theorem read?_escape (hmarked : ∀ m ∈ marked, m ∉ ['n', 'r', 't', 'u']) (cs : List Char) :
    read? marked (escape marked cs) = some (cs.map (glyph marked)) := by
  induction cs with
  | nil => rw [escape, List.flatMap_nil, read?, List.map_nil]
  | cons c cs ih =>
      rw [escape, List.flatMap_cons, read?_escapeChar hmarked]
      rw [escape] at ih
      rw [ih, Option.map_some, List.map_cons]

/-- Control characters are always written as escapes, and escapes consist of other characters. -/
theorem not_isControl_of_mem_escapeChar (hmarks : ∀ m ∈ marked, isControl m = false) (c : Char) :
    ∀ x ∈ escapeChar marked c, isControl x = false := by
  have hpair : ∀ m, isControl m = false → ∀ x ∈ ['\\', m], isControl x = false :=
    fun m hm => List.forall_mem_cons.mpr ⟨rfl, List.forall_mem_singleton.mpr hm⟩
  unfold escapeChar
  split
  · exact hpair '\\' rfl
  split
  · exact hpair 'n' rfl
  split
  · exact hpair 'r' rfl
  split
  · exact hpair 't' rfl
  split
  · next hmark => exact hpair c (hmarks c hmark)
  split
  · refine List.forall_mem_cons.mpr ⟨rfl, List.forall_mem_cons.mpr ⟨rfl, fun x hx => ?_⟩⟩
    exact isControl_of_mem_hex4 hx
  · next hcontrol => exact List.forall_mem_singleton.mpr (Bool.eq_false_iff.mpr hcontrol)

/-- A marked character never stands for itself. -/
theorem glyph_ne_plain_of_mem {m : Char} (hm : m ∈ marked) (c : Char) :
    glyph marked c ≠ .plain m := by
  intro h
  unfold glyph at h
  split at h
  · next hself =>
    cases h
    unfold escapeChar at hself
    rw [if_pos hm] at hself
    split at hself
    · simp at hself
    split at hself
    · simp at hself
    split at hself
    · simp at hself
    split at hself <;> simp at hself
  · cases h

/-- A second pass over finished text that writes a backslash before each dollar sign. -/
def escapeDollars (cs : List Char) : List Char :=
  cs.flatMap fun c => if c = '$' then ['\\', '$'] else [c]

theorem escapeDollars_of_notMem {cs : List Char} (h : '$' ∉ cs) : escapeDollars cs = cs := by
  induction cs with
  | nil => rfl
  | cons c rest ih =>
      obtain ⟨hc, hrest⟩ := not_or.mp (mt List.mem_cons.mpr h)
      rw [escapeDollars, List.flatMap_cons, if_neg (Ne.symm hc)]
      exact congrArg (c :: ·) (ih hrest)

theorem dollar_notMem_escapeChar {c : Char} (hc : c ≠ '$') : '$' ∉ escapeChar ['"'] c := by
  have hdigit : ∀ m : Fin 16, '$' ≠ hexDigit m := by decide
  have hhex : ∀ n, '$' ∉ hex4 n := by
    intro n
    have hlt : ∀ k : Nat, '$' ≠ hexDigit (k % 16) := fun k =>
      hdigit ⟨k % 16, Nat.mod_lt k (by decide)⟩
    simp [hex4, hlt]
  unfold escapeChar
  split
  · decide
  split
  · decide
  split
  · decide
  split
  · decide
  split
  · simpa using hc.symm
  split
  · simp [hhex]
  · simpa using hc.symm

/-- What Kotlin writes is what the other languages write after the second pass, which meets no
dollar sign inside an escape. -/
theorem escape_marks_kotlin (cs : List Char) :
    escape Language.kotlin.marks cs = escapeDollars (escape Language.java.marks cs) := by
  rw [escape, escapeDollars, escape, List.flatMap_assoc]
  refine congrArg (List.flatMap · cs) (funext fun c => ?_)
  change escapeChar ['"', '$'] c = escapeDollars (escapeChar ['"'] c)
  by_cases hc : c = '$'
  · subst hc
    rfl
  · rw [escapeDollars_of_notMem (dollar_notMem_escapeChar hc)]
    simp [escapeChar, hc]

/-- A literal reads as a text: it stands between double quotes, the reader takes all that is between
them for the text, and no marked character stands for itself. -/
def ReadsAs (marked : List Char) (literal text : String) : Prop :=
  ∃ body glyphs, literal = String.ofList ('"' :: body ++ ['"']) ∧
    read? marked body = some glyphs ∧ (∀ c ∈ marked, Glyph.plain c ∉ glyphs) ∧
    glyphs.map Glyph.char = text.toList

theorem readsAs_literal (hmarked : ∀ m ∈ marked, m ∉ ['n', 'r', 't', 'u']) (text : String) :
    ReadsAs marked (literal '"' marked text) text := by
  refine ⟨escape marked text.toList, text.toList.map (glyph marked), rfl,
    read?_escape hmarked _, ?_, ?_⟩
  · intro c hc hmem
    obtain ⟨x, -, hx⟩ := List.mem_map.mp hmem
    exact glyph_ne_plain_of_mem hc x hx
  · simp [Function.comp_def, char_glyph]

theorem not_isControl_of_mem_literal (hmarks : ∀ m ∈ marked, isControl m = false) {text : String}
    {c : Char} (hc : c ∈ (literal '"' marked text).toList) : isControl c = false := by
  rw [literal, String.toList_ofList] at hc
  simp only [List.cons_append, List.mem_cons, List.mem_append, List.not_mem_nil, or_false] at hc
  rcases hc with rfl | hc | rfl
  · rfl
  · obtain ⟨x, -, hc⟩ := List.mem_flatMap.mp hc
    exact not_isControl_of_mem_escapeChar hmarks x c hc
  · rfl

end Text.Quoted

open Text Text.Quoted

/-- The marks of a language are no control characters and no letters of escapes. -/
theorem Language.marks_spec (l : Language) :
    ∀ m ∈ l.marks, isControl m = false ∧ m ∉ ['n', 'r', 't', 'u'] := by
  have hquote : isControl '"' = false ∧ '"' ∉ ['n', 'r', 't', 'u'] := ⟨rfl, by simp⟩
  have hdollar : isControl '$' = false ∧ '$' ∉ ['n', 'r', 't', 'u'] := ⟨rfl, by simp⟩
  cases l with
  | kotlin => exact List.forall_mem_cons.mpr ⟨hquote, List.forall_mem_singleton.mpr hdollar⟩
  | _ => exact List.forall_mem_singleton.mpr hquote

namespace Target.Surroundings

theorem quote_eq (s : Surroundings) (text : String) :
    s.methodForms.dialect.quote text = literal '"' s.settings.language.marks text := by
  unfold Surroundings.methodForms
  cases s.settings.language <;> rfl

/-- The literal of a text has no control characters in it and begins and ends with a double quote.
The text between the quotes reads as the text that was written, and no quote in it, nor for Kotlin a
dollar sign, stands without a backslash. -/
theorem quote_reads_back (s : Surroundings) (text : String) :
    (∀ c ∈ (s.methodForms.dialect.quote text).toList, isControl c = false) ∧
      ReadsAs s.settings.language.marks (s.methodForms.dialect.quote text) text := by
  have hmarks := s.settings.language.marks_spec
  rw [s.quote_eq]
  exact ⟨fun c hc => not_isControl_of_mem_literal (fun m hm => (hmarks m hm).1) hc,
    readsAs_literal (fun m hm => (hmarks m hm).2) text⟩

end Target.Surroundings

end TestWriter
