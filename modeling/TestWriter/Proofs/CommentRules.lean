import TestWriter.Language
import TestWriter.Text.Quoted

/-!
# Where comments end

The rules by which languages end a comment, as readers that take a text character by character and
stop with the comment.  Escapes for whole characters, which Java replaces before it reads anything
else, are read as they are written.  Main statements: how a text can be read in parts, which texts
may stand between slashes with stars, and that a text whose quotes are escaped in threes never ends
the quotes around it.
-/

namespace TestWriter

/-- Whether a character ends a line of code. -/
def Language.endsLine (l : Language) (c : Char) : Bool :=
  c = '\n' || (c = '\r' && l ≠ .go) || ((c = '\u2028' || c = '\u2029') && l = .javascript)

/-- Whether comments with stars count the ones inside of them. -/
def Language.nestsComments (l : Language) : Bool := l = .kotlin

namespace Text

/-! ## Reading in parts -/

section

variable {σ : Type} {step : σ → Char → Option σ}

/-- The text behind the character with which a reader stops, if it does. -/
def behind (step : σ → Char → Option σ) : σ → List Char → Option (List Char)
  | _, [] => none
  | s, c :: rest =>
    match step s c with
    | none => some rest
    | some s' => behind step s' rest

/-- A reader that does not stop in the first part goes on with the second. -/
theorem behind_append {s s' : σ} {cs : List Char} (h : cs.foldlM step s = some s')
    (rest : List Char) : behind step s (cs ++ rest) = behind step s' rest := by
  induction cs generalizing s with
  | nil =>
      cases h
      rfl
  | cons c cs ih =>
      cases hc : step s c with
      | none => simp [List.foldlM_cons, hc] at h
      | some next =>
          simp only [List.foldlM_cons, hc, Option.bind_eq_bind, Option.bind_some] at h
          simp only [List.cons_append, behind, hc]
          exact ih h

/-- A reader that stops in the first part leaves all of the second. -/
theorem exists_behind_append {s : σ} {cs : List Char} (h : cs.foldlM step s = none)
    (rest : List Char) : ∃ left, behind step s (cs ++ rest) = some (left ++ rest) := by
  induction cs generalizing s with
  | nil => cases h
  | cons c cs ih =>
      simp only [List.cons_append, behind]
      cases hc : step s c with
      | none => exact ⟨cs, rfl⟩
      | some next =>
          simp only [List.foldlM_cons, hc, Option.bind_eq_bind, Option.bind_some] at h
          exact ih h

end

/-! ## Lines -/

/-- Of a line with its end, only the end is left behind a comment if nothing before it ends a
line. -/
theorem dropWhile_line_iff {l : Language} {cs : List Char} :
    (cs ++ ['\n']).dropWhile (fun c => !l.endsLine c) = ['\n'] ↔
      ∀ c ∈ cs, l.endsLine c = false := by
  induction cs with
  | nil => simp [Language.endsLine]
  | cons c cs ih =>
      cases hc : l.endsLine c with
      | true => simp [hc]
      | false => simpa [hc] using ih

/-! ## Slashes with stars -/

/-- What a reader of a comment with stars knows: how many comments inside of it are open, and the
star or slash that it just read. -/
structure StarState where
  depth : Nat
  last : Option Char

/-- Read a comment that a star and a slash end. -/
def starStep (nests : Bool) (s : StarState) (c : Char) : Option StarState :=
  if s.last = some '*' ∧ c = '/' then
    if s.depth = 0 then none else some ⟨s.depth - 1, none⟩
  else if nests = true ∧ s.last = some '/' ∧ c = '*' then some ⟨s.depth + 1, none⟩
  else some ⟨s.depth, if c = '*' ∨ c = '/' then some c else none⟩

variable {nests : Bool} {depth : Nat}

/-- Neither a star nor a slash leaves anything open. -/
theorem starStep_of_clear {c : Char} (hstar : c ≠ '*') (hslash : c ≠ '/') (s : StarState) :
    starStep nests s c = some ⟨s.depth, none⟩ := by
  simp [starStep, hstar, hslash]

theorem foldlM_starStep_of_clear {cs : List Char} (h : ∀ c ∈ cs, c ≠ '*' ∧ c ≠ '/') :
    cs.foldlM (starStep nests) ⟨depth, none⟩ = some ⟨depth, none⟩ := by
  induction cs with
  | nil => rfl
  | cons c cs ih =>
      obtain ⟨hstar, hslash⟩ := h c List.mem_cons_self
      rw [List.foldlM_cons, starStep_of_clear hstar hslash]
      exact ih fun x hx => h x (List.mem_cons_of_mem _ hx)

/-- How many comments are open inside the outermost one behind a text, if the text does not end
that one. -/
def depthBehind (nests : Bool) (depth : Nat) (text : String) : Option Nat :=
  (text.toList.foldlM (starStep nests) ⟨depth, none⟩).map StarState.depth

/-- A character that is no star starts no end of a comment. -/
theorem end_infix_cons_iff {c : Char} {cs : List Char} (h : c ≠ '*' ∨ cs.head? ≠ some '/') :
    ['*', '/'] <:+: c :: cs ↔ ['*', '/'] <:+: cs := by
  rw [List.infix_cons_iff, or_iff_right]
  intro hprefix
  obtain ⟨hc, hcs⟩ := List.cons_prefix_cons.mp hprefix
  cases cs with
  | nil => simp at hcs
  | cons c' rest =>
      obtain ⟨hc', -⟩ := List.cons_prefix_cons.mp hcs
      rcases h with h | h
      · exact h hc.symm
      · exact h (by rw [← hc']; rfl)

/-- Without nesting, a comment ends with the first slash right behind a star. -/
theorem foldlM_starStep_iff {last : Option Char} {cs : List Char} :
    (cs.foldlM (starStep false) ⟨0, last⟩).map StarState.depth = some 0 ↔
      ¬['*', '/'] <:+: last.toList ++ cs := by
  induction cs generalizing last with
  | nil =>
      refine iff_of_true rfl fun h => ?_
      have hlength := h.length_le
      cases last <;> simp at hlength
  | cons c cs ih =>
      by_cases hend : last = some '*' ∧ c = '/'
      · obtain ⟨rfl, rfl⟩ := hend
        refine iff_of_false (by simp [starStep]) fun h => h ?_
        exact (List.prefix_append ['*', '/'] cs).isInfix
      · have hstep : starStep false ⟨0, last⟩ c =
            some ⟨0, if c = '*' ∨ c = '/' then some c else none⟩ := by
          simp [starStep, hend]
        have hlast : ['*', '/'] <:+: last.toList ++ c :: cs ↔ ['*', '/'] <:+: c :: cs := by
          cases last with
          | none => rfl
          | some x =>
              refine end_infix_cons_iff (Classical.not_and_iff_not_or_not.mp ?_)
              rintro ⟨rfl, hc⟩
              exact hend ⟨rfl, Option.some.inj hc⟩
        have hkept : ['*', '/'] <:+: c :: cs ↔
            ['*', '/'] <:+: (if c = '*' ∨ c = '/' then some c else none).toList ++ cs := by
          split
          · rfl
          · next hc => exact end_infix_cons_iff (Or.inl fun h => hc (Or.inl h))
        rw [List.foldlM_cons, hstep, hlast, hkept]
        exact ih

/-- Without nesting, no comment is open inside of another. -/
theorem depthBehind_eq_zero {text : String} {behind : Nat}
    (h : depthBehind false 0 text = some behind) : behind = 0 := by
  have hdepth : ∀ (cs : List Char) (last : Option Char) (s : StarState),
      cs.foldlM (starStep false) ⟨0, last⟩ = some s → s.depth = 0 := by
    intro cs
    induction cs with
    | nil =>
        intro last s hs
        cases hs
        rfl
    | cons c cs ih =>
        intro last s hs
        rw [List.foldlM_cons] at hs
        by_cases hend : last = some '*' ∧ c = '/'
        · simp [starStep, hend] at hs
        · simp only [starStep, hend, if_false, Bool.false_eq_true, false_and] at hs
          exact ih _ s hs
  obtain ⟨s, hs, rfl⟩ := Option.map_eq_some_iff.mp h
  exact hdepth _ _ s hs

/-- Without nesting, a text leaves a comment open if and only if it holds no end of one. -/
theorem depthBehind_eq_some_iff {text : String} :
    depthBehind false 0 text = some 0 ↔ ¬['*', '/'] <:+: text.toList :=
  foldlM_starStep_iff

/-! ## Three quotes -/

/-- What a reader of a text between three quotes knows: whether a backslash stands right before, and
how many quotes do. -/
structure QuoteState where
  escaped : Bool
  quotes : Nat
  deriving DecidableEq

/-- Read a text that three quotes end; what stands behind a backslash does not count. -/
def quoteStep (s : QuoteState) (c : Char) : Option QuoteState :=
  if s.escaped then some ⟨false, 0⟩
  else if c = '\\' then some ⟨true, 0⟩
  else if c = '"' then if s.quotes = 2 then none else some ⟨false, s.quotes + 1⟩
  else some ⟨false, 0⟩

/-- The state from which the quotes at the start of a text do not complete three. -/
def QuoteState.Admits (s : QuoteState) (cs : List Char) : Prop :=
  s.quotes = 0 ∨ s.escaped = false ∧
    (s.quotes = 1 ∧ ¬['"', '"'] <+: cs ∨ s.quotes = 2 ∧ ¬['"'] <+: cs)

/-- A character that does not start three quotes can be read, and what follows it then too. -/
theorem QuoteState.Admits.step {c : Char} {cs : List Char} {s : QuoteState}
    (h : s.Admits (c :: cs)) (hnot : c = '"' → ¬['"', '"'] <+: cs) :
    ∃ s', quoteStep s c = some s' ∧ s'.Admits cs := by
  obtain ⟨escaped, quotes⟩ := s
  by_cases hescaped : escaped = true
  · exact ⟨⟨false, 0⟩, by simp [quoteStep, hescaped], Or.inl rfl⟩
  by_cases hbackslash : c = '\\'
  · exact ⟨⟨true, 0⟩, by simp [quoteStep, hescaped, hbackslash], Or.inl rfl⟩
  by_cases hquote : c = '"'
  · subst hquote
    rcases h with h | ⟨-, ⟨h, hrest⟩ | ⟨-, hrest⟩⟩
    · exact ⟨⟨false, 1⟩, by simp_all [quoteStep], Or.inr ⟨rfl, Or.inl ⟨rfl, hnot rfl⟩⟩⟩
    · refine ⟨⟨false, 2⟩, by simp_all [quoteStep], Or.inr ⟨rfl, Or.inr ⟨rfl, fun h => ?_⟩⟩⟩
      exact hrest (List.cons_prefix_cons.mpr ⟨rfl, h⟩)
    · exact absurd (List.prefix_append ['"'] cs) hrest
  · exact ⟨⟨false, 0⟩, by simp [quoteStep, hescaped, hbackslash, hquote], Or.inl rfl⟩

/-- A text whose quotes are escaped in threes never ends the quotes around it. -/
theorem QuoteState.Admits.escaped {cs : List Char} {s : QuoteState} (h : s.Admits cs) :
    ∃ s', (Quoted.escapeTripleQuotes cs).foldlM quoteStep s = some s' := by
  fun_induction Quoted.escapeTripleQuotes cs generalizing s with
  | case1 rest ih =>
      have hquotes : s.quotes = 0 := by
        simpa [QuoteState.Admits] using h
      obtain ⟨escaped, quotes⟩ := s
      subst hquotes
      cases escaped <;> exact ih (s := ⟨false, 0⟩) (Or.inl rfl)
  | case2 c rest hnot ih =>
      have hprefix : c = '"' → ¬['"', '"'] <+: rest := by
        rintro rfl ⟨tail, rfl⟩
        exact hnot tail rfl rfl
      obtain ⟨s', hstep, hs'⟩ := h.step hprefix
      rw [List.foldlM_cons, hstep]
      exact ih hs'
  | case3 => exact ⟨s, rfl⟩

/-- Nothing that is not a quote or a backslash is left open. -/
theorem quoteStep_of_clear {c : Char} (hquote : c ≠ '"') (hbackslash : c ≠ '\\') (s : QuoteState) :
    quoteStep s c = some ⟨false, 0⟩ := by
  simp [quoteStep, hquote, hbackslash]

theorem foldlM_quoteStep_of_clear {cs : List Char} (h : ∀ c ∈ cs, c ≠ '"' ∧ c ≠ '\\') :
    cs.foldlM quoteStep ⟨false, 0⟩ = some ⟨false, 0⟩ := by
  induction cs with
  | nil => rfl
  | cons c cs ih =>
      obtain ⟨hquote, hbackslash⟩ := h c List.mem_cons_self
      rw [List.foldlM_cons, quoteStep_of_clear hquote hbackslash]
      exact ih fun x hx => h x (List.mem_cons_of_mem _ hx)

/-- Three quotes end a text and leave the end of its line if and only if no quote and no backslash
stands open before them. -/
theorem behind_quotes_iff {s : QuoteState} :
    behind quoteStep s ['"', '"', '"', '\n'] = some ['\n'] ↔ s = ⟨false, 0⟩ := by
  obtain ⟨escaped, quotes⟩ := s
  cases escaped with
  | true => simp [behind, quoteStep]
  | false => rcases quotes with _ | _ | _ | n <;> simp [behind, quoteStep]

end Text

end TestWriter
