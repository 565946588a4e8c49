import Mathlib.Data.List.DropRight
import TestWriter.Proofs.Enclosure
import TestWriter.Proofs.Literals
import TestWriter.Target.Render

/-!
# Documentation strings

Three quotes as a reader of Python takes them: the first three quotes behind which no backslash
counts end the string, and escapes in it are replaced.  Main statement: a documentation string ends
where it is written to end and is read as its lines if and only if no backslash of a line starts an
escape that is not one of three escaped quotes, and a line that stands alone does not end with
quotes that are left over from threes.
-/

namespace TestWriter.Text.Docstring

/-! ## Escapes -/

/-- The digits of octal numbers. -/
def octalDigits : List Char := ['0', '1', '2', '3', '4', '5', '6', '7']

/-- The escapes of one character, with the numbers of the characters that they stand for. -/
def singles : List (Char × Nat) :=
  [('\\', 92), ('\x27', 39), ('"', 34), ('a', 7), ('b', 8), ('f', 12), ('n', 10), ('r', 13),
   ('t', 9), ('v', 11)]

/-- The characters that start an escape behind a backslash. -/
def escapes : List Char := ['\n', 'x', 'u', 'U', 'N'] ++ octalDigits ++ singles.map Prod.fst

/-- The number that a text of that many hexadecimal digits starts with. -/
def hex? (digits : Nat) (cs : List Char) : Option Nat :=
  if cs.length < digits then none
  else (cs.take digits).foldlM (fun n d => (Quoted.hexValue? d).map (n * 16 + ·)) 0

/-- The name in braces at the start of a text. -/
def name? : List Char → Option (List Char)
  | '{' :: rest =>
    let name := rest.takeWhile (· ≠ '}')
    if name.length < rest.length then some name else none
  | _ => none

variable (named : List Char → Option Nat)

/-- What the text behind a backslash stands for, as numbers of characters, and how many characters
of it the escape takes; `named` gives the characters that have names.  Behind a backslash that
starts no escape, the next character is read along with it. -/
def escape? : List Char → Option (List Nat × Nat)
  | [] => none
  | c :: rest =>
    if c = '\n' then some ([], 1)
    else if c = 'x' then (hex? 2 rest).map fun code => ([code], 3)
    else if c = 'u' then (hex? 4 rest).map fun code => ([code], 5)
    else if c = 'U' then ((hex? 8 rest).filter (· < 0x110000)).map fun code => ([code], 9)
    else if c = 'N' then
      (name? rest).bind fun name => (named name).map fun code => ([code], name.length + 3)
    else if c ∈ octalDigits then
      let digits := c :: (rest.take 2).takeWhile (· ∈ octalDigits)
      some ([digits.foldl (fun n d => n * 8 + (d.toNat - 48)) 0], digits.length)
    else
      match singles.lookup c with
      | some code => some ([code], 1)
      | none => some ([92, c.toNat], 1)

/-- The value of the text of a string behind the characters that an escape has taken, as numbers of
characters: an escape may stand for half of a character. -/
def read? : Nat → List Char → Option (List Nat)
  | _, [] => some []
  | taken + 1, _ :: rest => read? taken rest
  | 0, c :: rest =>
    if c = '\\' then
      (escape? named rest).bind fun (codes, taken) => (read? taken rest).map (codes ++ ·)
    else (read? 0 rest).map (c.toNat :: ·)

/-- The value of the documentation string at the start of an indented text, and what stands behind
it.  No source holds a NUL, and a carriage return in a source is none in its strings. -/
def readDocstring? (text : List Char) : Option (List Nat × List Char) :=
  match text.dropWhile (· = ' ') with
  | '"' :: '"' :: '"' :: body =>
    (behind quoteStep ⟨false, 0⟩ body).bind fun rest =>
      let inner := body.take (body.length - (rest.length + 3))
      if '\x00' ∈ inner ∨ '\r' ∈ inner then none
      else (read? named 0 inner).map fun value => (value, rest)
  | _ => none

variable {named}

theorem escape?_of_notMem {c : Char} (h : c ∉ escapes) (rest : List Char) :
    escape? named (c :: rest) = some ([92, c.toNat], 1) := by
  have hsingle : singles.lookup c = none := by
    refine List.lookup_eq_none_iff.mpr fun p hp => bne_iff_ne.mpr ?_
    rintro rfl
    exact h (List.mem_append_right _ (List.mem_map_of_mem hp))
  simp only [escapes, List.mem_append, List.mem_cons, List.not_mem_nil, or_false, not_or] at h
  obtain ⟨⟨⟨hline, hx, hu, hU, hN⟩, hoctal⟩, -⟩ := h
  simp [escape?, hline, hx, hu, hU, hN, hoctal, hsingle]

theorem brief_of_map {code? : Option Nat} {more taken : Nat} {codes : List Nat}
    (h : (code?.map fun code => ([code], more + 1)) = some (codes, taken)) :
    codes.length ≤ 1 ∧ 1 ≤ taken := by
  obtain ⟨code, -, hcode⟩ := Option.map_eq_some_iff.mp h
  cases hcode
  exact ⟨le_rfl, by omega⟩

/-- An escape stands for at most one character and takes at least one. -/
theorem escape?_of_mem {c : Char} (h : c ∈ escapes) {rest : List Char} {codes : List Nat}
    {taken : Nat} (hescape : escape? named (c :: rest) = some (codes, taken)) :
    codes.length ≤ 1 ∧ 1 ≤ taken := by
  simp only [escape?] at hescape
  split at hescape
  · cases hescape
    exact ⟨by simp, by simp⟩
  split at hescape
  · exact brief_of_map hescape
  split at hescape
  · exact brief_of_map hescape
  split at hescape
  · exact brief_of_map hescape
  split at hescape
  · obtain ⟨name, -, hname⟩ := Option.bind_eq_some_iff.mp hescape
    exact brief_of_map hname
  split at hescape
  · cases hescape
    exact ⟨by simp, by simp⟩
  next hline hx hu hU hN hoctal =>
    -- Only the escapes of one character are left, and each is in their table.
    obtain ⟨p, hp, rfl⟩ : ∃ p ∈ singles, p.1 = c := by
      simpa [escapes, hline, hx, hu, hU, hN, hoctal] using h
    split at hescape
    · cases hescape
      exact ⟨by simp, by simp⟩
    next hnone =>
      have hne := List.lookup_eq_none_iff.mp hnone p hp
      simp at hne

/-! ## Texts that are read as they stand -/

/-- A backslash before this text is read as itself: three quotes get backslashes of their own, so
that the two backslashes stand for one, and no other escape starts here. -/
def Spares (rest : List Char) : Prop :=
  ['"', '"', '"'] <+: rest ∨ ∃ c ∈ rest.head?, c ∉ escapes

/-- No backslash of a text starts an escape. -/
def Keeps (cs : List Char) : Prop := ∀ rest, '\\' :: rest <:+ cs → Spares rest

theorem keeps_nil : Keeps [] := fun _ h => absurd (List.suffix_nil.mp h) (by simp)

theorem keeps_cons_iff {c : Char} {cs : List Char} :
    Keeps (c :: cs) ↔ (c = '\\' → Spares cs) ∧ Keeps cs := by
  simp only [Keeps, List.suffix_cons_iff]
  constructor
  · intro h
    refine ⟨?_, fun rest hrest => h rest (Or.inr hrest)⟩
    rintro rfl
    exact h cs (Or.inl rfl)
  · rintro ⟨hcs, hrest⟩ rest (h | h)
    · cases h
      exact hcs rfl
    · exact hrest rest h

theorem read?_plain {c : Char} (hc : c ≠ '\\') (rest : List Char) :
    read? named 0 (c :: rest) = (read? named 0 rest).map (c.toNat :: ·) := by
  simp [read?, hc]

theorem read?_quote (rest : List Char) :
    read? named 0 ('\\' :: '"' :: rest) = (read? named 0 rest).map (34 :: ·) := rfl

theorem read?_backslash (rest : List Char) :
    read? named 0 ('\\' :: '\\' :: rest) = (read? named 0 rest).map (92 :: ·) := rfl

/-- A backslash before a character that starts no escape is read, and then the character. -/
theorem read?_spared {c : Char} (h : c ∉ escapes) (rest : List Char) :
    read? named 0 ('\\' :: c :: rest) = (read? named 0 (c :: rest)).map (92 :: ·) := by
  have hc : c ≠ '\\' := by
    rintro rfl
    exact h (by decide)
  simp [read?, escape?_of_notMem h, hc, Function.comp_def]

/-- A backslash before three escaped quotes makes a pair with the first of their backslashes. -/
theorem read?_backslash_quotes (rest : List Char) :
    read? named 0 ('\\' :: Quoted.escapeTripleQuotes ('"' :: '"' :: '"' :: rest)) =
      (read? named 0 (Quoted.escapeTripleQuotes ('"' :: '"' :: '"' :: rest))).map (92 :: ·) := by
  simp [Quoted.escapeTripleQuotes, read?_backslash, read?_quote, read?_plain, Function.comp_def]

/-- A backslash that is spared is read as itself, whatever is read behind it. -/
theorem read?_of_spares {cs : List Char} (h : Spares cs) :
    read? named 0 ('\\' :: Quoted.escapeTripleQuotes cs) =
      (read? named 0 (Quoted.escapeTripleQuotes cs)).map (92 :: ·) := by
  rcases h with ⟨rest, rfl⟩ | ⟨c, hc, hnot⟩
  · exact read?_backslash_quotes rest
  · obtain ⟨rest, rfl⟩ := List.head?_eq_some_iff.mp hc
    have hquote : c ≠ '"' := by
      rintro rfl
      exact hnot (by decide)
    rw [Quoted.escapeTripleQuotes]
    · exact read?_spared hnot _
    · rintro rest' rfl -
      exact hquote rfl

/-- Behind a backslash that is not spared, an escape takes at least the next character and gives at
most one. -/
theorem exists_of_not_spares {cs : List Char} (h : ¬Spares cs) {value : List Nat}
    (hread : read? named 0 ('\\' :: Quoted.escapeTripleQuotes cs) = some value) :
    ∃ c rest codes tail taken, cs = c :: rest ∧
      Quoted.escapeTripleQuotes cs = c :: Quoted.escapeTripleQuotes rest ∧
      value = codes ++ tail ∧ codes.length ≤ 1 ∧
      read? named taken (Quoted.escapeTripleQuotes rest) = some tail := by
  cases cs with
  | nil => cases hread
  | cons c rest =>
      have hc : c ∈ escapes := by
        by_contra hnot
        exact h (Or.inr ⟨c, rfl, hnot⟩)
      have hfirst : Quoted.escapeTripleQuotes (c :: rest) =
          c :: Quoted.escapeTripleQuotes rest := by
        rw [Quoted.escapeTripleQuotes]
        rintro rest' rfl rfl
        exact h (Or.inl (List.prefix_append ['"', '"', '"'] rest'))
      rw [hfirst] at hread
      obtain ⟨⟨codes, taken⟩, hescape, hrest⟩ := Option.bind_eq_some_iff.mp hread
      obtain ⟨tail, htail, rfl⟩ := Option.map_eq_some_iff.mp hrest
      obtain ⟨hcodes, htaken⟩ := escape?_of_mem hc hescape
      obtain ⟨taken, rfl⟩ := Nat.exists_eq_add_of_le' htaken
      exact ⟨c, rest, codes, tail, taken, rfl, hfirst, rfl, hcodes, htail⟩

/-- Wherever a reader is inside of an escaped triple, it reads at most its three quotes. -/
theorem exists_read?_quotes (taken : Nat) (rest : List Char) :
    ∃ (codes : List Nat) (behind : Nat), codes.length ≤ 3 ∧
      read? named taken ('\\' :: '"' :: '\\' :: '"' :: '\\' :: '"' :: rest) =
        (read? named behind rest).map (codes ++ ·) := by
  have hskip : ∀ taken (c : Char) rest, read? named (taken + 1) (c :: rest) =
      read? named taken rest := fun _ _ _ => rfl
  match taken with
  | 0 => exact ⟨[34, 34, 34], 0, by simp, by simp [read?_quote, Function.comp_def]⟩
  | 1 => exact ⟨[34, 34, 34], 0, by simp, by
      simp [hskip, read?_plain, read?_quote, Function.comp_def]⟩
  | 2 => exact ⟨[34, 34], 0, by simp, by simp [hskip, read?_quote, Function.comp_def]⟩
  | 3 => exact ⟨[34, 34], 0, by simp, by
      simp [hskip, read?_plain, read?_quote, Function.comp_def]⟩
  | 4 => exact ⟨[34], 0, by simp, by simp [hskip, read?_quote]⟩
  | 5 => exact ⟨[34], 0, by simp, by simp [hskip, read?_plain]⟩
  | taken + 6 => exact ⟨[], taken, by simp, by simp [hskip]⟩

/-- No more characters are read than were written. -/
theorem length_read?_le {cs : List Char} {taken : Nat} {value : List Nat}
    (h : read? named taken (Quoted.escapeTripleQuotes cs) = some value) :
    value.length ≤ cs.length := by
  fun_induction Quoted.escapeTripleQuotes cs generalizing taken value with
  | case1 rest ih =>
      obtain ⟨codes, behind, hcodes, hread⟩ := exists_read?_quotes taken
        (Quoted.escapeTripleQuotes rest)
      obtain ⟨tail, htail, rfl⟩ := Option.map_eq_some_iff.mp (hread.symm.trans h)
      have hle := ih htail
      simp only [List.length_append, List.length_cons]
      omega
  | case2 c rest hnot ih =>
      cases taken with
      | succ taken => exact (ih h).trans (Nat.le_succ _)
      | zero =>
        by_cases hc : c = '\\'
        · subst hc
          by_cases hspares : Spares rest
          · rw [read?_of_spares hspares] at h
            obtain ⟨tail, htail, rfl⟩ := Option.map_eq_some_iff.mp h
            exact Nat.succ_le_succ (ih htail)
          · obtain ⟨c, rest', codes, tail, taken, rfl, hfirst, rfl, hcodes, htail⟩ :=
              exists_of_not_spares hspares h
            rw [hfirst] at ih
            have hle : tail.length ≤ (c :: rest').length :=
              ih (show read? named (taken + 1) (c :: _) = some tail from htail)
            simp only [List.length_append, List.length_cons] at hle ⊢
            omega
        · rw [read?_plain hc] at h
          obtain ⟨tail, htail, rfl⟩ := Option.map_eq_some_iff.mp h
          exact Nat.succ_le_succ (ih htail)
  | case3 =>
      cases h
      simp

/-- The numbers of the characters of a text. -/
def codePoints (cs : List Char) : List Nat := cs.map Char.toNat

/-- A text whose quotes are escaped in threes is read as itself if and only if no backslash of it
starts an escape. -/
theorem read?_escaped_iff {cs : List Char} :
    read? named 0 (Quoted.escapeTripleQuotes cs) = some (codePoints cs) ↔ Keeps cs := by
  fun_induction Quoted.escapeTripleQuotes cs with
  | case1 rest ih =>
      have hkeeps : Keeps ('"' :: '"' :: '"' :: rest) ↔ Keeps rest := by
        simp [keeps_cons_iff]
      rw [hkeeps, ← ih]
      simp [read?_quote, codePoints, Function.comp_def]
  | case2 c rest hnot ih =>
      rw [keeps_cons_iff, ← ih]
      by_cases hc : c = '\\'
      · subst hc
        by_cases hspares : Spares rest
        · rw [read?_of_spares hspares]
          simp [codePoints, hspares]
        · -- One of the characters is missing from what is read.
          refine iff_of_false (fun h => ?_) fun h => hspares (h.1 rfl)
          obtain ⟨c, rest', escaped, tail, taken, rfl, -, hvalue, hescaped, htail⟩ :=
            exists_of_not_spares hspares h
          have hlength := congrArg List.length hvalue
          have hle := length_read?_le htail
          simp only [codePoints, List.length_map, List.length_append, List.length_cons] at hlength
          omega
      · rw [read?_plain hc]
        simp [codePoints, hc]
  | case3 => exact iff_of_true rfl keeps_nil

theorem mem_escapeTripleQuotes_iff {c : Char} (hc : c ≠ '\\') {cs : List Char} :
    c ∈ Quoted.escapeTripleQuotes cs ↔ c ∈ cs := by
  fun_induction Quoted.escapeTripleQuotes cs with
  | case1 rest ih => simp [hc, ih]
  | case2 d rest hnot ih => simp [ih]
  | case3 => rfl

/-- A text that a string gives back as it stands: what no source holds is not in it, and no
backslash of it starts an escape. -/
def Verbatim (cs : List Char) : Prop := ('\x00' ∉ cs ∧ '\r' ∉ cs) ∧ Keeps cs

theorem verbatim_nil : Verbatim [] := ⟨⟨by simp, by simp⟩, keeps_nil⟩

theorem verbatim_cons_iff {c : Char} (hc : c = ' ' ∨ c = '\n') {cs : List Char} :
    Verbatim (c :: cs) ↔ Verbatim cs := by
  rcases hc with rfl | rfl <;> simp [Verbatim, keeps_cons_iff]

theorem verbatim_spaces_iff {spaces cs : List Char} (h : ∀ c ∈ spaces, c = ' ') :
    Verbatim (spaces ++ cs) ↔ Verbatim cs := by
  induction spaces with
  | nil => rfl
  | cons c spaces ih =>
      obtain ⟨hc, hspaces⟩ := List.forall_mem_cons.mp h
      rw [List.cons_append, verbatim_cons_iff (Or.inl hc), ih hspaces]

/-- The end of a line starts an escape, so it spares no backslash. -/
theorem spares_line_iff {cs ds : List Char} : Spares (cs ++ '\n' :: ds) ↔ Spares cs := by
  have hline : '\n' ∈ escapes := by decide
  match cs with
  | [] => simp [Spares, hline]
  | [c] => simp [Spares]
  | [c, d] => simp [Spares]
  | c :: d :: e :: cs => simp [Spares]

theorem verbatim_line_iff {cs ds : List Char} :
    Verbatim (cs ++ '\n' :: ds) ↔ Verbatim cs ∧ Verbatim ds := by
  have hkeeps : Keeps (cs ++ '\n' :: ds) ↔ Keeps cs ∧ Keeps ds := by
    induction cs with
    | nil => simp [keeps_nil, keeps_cons_iff]
    | cons c cs ih =>
        rw [List.cons_append, keeps_cons_iff, keeps_cons_iff, spares_line_iff, ih, and_assoc]
  have hsource (c : Char) (hc : c ≠ '\n') :
      c ∉ cs ++ '\n' :: ds ↔ c ∉ cs ∧ c ∉ ds := by simp [hc]
  rw [Verbatim, hkeeps, hsource _ (by decide), hsource _ (by decide), Verbatim, Verbatim]
  tauto

/-! ## Quotes left open -/

/-- How many quotes a text ends with. -/
def lastQuotes (cs : List Char) : Nat := (cs.rtakeWhile (· = '"')).length

/-- Quotes are escaped in the parts of a text if no run of them goes from one part to the other. -/
theorem escapeTripleQuotes_append {cs ds : List Char}
    (h : cs.getLast? ≠ some '"' ∨ ds.head? ≠ some '"') :
    Quoted.escapeTripleQuotes (cs ++ ds) =
      Quoted.escapeTripleQuotes cs ++ Quoted.escapeTripleQuotes ds := by
  fun_induction Quoted.escapeTripleQuotes cs with
  | case1 rest ih =>
      have hrest : rest.getLast? ≠ some '"' ∨ ds.head? ≠ some '"' := by
        cases rest with
        | nil => exact Or.inl (by simp)
        | cons c rest => simpa [List.getLast?_cons_cons] using h
      simp [Quoted.escapeTripleQuotes, ih hrest]
  | case2 c rest hnot ih =>
      have hrest : rest.getLast? ≠ some '"' ∨ ds.head? ≠ some '"' := by
        cases rest with
        | nil => exact Or.inl (by simp)
        | cons d rest => simpa [List.getLast?_cons_cons] using h
      rw [List.cons_append, Quoted.escapeTripleQuotes, ih hrest, List.cons_append]
      rintro rest' rfl happend
      match rest, hnot, happend with
      | [], _, happend => simp_all
      | [d], _, happend => simp_all
      | d :: d' :: rest, hnot, happend => simp_all
  | case3 => rfl

theorem escapeTripleQuotes_spaces {spaces : List Char} (h : ∀ c ∈ spaces, c = ' ')
    (cs : List Char) :
    Quoted.escapeTripleQuotes (spaces ++ cs) = spaces ++ Quoted.escapeTripleQuotes cs := by
  induction spaces with
  | nil => rfl
  | cons c spaces ih =>
      obtain ⟨rfl, hspaces⟩ := List.forall_mem_cons.mp h
      simp [Quoted.escapeTripleQuotes, ih hspaces]

theorem escapeTripleQuotes_eq_nil_iff {cs : List Char} :
    Quoted.escapeTripleQuotes cs = [] ↔ cs = [] := by
  fun_cases Quoted.escapeTripleQuotes cs <;> simp

/-- Whatever stands before three escaped quotes, they leave nothing open. -/
theorem foldlM_quotes (s : QuoteState) (rest : List Char) :
    (Quoted.escapeTripleQuotes ('"' :: '"' :: '"' :: rest)).foldlM quoteStep s =
      (Quoted.escapeTripleQuotes rest).foldlM quoteStep ⟨false, 0⟩ := by
  obtain ⟨escaped, quotes⟩ := s
  cases escaped <;> simp [Quoted.escapeTripleQuotes, quoteStep]

theorem foldlM_replicate (n : Nat) :
    (Quoted.escapeTripleQuotes (List.replicate n '"')).foldlM quoteStep ⟨false, 0⟩ =
      some ⟨false, n % 3⟩ := by
  match n with
  | 0 | 1 | 2 => rfl
  | n + 3 =>
    rw [List.replicate_succ, List.replicate_succ, List.replicate_succ, foldlM_quotes,
      foldlM_replicate n, Nat.add_mod_right]

/-- A text that does not end with a quote leaves at most a backslash open, with which it ends. -/
theorem foldlM_of_getLast?_ne {cs : List Char} (h : cs.getLast? ≠ some '"') :
    (Quoted.escapeTripleQuotes cs).foldlM quoteStep ⟨false, 0⟩ = some ⟨false, 0⟩ ∨
      (∃ front, cs = front ++ ['\\']) ∧
        (Quoted.escapeTripleQuotes cs).foldlM quoteStep ⟨false, 0⟩ = some ⟨true, 0⟩ := by
  rcases List.eq_nil_or_concat cs with rfl | ⟨front, c, rfl⟩
  · exact Or.inl rfl
  have hc : c ≠ '"' := by simpa using h
  obtain ⟨s, hs⟩ : ∃ s, (Quoted.escapeTripleQuotes front).foldlM quoteStep ⟨false, 0⟩ = some s :=
    QuoteState.Admits.escaped (Or.inl rfl)
  have hlast : (Quoted.escapeTripleQuotes (front ++ [c])).foldlM quoteStep ⟨false, 0⟩ =
      quoteStep s c := by
    rw [escapeTripleQuotes_append (Or.inr (by simpa using hc)), List.foldlM_append, hs,
      Quoted.escapeTripleQuotes]
    · simp [Quoted.escapeTripleQuotes]
    · rintro rest rfl -
      exact hc rfl
  rw [List.concat_eq_append, hlast]
  obtain ⟨escaped, quotes⟩ := s
  by_cases hescaped : escaped = true
  · exact Or.inl (by simp [quoteStep, hescaped])
  by_cases hbackslash : c = '\\'
  · exact Or.inr ⟨⟨front, by rw [hbackslash]⟩, by simp [quoteStep, hescaped, hbackslash]⟩
  · exact Or.inl (by simp [quoteStep, hescaped, hbackslash, hc])

theorem exists_append_quotes (cs : List Char) :
    ∃ front, cs = front ++ List.replicate (lastQuotes cs) '"' ∧ front.getLast? ≠ some '"' := by
  refine ⟨cs.rdropWhile (· = '"'), ?_, fun h => ?_⟩
  · have hquotes : cs.rtakeWhile (· = '"') = List.replicate (lastQuotes cs) '"' :=
      List.eq_replicate_of_mem fun c hc => by simpa using List.mem_rtakeWhile_imp hc
    rw [← hquotes, List.rdropWhile_append_rtakeWhile]
  · obtain ⟨front, hfront⟩ := List.getLast?_eq_some_iff.mp h
    exact List.rdropWhile_last_not (· = '"') cs (by simp [hfront]) (by simp [hfront])

/-- A text that is read as itself leaves open the quotes at its end that are left over from
threes. -/
theorem Keeps.foldlM_escaped {cs : List Char} (h : Keeps cs) :
    (Quoted.escapeTripleQuotes cs).foldlM quoteStep ⟨false, 0⟩ =
      some ⟨false, lastQuotes cs % 3⟩ := by
  obtain ⟨front, hcs, hfront⟩ := exists_append_quotes cs
  generalize lastQuotes cs = n at hcs ⊢
  subst hcs
  rw [escapeTripleQuotes_append (Or.inl hfront), List.foldlM_append]
  rcases foldlM_of_getLast?_ne hfront with hs | ⟨⟨front, rfl⟩, hs⟩
  · rw [hs]
    exact foldlM_replicate n
  · -- The quotes behind a spared backslash are at least three.
    have hspares : Spares (List.replicate n '"') := h _ ⟨front, by simp⟩
    obtain ⟨m, rfl⟩ : ∃ m, n = m + 3 := by
      rcases hspares with hprefix | ⟨c, hc, hnot⟩
      · exact Nat.exists_eq_add_of_le' (by simpa using hprefix.length_le)
      · obtain rfl : c = '"' := List.eq_of_mem_replicate (List.mem_of_mem_head? hc)
        exact absurd (by decide) hnot
    rw [hs, Option.bind_eq_bind, Option.bind_some, List.replicate_succ, List.replicate_succ,
      List.replicate_succ, foldlM_quotes, foldlM_replicate, Nat.add_mod_right]

/-! ## The whole string -/

/-- Three quotes and the end of the line stand behind a string if and only if its text leaves
nothing open. -/
theorem behind_text_iff {inner : List Char} :
    behind quoteStep ⟨false, 0⟩ (inner ++ ['"', '"', '"', '\n']) = some ['\n'] ↔
      inner.foldlM quoteStep ⟨false, 0⟩ = some ⟨false, 0⟩ := by
  cases hs : inner.foldlM quoteStep ⟨false, 0⟩ with
  | none => exact iff_of_false (Target.Remark.behind_append_ne hs (by simp)) (by simp)
  | some s => rw [behind_append hs, behind_quotes_iff, Option.some.injEq]

/-- A written string is read as a value, up to the end of its line, if and only if its text leaves
nothing open and has this value. -/
theorem readDocstring?_iff {lead inner : String} (hlead : ∀ c ∈ lead.toList, c = ' ')
    {value : List Nat} :
    readDocstring? named (lead ++ "\"\"\"" ++ inner ++ "\"\"\"" ++ "\n").toList =
        some (value, ['\n']) ↔
      inner.toList.foldlM quoteStep ⟨false, 0⟩ = some ⟨false, 0⟩ ∧
        ('\x00' ∉ inner.toList ∧ '\r' ∉ inner.toList) ∧
        read? named 0 inner.toList = some value := by
  have hdrop : (lead ++ "\"\"\"" ++ inner ++ "\"\"\"" ++ "\n").toList.dropWhile (· = ' ') =
      '"' :: '"' :: '"' :: (inner.toList ++ ['"', '"', '"', '\n']) := by
    have htext : (lead ++ "\"\"\"" ++ inner ++ "\"\"\"" ++ "\n").toList =
        lead.toList ++ '"' :: '"' :: '"' :: (inner.toList ++ ['"', '"', '"', '\n']) := by simp
    rw [htext, List.dropWhile_append_of_pos (by simpa using hlead), List.dropWhile_cons_of_neg]
    decide
  have hinner : (inner.toList ++ ['"', '"', '"', '\n']).take
      ((inner.toList ++ ['"', '"', '"', '\n']).length - (['\n'].length + 3)) = inner.toList := by
    simp
  rw [← behind_text_iff, ← not_or]
  simp only [readDocstring?, hdrop]
  constructor
  · intro h
    obtain ⟨rest, hrest, hvalue⟩ := Option.bind_eq_some_iff.mp h
    obtain ⟨hnone, hread⟩ := Option.ite_none_left_eq_some.mp hvalue
    obtain ⟨value', hread, hpair⟩ := Option.map_eq_some_iff.mp hread
    cases hpair
    rw [hinner] at hnone hread
    exact ⟨hrest, hnone, hread⟩
  · rintro ⟨hrest, hnone, hread⟩
    rw [hrest, Option.bind_some, hinner, if_neg hnone, hread]
    rfl

end TestWriter.Text.Docstring

namespace TestWriter.Target.Python

open Layout Text

/-- What the lines of a documentation string are read as: a single one as it is, several between the
line ends and the indentation with which they are written. -/
def documented (indent : String) : List String → String
  | [line] => line
  | lines => "\n" ++ String.join (lines.map (Remark.quoteLine indent)) ++ indent

section

variable {indent : String} (hindent : ∀ c ∈ indent.toList, c = ' ')
include hindent

/-- A line has the same margin with escaped quotes as without them. -/
theorem exists_margin (line : String) :
    ∃ margin : List Char, (∀ c ∈ margin, c = ' ') ∧
      (Remark.quoteLine indent line).toList = margin ++ (line.toList ++ ['\n']) ∧
      (Remark.quoteLine indent (Remark.escaped line)).toList =
        margin ++ (Quoted.escapeTripleQuotes line.toList ++ ['\n']) := by
  by_cases hline : line = ""
  · subst hline
    refine ⟨[], by simp, ?_, ?_⟩ <;>
      simp [Remark.quoteLine, Remark.escaped, Quoted.escapeTripleQuotes]
  · have hescaped : Quoted.escapeTripleQuotes line.toList ≠ [] := fun h =>
      hline (String.toList_eq_nil_iff.mp (Docstring.escapeTripleQuotes_eq_nil_iff.mp h))
    refine ⟨indent.toList, hindent, ?_, ?_⟩ <;>
      simp [Remark.quoteLine, Remark.escaped, hline, hescaped]

theorem escaped_quoteLines (lines : List String) :
    Quoted.escapeTripleQuotes
        (String.join (lines.map (Remark.quoteLine indent)) ++ indent).toList =
      (String.join ((lines.map Remark.escaped).map (Remark.quoteLine indent)) ++
        indent).toList := by
  induction lines with
  | nil =>
      have hspaces := Docstring.escapeTripleQuotes_spaces hindent []
      simpa [Quoted.escapeTripleQuotes] using hspaces
  | cons line rest ih =>
      obtain ⟨margin, hmargin, hline, hescaped⟩ := exists_margin hindent line
      have hcons : (String.join ((line :: rest).map (Remark.quoteLine indent)) ++ indent).toList =
          margin ++ (line.toList ++ '\n' ::
            (String.join (rest.map (Remark.quoteLine indent)) ++ indent).toList) := by
        simp [hline]
      have hend : ('\n' ::
          (String.join (rest.map (Remark.quoteLine indent)) ++ indent).toList).head? ≠
          some '"' := by simp
      rw [hcons, Docstring.escapeTripleQuotes_spaces hmargin,
        Docstring.escapeTripleQuotes_append (Or.inr hend), Quoted.escapeTripleQuotes, ih]
      · simp [hescaped]
      · rintro rest' hc -
        exact absurd hc (by decide)

theorem verbatim_quoteLines_iff (lines : List String) :
    Docstring.Verbatim (String.join (lines.map (Remark.quoteLine indent)) ++ indent).toList ↔
      ∀ line ∈ lines, Docstring.Verbatim line.toList := by
  induction lines with
  | nil =>
      have hempty : Docstring.Verbatim (indent.toList ++ []) :=
        (Docstring.verbatim_spaces_iff hindent).mpr Docstring.verbatim_nil
      simpa using hempty
  | cons line rest ih =>
      obtain ⟨margin, hmargin, hline, -⟩ := exists_margin hindent line
      have hcons : (String.join ((line :: rest).map (Remark.quoteLine indent)) ++ indent).toList =
          margin ++ (line.toList ++ '\n' ::
            (String.join (rest.map (Remark.quoteLine indent)) ++ indent).toList) := by
        simp [hline]
      rw [hcons, Docstring.verbatim_spaces_iff hmargin, Docstring.verbatim_line_iff, ih,
        List.forall_mem_cons]

end

theorem documented_of_length_ne {indent : String} {lines : List String} (h : lines.length ≠ 1) :
    documented indent lines =
      "\n" ++ String.join (lines.map (Remark.quoteLine indent)) ++ indent := by
  unfold documented
  split
  · exact absurd rfl h
  · rfl

theorem verbatim_documented_iff {indent : String} (hindent : ∀ c ∈ indent.toList, c = ' ')
    (lines : List String) :
    Docstring.Verbatim (documented indent lines).toList ↔
      ∀ line ∈ lines, Docstring.Verbatim line.toList := by
  unfold documented
  split
  · simp
  · rw [String.append_assoc, String.toList_append]
    exact (Docstring.verbatim_cons_iff (Or.inr rfl)).trans (verbatim_quoteLines_iff hindent lines)

/-- Between the quotes stands what is documented, with its quotes escaped in threes. -/
theorem added_docstring {tab : String} (htab : ∀ ch ∈ tab.toList, ch = ' ') (c : Cursor)
    (lines : List String) :
    c.added tab (docstring lines) =
      c.lead tab ++ "\"\"\"" ++ Remark.escaped (documented (Cursor.copies tab c.level) lines) ++
        "\"\"\"" ++ "\n" := by
  by_cases hlength : lines.length = 1
  · obtain ⟨line, rfl⟩ := List.length_eq_one_iff.mp hlength
    exact Remark.added_single
  · have hindent : ∀ ch ∈ (Cursor.copies tab c.level).toList, ch = ' ' :=
      fun ch hch => htab ch (Cursor.mem_copies hch)
    have hinner : Remark.escaped (documented (Cursor.copies tab c.level) lines) =
        "\n" ++ (String.join ((lines.map Remark.escaped).map
          (Remark.quoteLine (Cursor.copies tab c.level))) ++ Cursor.copies tab c.level) := by
      rw [documented_of_length_ne hlength, Remark.escaped, String.append_assoc,
        String.toList_append, show "\n".toList = ['\n'] by simp, List.singleton_append,
        Quoted.escapeTripleQuotes, escaped_quoteLines hindent]
      · rw [String.ofList_cons, String.ofList_toList]
        rfl
      · rintro rest hc -
        exact absurd hc (by decide)
    rw [hinner]
    refine (Remark.added_quoted hlength).trans ?_
    simp only [String.append_assoc]

/-- What is documented leaves nothing open if and only if a single line does not. -/
theorem foldlM_documented_iff {tab : String} (htab : ∀ ch ∈ tab.toList, ch = ' ') (c : Cursor)
    (lines : List String) :
    (Remark.escaped (documented (Cursor.copies tab c.level) lines)).toList.foldlM quoteStep
        ⟨false, 0⟩ = some ⟨false, 0⟩ ↔
      ∀ line, lines = [line] →
        (Remark.escaped line).toList.foldlM quoteStep ⟨false, 0⟩ = some ⟨false, 0⟩ := by
  have hblank : ∀ ch ∈ tab.toList, isBlank ch = true := fun ch hch => by
    rw [htab ch hch]
    rfl
  have hadded : c.added tab (Remark.quoted lines).doc =
      c.lead tab ++ ((Remark.quoted lines).opening .python ++
        (Remark.escaped (documented (Cursor.copies tab c.level) lines) ++ "\"\"\"\n")) := by
    refine (added_docstring htab c lines).trans ?_
    simp [Remark.opening, String.append_assoc]
  have henclosed :=
    Remark.isEnclosed_iff_fits hblank (r := .quoted lines) (l := .python) rfl c
  rw [hadded, Remark.isEnclosed_iff (Remark.isBlank_lead hblank)] at henclosed
  rw [← Docstring.behind_text_iff]
  simpa [Remark.leaves, Remark.Fits] using henclosed

/-- A documentation string ends where it is written to end and is read as its lines if and only if
each line can be read as it stands and a single one leaves no quotes over from threes. -/
theorem docstring_reads_back_iff (named : List Char → Option Nat) (s : Surroundings) (c : Cursor)
    (lines : List String) :
    Docstring.readDocstring? named
        (c.added (dialect s).tab ((dialect s).documentation lines)).toList =
      some (Docstring.codePoints
        (documented (Cursor.copies (dialect s).tab c.level) lines).toList, ['\n']) ↔
      (∀ line ∈ lines, Docstring.Verbatim line.toList) ∧
        ∀ line, lines = [line] → 3 ∣ Docstring.lastQuotes line.toList := by
  have htab : ∀ ch ∈ (dialect s).tab.toList, ch = ' ' := by simp [dialect]
  have hindent : ∀ ch ∈ (Cursor.copies (dialect s).tab c.level).toList, ch = ' ' :=
    fun ch hch => htab ch (Cursor.mem_copies hch)
  have hlead : ∀ ch ∈ (c.lead (dialect s).tab).toList, ch = ' ' := by
    unfold Cursor.lead
    split
    · exact hindent
    · simp
  have hopen : ∀ line, Docstring.Verbatim line.toList →
      ((Remark.escaped line).toList.foldlM quoteStep ⟨false, 0⟩ = some ⟨false, 0⟩ ↔
        3 ∣ Docstring.lastQuotes line.toList) := by
    rintro line ⟨-, hkeeps⟩
    rw [Remark.escaped, String.toList_ofList, hkeeps.foldlM_escaped, Nat.dvd_iff_mod_eq_zero]
    simp
  change Docstring.readDocstring? named
    (c.added (dialect s).tab (docstring lines)).toList = _ ↔ _
  rw [added_docstring htab, Docstring.readDocstring?_iff hlead, foldlM_documented_iff htab,
    ← verbatim_documented_iff hindent, Remark.escaped, String.toList_ofList,
    Docstring.mem_escapeTripleQuotes_iff (by decide),
    Docstring.mem_escapeTripleQuotes_iff (by decide), Docstring.read?_escaped_iff,
    ← Docstring.Verbatim, and_comm, verbatim_documented_iff hindent]
  refine and_congr_right fun hverbatim => forall_congr' fun line => ?_
  refine forall_congr' fun hline => hopen line ?_
  exact hverbatim line (by simp [hline])

/-- A single line that ends with one quote ends the string before its last quote. -/
example : Docstring.readDocstring? (fun _ => none)
    (Cursor.start.added "    " (docstring ["say \"hi\""])).toList =
      some (Docstring.codePoints "say \"hi".toList, ['"', '\n']) := by decide +kernel

end TestWriter.Target.Python
