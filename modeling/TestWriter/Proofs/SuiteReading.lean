import TestWriter.Proofs.Successes
import TestWriter.Target.Python

/-!
# Reading suites

In Python a heading, such as that of a condition, wants a line of code below it that stands deeper.
A reader goes through a document step by step and finds out whether each heading gets one.  Main
statements: what the reader does with an expression, with a heading and the suite below it, and with
lines one after the other.
-/

namespace TestWriter.Target.Python

open Layout

/-! ## The reader -/

/-- The words that start a heading. -/
def headingWords : List String := ["def ", "class ", "if ", "elif ", "else:", "with "]

/-- The number of blanks in front of a text. -/
def indentation (s : String) : Nat := (s.toList.takeWhile (· = ' ')).length

/-- A text without the blanks in front of it. -/
def unindented (s : String) : List Char := s.toList.dropWhile (· = ' ')

/-- Whether a line that starts with fixed words starts a heading. -/
def startsHeading (s : String) : Bool :=
  headingWords.any fun word => word.toList.isPrefixOf (unindented s)

/-- Whether a text ends in a colon. -/
def endsInColon (s : String) : Bool := s.toList.getLast? = some ':'

/-- Whether a line that starts with a piece is a line of code.  Fixed words may be blank or start a
comment.  Anything else is code: a name, which is never empty, or a line of a documentation string,
since the text of a comment stands behind its mark. -/
def startsCode : Role → String → Bool
  | .plain, s => (unindented s).head?.any (· ≠ '#')
  | _, _ => true

/-- A reader that looks for the suites of headings. -/
structure SuiteReader where
  /-- The column of the level. -/
  column : Nat
  atLineStart : Bool
  /-- Whether the last piece ends in a colon and is no name. -/
  colon : Bool
  /-- The column of the heading that is being read. -/
  heading : Option Nat
  /-- The column of the last heading, as long as there is no line of code below it. -/
  awaiting : Option Nat
  deriving DecidableEq, Repr

namespace SuiteReader

/-- A reader at the start of a line outside headings. -/
def atLine (column : Nat) (awaiting : Option Nat) : SuiteReader :=
  ⟨column, true, false, none, awaiting⟩

/-- Read a piece; a line of code has to be deeper than a heading that waits for one. -/
def text (r : SuiteReader) (role : Role) (s : String) : Option SuiteReader :=
  let inLine := { r with atLineStart := false, colon := role = .plain && endsInColon s }
  if role = .plain && s.isEmpty then some r
  else if r.atLineStart && startsCode role s then
    let column := r.column + indentation s
    let opened := if role = .plain && startsHeading s then some column else none
    if r.awaiting.any (column ≤ ·) then none
    else some { inLine with heading := r.heading.or opened, awaiting := none }
  else some inLine

/-- End a line.  A heading goes on over lines that are deeper, as those of an array are, and ends
with the line of its own level that ends in a colon. -/
def newline (r : SuiteReader) : SuiteReader :=
  let ends := r.colon && r.heading.any (r.column ≤ ·)
  { r with
    atLineStart := true
    colon := false
    heading := if ends then none else r.heading
    awaiting := if ends then r.heading else r.awaiting }

/-- Go back a level; no heading of that level may still wait for a line of code. -/
def dedent (r : SuiteReader) : Option SuiteReader :=
  let column := r.column - 4
  if r.awaiting.any (column ≤ ·) then none else some { r with column := column }

/-- Read a step. -/
def step (r : SuiteReader) : Step → Option SuiteReader
  | .text role s => r.text role s
  | .newline => some r.newline
  | .freshLine => some (if r.atLineStart then r else r.newline)
  | .indent => some { r with column := r.column + 4 }
  | .dedent => r.dedent

/-- Read a document. -/
def read (r : SuiteReader) (d : Doc) : Option SuiteReader := d.foldlM step r

end SuiteReader

/-- Each heading of a document comes to its end and has a line of code below it that is deeper. -/
def SuitesFilled (d : Doc) : Prop :=
  ((SuiteReader.atLine 0 none).read d).any (fun r => r.heading.isNone && r.awaiting.isNone) = true

instance (d : Doc) : Decidable (SuitesFilled d) := inferInstanceAs (Decidable (_ = true))

namespace SuiteReader

variable {r r' : SuiteReader} {d : Doc} {column : Nat} {awaiting : Option Nat} {s : String}

theorem read_append (r : SuiteReader) (d e : Doc) :
    r.read (d ++ e) = (r.read d).bind (·.read e) := by
  simp [read, List.foldlM_append]

theorem read_append_of_eq (h : r.read d = some r') (e : Doc) : r.read (d ++ e) = r'.read e := by
  rw [read_append, h]
  rfl

theorem read_text (r : SuiteReader) (role : Role) (s : String) :
    r.read [.text role s] = r.text role s := by
  simp [read, step]

theorem not_any_le (h : ∀ k ∈ awaiting, k < column) : awaiting.any (column ≤ ·) = false := by
  cases awaiting with
  | none => rfl
  | some k => simpa using h k rfl

/-- A piece within a line changes only whether the line ends in a colon. -/
theorem read_text_inLine (h : r.atLineStart = false) (role : Role) (s : String) :
    ∃ colon, r.read [.text role s] = some { r with colon := colon } := by
  obtain ⟨column, atLineStart, colon, heading, awaiting⟩ := r
  cases h
  rw [read_text, text]
  split
  · exact ⟨colon, rfl⟩
  · exact ⟨_, rfl⟩

theorem read_words_inLine (h : r.atLineStart = false) (hs : s ≠ "") :
    r.read [.text .plain s] = some { r with colon := endsInColon s } := by
  obtain ⟨column, atLineStart, colon, heading, awaiting⟩ := r
  cases h
  simp [read_text, text, hs]

/-- Fixed words start a line of code. -/
theorem read_words_atLineStart (h : r.atLineStart = true)
    (hawaiting : ∀ k ∈ r.awaiting, k < r.column + indentation s) (hcode : startsCode .plain s) :
    r.read [.text .plain s] = some
      { r with
        atLineStart := false
        colon := endsInColon s
        heading := r.heading.or
          (if startsHeading s then some (r.column + indentation s) else none)
        awaiting := none } := by
  have hs : s ≠ "" := by
    rintro rfl
    cases hcode
  simp [read_text, text, hs, h, hcode, not_any_le hawaiting]

/-- Outside headings the end of a line starts the next one. -/
theorem read_newline_outside (h : r.heading = none) :
    r.read [.newline] = some (atLine r.column r.awaiting) := by
  simp [read, step, newline, atLine, h]

/-- A heading ends with a line that is not deeper and ends in a colon. -/
theorem read_newline_heading {k : Nat} (h : column ≤ k) :
    read ⟨column, false, true, some k, none⟩ [.newline] = some (atLine column (some k)) := by
  simp [read, step, newline, atLine, h]

/-- A heading goes on while the lines are deeper. -/
theorem read_newline_deeper (h : ∀ k ∈ r.heading, k < r.column) :
    r.read [.newline] = some { r with atLineStart := true, colon := false } := by
  simp [read, step, newline, not_any_le h]

/-- A heading goes on behind a line that does not end in a colon. -/
theorem read_newline_open (h : r.colon = false) :
    r.read [.newline] = some { r with atLineStart := true } := by
  obtain ⟨column, atLineStart, colon, heading, awaiting⟩ := r
  cases h
  simp [read, step, newline]

theorem read_dedent (r : SuiteReader) :
    read { r with column := r.column + 4 } [.dedent] =
      if r.awaiting.any (r.column ≤ ·) then none else some r := by
  simp [read, step, dedent]

end SuiteReader

open SuiteReader

/-! ## Expressions -/

/-- A document goes on in a line of code and ends within one. -/
def Continues (d : Doc) : Prop :=
  ∀ r : SuiteReader, r.atLineStart = false → r.awaiting = none → (∀ k ∈ r.heading, k ≤ r.column) →
    ∃ colon, r.read d = some { r with colon := colon }

/-- A document starts a line of code that is no heading, and ends within one. -/
def Begins (d : Doc) : Prop :=
  ∀ r : SuiteReader, r.atLineStart = true → (∀ k ∈ r.awaiting, k < r.column) →
    (∀ k ∈ r.heading, k ≤ r.column) →
    ∃ colon, r.read d = some { r with atLineStart := false, colon := colon, awaiting := none }

/-- A document is code, at the start of a line or within one. -/
structure IsCode (d : Doc) : Prop where
  begins : Begins d
  continues : Continues d

/-- A document consists of lines within an expression, deeper than the heading around it. -/
def InnerLines (d : Doc) : Prop :=
  ∀ r : SuiteReader, r.atLineStart = true → r.colon = false → r.awaiting = none →
    (∀ k ∈ r.heading, k < r.column) → r.read d = some r

/-- A document ends the line in which an expression starts. -/
def Breaks (d : Doc) : Prop :=
  ∀ r : SuiteReader, r.atLineStart = false → r.colon = false → r.awaiting = none →
    (∀ k ∈ r.heading, k ≤ r.column) → r.read d = some { r with atLineStart := true }

section Expressions

variable {d e : Doc} {s : String}

theorem continues_nil : Continues [] := fun r _ _ _ => ⟨r.colon, rfl⟩

theorem continues_text (role : Role) (s : String) : Continues [.text role s] :=
  fun _ hline _ _ => read_text_inLine hline role s

theorem Continues.append (hd : Continues d) (he : Continues e) : Continues (d ++ e) := by
  intro r hline hawaiting hheading
  obtain ⟨colon, hread⟩ := hd r hline hawaiting hheading
  rw [read_append_of_eq hread]
  exact he _ hline hawaiting hheading

theorem Begins.append (hd : Begins d) (he : Continues e) : Begins (d ++ e) := by
  intro r hline hawaiting hheading
  obtain ⟨colon, hread⟩ := hd r hline hawaiting hheading
  rw [read_append_of_eq hread]
  exact he _ rfl rfl hheading

theorem IsCode.append (hd : IsCode d) (he : Continues e) : IsCode (d ++ e) :=
  ⟨hd.begins.append he, hd.continues.append he⟩

theorem isCode_name {role : Role} (hrole : role ≠ .plain) (s : String) :
    IsCode [.text role s] := by
  refine ⟨fun r hline hawaiting _ => ⟨false, ?_⟩, continues_text _ _⟩
  have hcode : startsCode role s = true := by cases role <;> first | rfl | exact absurd rfl hrole
  have hany := not_any_le fun k hk => Nat.lt_add_right (indentation s) (hawaiting k hk)
  simp [read_text, SuiteReader.text, hrole, hline, hcode, hany]

/-- Fixed words are code unless they are blank, start a comment or start a heading. -/
theorem isCode_words (hcode : startsCode .plain s) (hheading : startsHeading s = false) :
    IsCode [.text .plain s] := by
  refine ⟨fun r hline hawaiting _ => ⟨endsInColon s, ?_⟩, continues_text _ _⟩
  rw [read_words_atLineStart hline (fun k hk => Nat.lt_add_right _ (hawaiting k hk)) hcode]
  simp [hheading]

theorem innerLines_nil : InnerLines [] := fun _ _ _ _ _ => rfl

theorem InnerLines.append (hd : InnerLines d) (he : InnerLines e) : InnerLines (d ++ e) := by
  intro r hline hcolon hawaiting hheading
  rw [read_append_of_eq (hd r hline hcolon hawaiting hheading)]
  exact he r hline hcolon hawaiting hheading

/-- An expression on a line of its own. -/
theorem IsCode.innerLines (hd : IsCode d) : InnerLines (d ++ [.newline]) := by
  intro r hline hcolon hawaiting hheading
  obtain ⟨colon, hread⟩ := hd.begins r hline (by simp [hawaiting])
    fun k hk => Nat.le_of_lt (hheading k hk)
  rw [read_append_of_eq hread]
  refine (read_newline_deeper
    (r := { r with atLineStart := false, colon := colon, awaiting := none }) hheading).trans ?_
  obtain ⟨column, atLineStart, colon', heading, awaiting⟩ := r
  cases hline
  cases hcolon
  cases hawaiting
  rfl

/-- Lines within an expression, one level deeper. -/
theorem InnerLines.breaks (hd : InnerLines d) :
    Breaks ([.newline] ++ ([.indent] ++ (d ++ [.dedent]))) := by
  intro r hline hcolon hawaiting hheading
  have hindent : SuiteReader.read { r with atLineStart := true } [.indent] =
      some { r with atLineStart := true, column := r.column + 4 } := rfl
  have hlines := hd { r with atLineStart := true, column := r.column + 4 } rfl hcolon hawaiting
    fun k hk => Nat.lt_add_right 3 (Nat.lt_succ_of_le (hheading k hk))
  rw [read_append_of_eq (read_newline_open hcolon), read_append_of_eq hindent,
    read_append_of_eq hlines]
  refine (read_dedent { r with atLineStart := true }).trans ?_
  simp [hawaiting]

/-- An array over several lines. -/
theorem Breaks.isCode_array (hd : Breaks d) :
    IsCode ([.text .plain "["] ++ d ++ [.text .plain "]"]) := by
  have hclosing : Begins [.text .plain "]"] := (isCode_words rfl rfl).begins
  constructor
  · intro r hline hawaiting hheading
    have hopening : r.read [.text .plain "["] =
        some { r with atLineStart := false, colon := false, awaiting := none } := by
      rw [read_words_atLineStart hline (fun k hk => Nat.lt_add_right _ (hawaiting k hk)) rfl]
      simp [startsHeading, endsInColon, headingWords, unindented]
    have hlines := hd { r with atLineStart := false, colon := false, awaiting := none } rfl rfl rfl
      hheading
    rw [List.append_assoc, read_append_of_eq hopening, read_append_of_eq hlines]
    exact hclosing _ rfl (by simp) hheading
  · intro r hline hawaiting hheading
    have hopening : r.read [.text .plain "["] = some { r with colon := false } :=
      read_words_inLine hline (by simp)
    have hlines := hd { r with colon := false } hline rfl hawaiting hheading
    rw [List.append_assoc, read_append_of_eq hopening, read_append_of_eq hlines]
    obtain ⟨colon, hread⟩ := hclosing { r with atLineStart := true, colon := false } rfl
      (by simp [hawaiting]) hheading
    refine ⟨colon, ?_⟩
    obtain ⟨column, atLineStart, colon', heading, awaiting⟩ := r
    cases hline
    cases hawaiting
    exact hread

end Expressions

/-! ## Lines -/

/-- A document consists of lines.  It is known whether one of them is code and whether all headings
in it have a line of code below them; the reader stops at one that has none. -/
def Reads (code filled : Bool) (d : Doc) : Prop :=
  ∀ column awaiting, (∀ k ∈ awaiting, k < column) →
    (atLine column awaiting).read d =
      if filled then some (atLine column (if code then none else awaiting)) else none

/-- A document is the start of a line of code outside headings. -/
def OpensLine (d : Doc) : Prop :=
  ∀ column awaiting, (∀ k ∈ awaiting, k < column) → ∃ colon,
    (atLine column awaiting).read d = some ⟨column, false, colon, none, none⟩

/-- A document is the start of a heading. -/
def OpensHeading (d : Doc) : Prop :=
  ∀ column awaiting, (∀ k ∈ awaiting, k < column) → ∃ colon,
    (atLine column awaiting).read d = some ⟨column, false, colon, some column, none⟩

/-- A document is a heading. -/
def IsHeading (d : Doc) : Prop :=
  ∀ column awaiting, (∀ k ∈ awaiting, k < column) →
    (atLine column awaiting).read d = some (atLine column (some column))

/-- A document goes on in a line outside headings, be it a comment or not. -/
def Trails (d : Doc) : Prop :=
  ∀ r : SuiteReader, r.atLineStart = false → r.heading = none →
    ∃ colon, r.read d = some { r with colon := colon }

section Lines

variable {d e : Doc} {s : String} {code code' filled filled' : Bool} {column : Nat}
  {awaiting : Option Nat}

theorem reads_nil : Reads false true [] := fun _ _ _ => rfl

theorem reads_newline : Reads false true [.newline] := fun _ _ _ => rfl

theorem reads_freshLine : Reads false true [.freshLine] := fun _ _ _ => rfl

theorem Reads.append (hd : Reads code filled d) (he : Reads code' filled' e) :
    Reads (code || code') (filled && filled') (d ++ e) := by
  intro column awaiting h
  rw [read_append, hd column awaiting h]
  cases filled with
  | false => rfl
  | true =>
      have hrest : ∀ k ∈ (if code then none else awaiting), k < column := by
        split
        · simp
        · exact h
      refine (he column _ hrest).trans ?_
      cases code <;> simp

theorem exists_reads_flatMap {α : Type} {items : List α} {f : α → Doc}
    (h : ∀ a ∈ items, Reads true true (f a)) : ∃ code, Reads code true (items.flatMap f) := by
  induction items with
  | nil => exact ⟨_, reads_nil⟩
  | cons a rest ih =>
      obtain ⟨ha, hrest⟩ := List.forall_mem_cons.mp h
      obtain ⟨code, hread⟩ := ih hrest
      exact ⟨_, ha.append hread⟩

theorem Begins.opensLine (hd : Begins d) : OpensLine d :=
  fun column awaiting h => hd (atLine column awaiting) rfl h (by simp [atLine])

theorem OpensLine.fresh (hd : OpensLine d) : OpensLine ([.freshLine] ++ d) := hd

theorem OpensLine.append (hd : OpensLine d) (he : Continues e) : OpensLine (d ++ e) := by
  intro column awaiting h
  obtain ⟨colon, hread⟩ := hd column awaiting h
  rw [read_append_of_eq hread]
  exact he _ rfl rfl (by simp)

theorem OpensLine.reads (hd : OpensLine d) : Reads true true (d ++ [.newline]) := by
  intro column awaiting h
  obtain ⟨colon, hread⟩ := hd column awaiting h
  rw [read_append_of_eq hread]
  exact read_newline_outside rfl

theorem IsCode.reads (hd : IsCode d) : Reads true true (d ++ [.newline]) :=
  hd.begins.opensLine.reads

theorem trails_nil : Trails [] := fun r _ _ => ⟨r.colon, rfl⟩

theorem trails_text (role : Role) (s : String) : Trails [.text role s] :=
  fun _ hline _ => read_text_inLine hline role s

theorem Trails.append (hd : Trails d) (he : Trails e) : Trails (d ++ e) := by
  intro r hline hheading
  obtain ⟨colon, hread⟩ := hd r hline hheading
  rw [read_append_of_eq hread]
  exact he _ hline hheading

/-- A comment, from its mark to the end of the line. -/
theorem Trails.reads_comment (hd : Trails d) (hs : s ≠ "") (hcode : startsCode .plain s = false) :
    Reads false true ([.text .plain s] ++ d ++ [.newline]) := by
  intro column awaiting _
  have hmark : (atLine column awaiting).read [.text .plain s] =
      some ⟨column, false, endsInColon s, none, awaiting⟩ := by
    simp [read_text, SuiteReader.text, atLine, hs, hcode]
  obtain ⟨colon, hread⟩ := hd ⟨column, false, endsInColon s, none, awaiting⟩ rfl rfl
  rw [List.append_assoc, read_append_of_eq hmark, read_append_of_eq hread]
  exact read_newline_outside rfl

/-- A word that starts a heading does so whatever follows it. -/
theorem opensHeading_word (word : String) (hword : word ∈ headingWords) (rest : String) :
    OpensHeading [.text .plain (word ++ rest)] := by
  have hwords : startsCode .plain (word ++ rest) = true ∧ startsHeading (word ++ rest) = true ∧
      indentation (word ++ rest) = 0 := by
    simp only [headingWords, List.mem_cons, List.not_mem_nil, or_false] at hword
    rcases hword with rfl | rfl | rfl | rfl | rfl | rfl <;>
      simp [startsCode, startsHeading, indentation, unindented, headingWords,
        String.toList_append]
  obtain ⟨hcode, hheading, hindentation⟩ := hwords
  intro column awaiting h
  refine ⟨endsInColon (word ++ rest), ?_⟩
  rw [read_words_atLineStart rfl (fun k hk => Nat.lt_add_right _ (h k hk)) hcode]
  simp [atLine, hheading, hindentation]

theorem OpensHeading.append (hd : OpensHeading d) (he : Continues e) : OpensHeading (d ++ e) := by
  intro column awaiting h
  obtain ⟨colon, hread⟩ := hd column awaiting h
  rw [read_append_of_eq hread]
  exact he _ rfl rfl (by simp)

theorem OpensHeading.isHeading (hd : OpensHeading d) (hs : endsInColon s) :
    IsHeading (d ++ [.text .plain s, .newline]) := by
  intro column awaiting h
  obtain ⟨colon, hread⟩ := hd column awaiting h
  have hne : s ≠ "" := by
    rintro rfl
    cases hs
  have hsplit : [Step.text .plain s, .newline] = [.text .plain s] ++ [.newline] := rfl
  rw [read_append_of_eq hread, hsplit, read_append_of_eq (read_words_inLine rfl hne), hs]
  exact read_newline_heading Nat.le.refl

/-- A line of fixed words, which may be a heading. -/
theorem read_line (column : Nat) (awaiting : Option Nat) (hcode : startsCode .plain s)
    (hcolon : startsHeading s → endsInColon s)
    (h : ∀ k ∈ awaiting, k < column + indentation s) :
    (atLine column awaiting).read [.text .plain s, .newline] =
      some (atLine column (if startsHeading s then some (column + indentation s) else none)) := by
  have hsplit : [Step.text .plain s, .newline] = [.text .plain s] ++ [.newline] := rfl
  rw [hsplit, read_append_of_eq (read_words_atLineStart rfl h hcode)]
  cases hheading : startsHeading s with
  | false => exact read_newline_outside rfl
  | true =>
      rw [hcolon hheading]
      exact read_newline_heading (Nat.le_add_right _ _)

theorem isHeading_otherwise : IsHeading [.text .plain "else:", .newline] :=
  fun column awaiting h => read_line column awaiting rfl (fun _ => rfl) h

/-- The suite of a heading has a line of code, or else the heading waits for it in vain. -/
theorem IsHeading.reads_suite (hd : IsHeading d) (he : Reads code filled e) :
    Reads true (code && filled) (d ++ ([.indent] ++ (e ++ [.dedent]))) := by
  intro column awaiting h
  have hindent : (atLine column (some column)).read [.indent] =
      some (atLine (column + 4) (some column)) := rfl
  rw [read_append_of_eq (hd column awaiting h), read_append_of_eq hindent, read_append,
    he (column + 4) (some column) (by simp)]
  cases filled with
  | false => simp
  | true =>
      refine (read_dedent (atLine column (if code then none else some column))).trans ?_
      cases code <;> simp [atLine]

/-- Whether the lines of a text are code and deeper than the headings above them; the first one may
have a heading above it. -/
def wellIndented : Option Nat → List String → Bool
  | awaiting, [] => awaiting.isNone
  | awaiting, s :: rest =>
    startsCode .plain s && (!startsHeading s || endsInColon s) &&
      awaiting.all (· < indentation s) &&
      wellIndented (if startsHeading s then some (indentation s) else none) rest

theorem read_wellIndented {lines : List String} (h : wellIndented awaiting lines) :
    (atLine column (awaiting.map (column + ·))).read
        (lines.flatMap fun s => [.text .plain s, .newline]) = some (atLine column none) := by
  induction lines generalizing awaiting with
  | nil =>
      cases awaiting with
      | none => rfl
      | some k => cases h
  | cons s rest ih =>
      simp only [wellIndented, Bool.and_eq_true, Bool.or_eq_true, Bool.not_eq_true'] at h
      obtain ⟨⟨⟨hcode, hcolon⟩, hdeeper⟩, hrest⟩ := h
      have hfirst := read_line column (awaiting.map (column + ·)) hcode
        (by grind) (by cases awaiting <;> simp_all)
      rw [List.flatMap_cons, read_append_of_eq hfirst, ← ih hrest]
      split <;> rfl

/-- A text whose lines are deeper than the headings above them. -/
theorem reads_wellIndented {lines : List String} (h : wellIndented none (s :: lines)) :
    Reads true true ((s :: lines).flatMap fun s => [.text .plain s, .newline]) := by
  intro column awaiting hawaiting
  simp only [wellIndented, Bool.and_eq_true, Bool.or_eq_true, Bool.not_eq_true'] at h
  obtain ⟨⟨⟨hcode, hcolon⟩, -⟩, hrest⟩ := h
  have hfirst := read_line column awaiting hcode (by grind)
    fun k hk => Nat.lt_add_right _ (hawaiting k hk)
  rw [List.flatMap_cons, read_append_of_eq hfirst]
  refine Eq.trans ?_ (read_wellIndented hrest)
  split <;> rfl

theorem suitesFilled_iff (hd : Reads code filled d) : SuitesFilled d ↔ filled := by
  rw [SuitesFilled, hd 0 none (by simp)]
  cases filled <;> simp [atLine]

/-- A comment is no body of a condition. -/
example : ¬SuitesFilled [.text .plain "if x:", .newline, .indent, .text .plain "# y", .newline,
    .dedent] := by decide

end Lines

end TestWriter.Target.Python
