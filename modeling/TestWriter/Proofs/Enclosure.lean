import TestWriter.Proofs.CommentRules
import TestWriter.Proofs.Remarks

/-!
# Enclosed remarks

A remark is enclosed when the comment that it opens ends with it: none of its texts stands outside of
the comment, and no code inside.  Main statement: which texts a remark has to hold for that, in each
language.
-/

namespace TestWriter

open Layout

namespace Layout.Cursor

/-- What a cursor writes before its next piece. -/
def lead (tab : String) (c : Cursor) : String := if c.atLineStart then copies tab c.level else ""

/-- The text that a document adds at a cursor. -/
def added (tab : String) (c : Cursor) (d : Doc) : String := ({ c with text := "" }.run tab d).text

/-- A cursor with more text before its own. -/
def after (s : String) (c : Cursor) : Cursor := { c with text := s ++ c.text }

theorem step_after (tab s : String) (c : Cursor) (x : Step) :
    (c.after s).step tab x = (c.step tab x).after s := by
  obtain ⟨text, level, atLineStart⟩ := c
  cases x with
  | text role piece =>
      by_cases hpiece : piece.isEmpty = true <;> cases atLineStart <;>
        simp [step, write, after, hpiece, String.append_assoc]
  | freshLine => cases atLineStart <;> simp [step, newline, after, String.append_assoc]
  | newline => simp [step, newline, after, String.append_assoc]
  | indent | dedent => rfl

theorem run_after (tab s : String) (c : Cursor) (d : Doc) :
    (c.after s).run tab d = (c.run tab d).after s := by
  induction d generalizing c with
  | nil => rfl
  | cons x d ih =>
      show ((c.after s).step tab x).run tab d = ((c.step tab x).run tab d).after s
      rw [step_after, ih]

/-- A document adds its text behind the one that is there. -/
theorem text_run (tab : String) (c : Cursor) (d : Doc) :
    (c.run tab d).text = c.text ++ c.added tab d := by
  have hc : c = Cursor.after c.text { c with text := "" } := by simp [after]
  calc (c.run tab d).text
      = ((Cursor.after c.text { c with text := "" }).run tab d).text := by rw [← hc]
    _ = c.text ++ c.added tab d := by rw [run_after]; rfl

theorem mem_copies {tab : String} {n : Nat} {ch : Char} (h : ch ∈ (copies tab n).toList) :
    ch ∈ tab.toList := by
  induction n with
  | zero => simp [copies] at h
  | succ n ih =>
      simp only [copies, String.toList_append, List.mem_append] at h
      exact h.elim id ih

end Layout.Cursor

namespace Target.Remark

/-! ## What a remark adds -/

/-- One of the lines between the slashes with stars. -/
def starLine (indent text : String) : String :=
  if text.isEmpty then indent ++ " *\n" else indent ++ " * " ++ text ++ "\n"

/-- One of the lines between three quotes. -/
def quoteLine (indent text : String) : String :=
  if text.isEmpty then "\n" else indent ++ text ++ "\n"

/-- A text as it stands between three quotes. -/
def escaped (text : String) : String :=
  String.ofList (Text.Quoted.escapeTripleQuotes text.toList)

variable {tab : String} {c : Cursor}

theorem added_marked {mark text : String} (hmark : mark ≠ "") :
    c.added tab (marked mark text).doc = c.lead tab ++ mark ++ " " ++ text ++ "\n" := by
  obtain ⟨before, level, atLineStart⟩ := c
  by_cases htext : text = "" <;> cases atLineStart <;>
    simp [Cursor.added, Cursor.run, Cursor.step, Cursor.write, Cursor.newline, Cursor.lead, doc,
      hmark, htext, String.append_assoc]

/-- Lines of one form are added one by one at the start of a line. -/
theorem run_lines {f : String → Doc} {line : String → String} {level : Nat}
    (hf : ∀ before text, (⟨before, level, true⟩ : Cursor).run tab (f text) =
      ⟨before ++ line text, level, true⟩) (before : String) (texts : List String) :
    (⟨before, level, true⟩ : Cursor).run tab (texts.flatMap f) =
      ⟨before ++ String.join (texts.map line), level, true⟩ := by
  induction texts generalizing before with
  | nil => simp [Cursor.run]
  | cons text rest ih =>
      rw [List.flatMap_cons, Cursor.run_append, hf, ih, List.map_cons, String.join_cons,
        String.append_assoc]

theorem run_starLine (level : Nat) (before text : String) :
    (⟨before, level, true⟩ : Cursor).run tab (if text.isEmpty then [.text .plain " *", .newline]
      else [.text .plain " * ", .text .remark text, .newline]) =
      ⟨before ++ starLine (Cursor.copies tab level) text, level, true⟩ := by
  by_cases htext : text.isEmpty = true <;>
    simp [htext, starLine, Cursor.run, Cursor.step, Cursor.write, Cursor.newline,
      String.append_assoc]

theorem run_quoteLine (level : Nat) (before text : String) :
    (⟨before, level, true⟩ : Cursor).run tab [.text .remark text, .newline] =
      ⟨before ++ quoteLine (Cursor.copies tab level) text, level, true⟩ := by
  by_cases htext : text.isEmpty = true <;>
    simp [htext, quoteLine, Cursor.run, Cursor.step, Cursor.write, Cursor.newline,
      String.append_assoc]

/-- A word on a line of its own, then lines, then another word. -/
theorem added_lines {f : String → Doc} {line : String → String}
    (hf : ∀ before text, (⟨before, c.level, true⟩ : Cursor).run tab (f text) =
      ⟨before ++ line text, c.level, true⟩) {first last : String} (hfirst : first ≠ "")
    (hlast : last ≠ "") (texts : List String) :
    c.added tab ([.text .plain first, .newline] ++ texts.flatMap f ++
      [.text .plain last, .newline]) =
      c.lead tab ++ first ++ "\n" ++ String.join (texts.map line) ++
        Cursor.copies tab c.level ++ last ++ "\n" := by
  obtain ⟨before, level, atLineStart⟩ := c
  have hopen : (⟨"", level, atLineStart⟩ : Cursor).run tab [.text .plain first, .newline] =
      ⟨(⟨before, level, atLineStart⟩ : Cursor).lead tab ++ first ++ "\n", level, true⟩ := by
    cases atLineStart <;>
      simp [Cursor.run, Cursor.step, Cursor.write, Cursor.newline, Cursor.lead, hfirst]
  simp only [Cursor.added, Cursor.run_append, hopen, run_lines hf]
  simp [Cursor.run, Cursor.step, Cursor.write, Cursor.newline, hlast]

theorem added_starred {documents : Bool} {texts : List String} :
    c.added tab (starred documents texts).doc =
      c.lead tab ++ star documents ++ "\n" ++
        String.join (texts.map (starLine (Cursor.copies tab c.level))) ++
        Cursor.copies tab c.level ++ " */" ++ "\n" :=
  added_lines (run_starLine c.level) (by cases documents <;> decide) (by decide) texts

theorem added_single {text : String} :
    c.added tab (quoted [text]).doc =
      c.lead tab ++ "\"\"\"" ++ escaped text ++ "\"\"\"" ++ "\n" := by
  obtain ⟨before, level, atLineStart⟩ := c
  by_cases htext : escaped text = "" <;> cases atLineStart <;>
    simp [Cursor.added, Cursor.run, Cursor.step, Cursor.write, Cursor.newline, Cursor.lead, doc,
      Python.docstring, ← escaped.eq_def, htext, String.append_assoc]

theorem added_quoted {texts : List String} (h : texts.length ≠ 1) :
    c.added tab (quoted texts).doc =
      c.lead tab ++ "\"\"\"" ++ "\n" ++
        String.join ((texts.map escaped).map (quoteLine (Cursor.copies tab c.level))) ++
        Cursor.copies tab c.level ++ "\"\"\"" ++ "\n" := by
  have hdoc : (quoted texts).doc = [.text .plain "\"\"\"", .newline] ++
      (texts.map escaped).flatMap (fun text => [.text .remark text, .newline]) ++
      [.text .plain "\"\"\"", .newline] := by
    rcases texts with _ | ⟨text, _ | ⟨text', rest⟩⟩
    · rfl
    · exact absurd rfl h
    · rfl
  rw [hdoc]
  exact added_lines (run_quoteLine c.level) (by decide) (by decide) _

/-! ## What a remark leaves outside -/

/-- The word with which the comment of a remark starts. -/
def opening (l : Language) : Remark → String
  | .marked .. => l.lineComment
  | .starred .. => "/*"
  | .quoted _ => "\"\"\""

/-- What stands behind the comment of a remark, given the text behind its first word. -/
def leaves (l : Language) (r : Remark) (body : List Char) : Option (List Char) :=
  match r with
  | .marked .. => some (body.dropWhile fun c => !l.endsLine c)
  | .starred .. => Text.behind (Text.starStep l.nestsComments) ⟨0, none⟩ body
  | .quoted _ => Text.behind Text.quoteStep ⟨false, 0⟩ body

/-- The comment that a remark opens ends with the text that it adds, up to the end of the line. -/
def IsEnclosed (l : Language) (r : Remark) (added : String) : Prop :=
  ∃ body, added.toList.dropWhile Text.isBlank = (r.opening l).toList ++ body ∧
    r.leaves l body = some ['\n']

/-- The texts of a remark can stand in its comment: behind a mark none ends a line, between slashes
with stars none ends the comment and none opens one that stays open, and between quotes on one line
the text ends neither with a quote nor with a backslash. -/
def Fits (l : Language) : Remark → Prop
  | .marked _ text => ∀ c ∈ text.toList, l.endsLine c = false
  | .starred _ texts =>
    if l.nestsComments = true then texts.foldlM (Text.depthBehind true) 0 = some 0
    else ∀ text ∈ texts, ¬['*', '/'] <:+: text.toList
  | .quoted texts =>
    ∀ text, texts = [text] →
      (escaped text).toList.foldlM Text.quoteStep ⟨false, 0⟩ = some ⟨false, 0⟩

variable {l : Language}

theorem isEnclosed_iff {r : Remark} {lead rest : String}
    (hlead : ∀ c ∈ lead.toList, Text.isBlank c = true) :
    r.IsEnclosed l (lead ++ (r.opening l ++ rest)) ↔ r.leaves l rest.toList = some ['\n'] := by
  have hopening : ∃ first more, (r.opening l).toList = first :: more ∧
      Text.isBlank first = false := by
    cases r with
    | marked mark text =>
        cases l with
        | python => exact ⟨'#', [], by simp [opening, Language.lineComment], rfl⟩
        | _ => exact ⟨'/', ['/'], by simp [opening, Language.lineComment], rfl⟩
    | starred documents texts => exact ⟨'/', ['*'], by simp [opening], rfl⟩
    | quoted texts => exact ⟨'"', ['"', '"'], by simp [opening], rfl⟩
  obtain ⟨first, more, hfirst, hblank⟩ := hopening
  have hdrop : (lead ++ (r.opening l ++ rest)).toList.dropWhile Text.isBlank =
      (r.opening l).toList ++ rest.toList := by
    rw [String.toList_append, List.dropWhile_append_of_pos hlead, String.toList_append, hfirst]
    simp [hblank]
  constructor
  · rintro ⟨body, hbody, hleaves⟩
    rw [hdrop] at hbody
    rwa [List.append_cancel_left hbody]
  · exact fun h => ⟨rest.toList, hdrop, h⟩

theorem isBlank_lead (htab : ∀ ch ∈ tab.toList, Text.isBlank ch = true) :
    ∀ ch ∈ (c.lead tab).toList, Text.isBlank ch = true := by
  intro ch hch
  simp only [Cursor.lead] at hch
  split at hch
  · exact htab ch (Cursor.mem_copies hch)
  · simp at hch

/-! ## Behind a mark -/

/-- A mark is the word that starts a comment and no line end. -/
theorem exists_mark {mark text : String} (h : (marked mark text).IsOf l) :
    ∃ tail, mark = l.lineComment ++ tail ∧ ∀ ch ∈ tail.toList, l.endsLine ch = false := by
  rcases h with rfl | rfl
  · exact ⟨"", by simp, by simp⟩
  · cases l
    · exact ⟨"/region", rfl, by simp [Language.endsLine]⟩
    · exact ⟨"region", rfl, by simp [Language.endsLine]⟩
    · exact ⟨"region", rfl, by simp [Language.endsLine]⟩
    · exact ⟨" region", rfl, by simp [Language.endsLine]⟩
    · exact ⟨"region", rfl, by simp [Language.endsLine]⟩

theorem isEnclosed_marked_iff (htab : ∀ ch ∈ tab.toList, Text.isBlank ch = true)
    {mark text : String} (h : (marked mark text).IsOf l) :
    (marked mark text).IsEnclosed l (c.added tab (marked mark text).doc) ↔
      (marked mark text).Fits l := by
  obtain ⟨tail, rfl, htail⟩ := exists_mark h
  have hmark : l.lineComment ++ tail ≠ "" := by cases l <;> simp [Language.lineComment]
  have hadded : c.added tab (marked (l.lineComment ++ tail) text).doc =
      c.lead tab ++ ((marked (l.lineComment ++ tail) text).opening l ++
        (tail ++ " " ++ text ++ "\n")) := by
    rw [added_marked hmark]
    simp [opening, String.append_assoc]
  have hspace : l.endsLine ' ' = false := by cases l <;> rfl
  have hbody : (tail ++ " " ++ text ++ "\n").toList =
      tail.toList ++ ' ' :: text.toList ++ ['\n'] := by simp
  rw [hadded, isEnclosed_iff (isBlank_lead htab), hbody]
  simp only [leaves, Option.some.injEq, Text.dropWhile_line_iff, Fits, List.forall_mem_append,
    List.forall_mem_cons]
  exact ⟨fun h => h.2.2, fun h => ⟨htail, hspace, h⟩⟩

/-! ## Between slashes with stars -/

section

variable {nests : Bool} {depth : Nat}

theorem starStep_of_isBlank {ch : Char} (h : Text.isBlank ch = true) : ch ≠ '*' ∧ ch ≠ '/' := by
  constructor
  · rintro rfl
    cases h
  · rintro rfl
    cases h

/-- A line passes on how many comments its text leaves open. -/
theorem foldlM_starLine {indent text : String}
    (hindent : ∀ ch ∈ indent.toList, Text.isBlank ch = true) :
    (starLine indent text).toList.foldlM (Text.starStep nests) ⟨depth, none⟩ =
      (Text.depthBehind nests depth text).map fun behind => ⟨behind, none⟩ := by
  have hclear : indent.toList.foldlM (Text.starStep nests) ⟨depth, none⟩ =
      some ⟨depth, none⟩ :=
    Text.foldlM_starStep_of_clear fun ch hch => starStep_of_isBlank (hindent ch hch)
  by_cases htext : text.isEmpty = true
  · simp [starLine, String.isEmpty_iff.mp htext, hclear, Text.depthBehind, Text.starStep]
  · have hline : (starLine indent text).toList =
        indent.toList ++ ([' ', '*', ' '] ++ (text.toList ++ ['\n'])) := by
      simp [starLine, htext]
    have hmargin : [' ', '*', ' '].foldlM (Text.starStep nests) ⟨depth, none⟩ =
        some ⟨depth, none⟩ := by simp [Text.starStep]
    have hend : ∀ s, ['\n'].foldlM (Text.starStep nests) s = some ⟨s.depth, none⟩ :=
      fun s => by simp [Text.starStep]
    rw [hline, List.foldlM_append, hclear, Option.bind_eq_bind, Option.bind_some,
      List.foldlM_append, hmargin, Option.bind_eq_bind, Option.bind_some, List.foldlM_append,
      Text.depthBehind]
    cases text.toList.foldlM (Text.starStep nests) ⟨depth, none⟩ with
    | none => rfl
    | some s => exact hend s

theorem foldlM_starLines (nests : Bool) (depth : Nat) {indent : String}
    (hindent : ∀ ch ∈ indent.toList, Text.isBlank ch = true) (texts : List String) :
    (String.join (texts.map (starLine indent))).toList.foldlM (Text.starStep nests)
      ⟨depth, none⟩ =
      (texts.foldlM (Text.depthBehind nests) depth).map fun behind => ⟨behind, none⟩ := by
  induction texts generalizing depth with
  | nil => rfl
  | cons text rest ih =>
      rw [List.map_cons, String.join_cons, String.toList_append, List.foldlM_append,
        foldlM_starLine hindent, List.foldlM_cons]
      cases Text.depthBehind nests depth text with
      | none => rfl
      | some behind => exact ih behind

/-- The last line ends the outermost comment only, so it leaves nothing when no other is open. -/
theorem behind_starEnd_iff {indent : String}
    (hindent : ∀ ch ∈ indent.toList, Text.isBlank ch = true) :
    Text.behind (Text.starStep nests) ⟨depth, none⟩ (indent.toList ++ [' ', '*', '/', '\n']) =
      some ['\n'] ↔ depth = 0 := by
  rw [Text.behind_append (Text.foldlM_starStep_of_clear
    fun ch hch => starStep_of_isBlank (hindent ch hch))]
  cases depth <;> simp [Text.behind, Text.starStep]

/-- A text that ends the comment leaves more than the end of the last line. -/
theorem behind_append_ne {σ : Type} {step : σ → Char → Option σ} {s : σ} {cs : List Char}
    (h : cs.foldlM step s = none) {rest : List Char} (hrest : 1 < rest.length) :
    Text.behind step s (cs ++ rest) ≠ some ['\n'] := by
  obtain ⟨left, hleft⟩ := Text.exists_behind_append h rest
  rw [hleft]
  intro hsome
  have hlength := congrArg List.length (Option.some.inj hsome)
  simp only [List.length_append, List.length_singleton] at hlength
  omega

end

/-- The texts between slashes with stars fit if and only if together they leave the comment open
and no other. -/
theorem fits_starred_iff {documents : Bool} {texts : List String} :
    (starred documents texts).Fits l ↔
      texts.foldlM (Text.depthBehind l.nestsComments) 0 = some 0 := by
  simp only [Fits]
  split
  · next hnests => rw [hnests]
  · next hnests =>
    rw [Bool.not_eq_true] at hnests
    rw [hnests]
    induction texts with
    | nil => simp
    | cons text rest ih =>
        rw [List.forall_mem_cons, ih, ← Text.depthBehind_eq_some_iff, List.foldlM_cons]
        cases hdepth : Text.depthBehind false 0 text with
        | none => simp
        | some behind =>
            obtain rfl := Text.depthBehind_eq_zero hdepth
            simp

theorem isEnclosed_starred_iff (htab : ∀ ch ∈ tab.toList, Text.isBlank ch = true)
    {documents : Bool} {texts : List String} :
    (starred documents texts).IsEnclosed l (c.added tab (starred documents texts).doc) ↔
      (starred documents texts).Fits l := by
  have hindent : ∀ ch ∈ (Cursor.copies tab c.level).toList, Text.isBlank ch = true :=
    fun ch hch => htab ch (Cursor.mem_copies hch)
  obtain ⟨tail, htail, hopen⟩ : ∃ tail, star documents = "/*" ++ tail ∧
      (tail.toList ++ ['\n']).foldlM (Text.starStep l.nestsComments) ⟨0, none⟩ =
        some ⟨0, none⟩ := by
    cases documents with
    | true => exact ⟨"*", by decide, by simp [Text.starStep]⟩
    | false => exact ⟨"", by decide, by simp [Text.starStep]⟩
  have hadded : c.added tab (starred documents texts).doc =
      c.lead tab ++ ((starred documents texts).opening l ++
        (tail ++ "\n" ++ (String.join (texts.map (starLine (Cursor.copies tab c.level))) ++
          (Cursor.copies tab c.level ++ " */\n")))) := by
    rw [added_starred, htail]
    simp [opening, String.append_assoc]
  have hend : (Cursor.copies tab c.level ++ " */\n").toList =
      (Cursor.copies tab c.level).toList ++ [' ', '*', '/', '\n'] := by simp
  have hfirst : (tail ++ "\n").toList = tail.toList ++ ['\n'] := by simp
  have hlines := foldlM_starLines l.nestsComments 0 hindent texts
  rw [hadded, isEnclosed_iff (isBlank_lead htab), fits_starred_iff]
  simp only [leaves]
  rw [String.toList_append, hfirst, Text.behind_append hopen, String.toList_append, hend]
  cases htexts : texts.foldlM (Text.depthBehind l.nestsComments) 0 with
  | none =>
      rw [htexts] at hlines
      exact iff_of_false (behind_append_ne hlines (by simp)) (by simp)
  | some behind =>
      rw [htexts] at hlines
      rw [Text.behind_append hlines, behind_starEnd_iff hindent, Option.some.injEq]

/-! ## Between three quotes -/

theorem quoteStep_of_isBlank {ch : Char} (h : Text.isBlank ch = true) : ch ≠ '"' ∧ ch ≠ '\\' := by
  constructor
  · rintro rfl
    cases h
  · rintro rfl
    cases h

theorem exists_foldlM_escaped (text : String) :
    ∃ s, (escaped text).toList.foldlM Text.quoteStep ⟨false, 0⟩ = some s := by
  have hadmits : Text.QuoteState.Admits ⟨false, 0⟩ text.toList := Or.inl rfl
  simpa [escaped] using hadmits.escaped

/-- Nothing is left open behind a line, whatever its text leaves open. -/
theorem foldlM_quoteLine {indent text : String}
    (hindent : ∀ ch ∈ indent.toList, Text.isBlank ch = true) :
    (quoteLine indent (escaped text)).toList.foldlM Text.quoteStep ⟨false, 0⟩ =
      some ⟨false, 0⟩ := by
  have hclear : indent.toList.foldlM Text.quoteStep ⟨false, 0⟩ = some ⟨false, 0⟩ :=
    Text.foldlM_quoteStep_of_clear fun ch hch => quoteStep_of_isBlank (hindent ch hch)
  have hend : ∀ s, ['\n'].foldlM Text.quoteStep s = some ⟨false, 0⟩ :=
    fun s => by simp [Text.quoteStep]
  by_cases htext : (escaped text).isEmpty = true
  · rw [quoteLine, if_pos htext]
    exact hend _
  · have hline : (quoteLine indent (escaped text)).toList =
        indent.toList ++ ((escaped text).toList ++ ['\n']) := by simp [quoteLine, htext]
    obtain ⟨s, hs⟩ := exists_foldlM_escaped text
    rw [hline, List.foldlM_append, hclear, Option.bind_eq_bind, Option.bind_some,
      List.foldlM_append, hs]
    exact hend s

theorem foldlM_quoteLines {indent : String}
    (hindent : ∀ ch ∈ indent.toList, Text.isBlank ch = true) (texts : List String) :
    (String.join ((texts.map escaped).map (quoteLine indent))).toList.foldlM Text.quoteStep
      ⟨false, 0⟩ = some ⟨false, 0⟩ := by
  induction texts with
  | nil => rfl
  | cons text rest ih =>
      rw [List.map_cons, List.map_cons, String.join_cons, String.toList_append,
        List.foldlM_append, foldlM_quoteLine hindent]
      exact ih

/-- A text on one line fits if it leaves neither a quote nor a backslash open. -/
theorem isEnclosed_single_iff (htab : ∀ ch ∈ tab.toList, Text.isBlank ch = true) {text : String} :
    (quoted [text]).IsEnclosed l (c.added tab (quoted [text]).doc) ↔ (quoted [text]).Fits l := by
  have hadded : c.added tab (quoted [text]).doc =
      c.lead tab ++ ((quoted [text]).opening l ++ (escaped text ++ "\"\"\"\n")) := by
    rw [added_single]
    simp [opening, String.append_assoc]
  have hend : "\"\"\"\n".toList = ['"', '"', '"', '\n'] := by simp
  obtain ⟨s, hs⟩ := exists_foldlM_escaped text
  rw [hadded, isEnclosed_iff (isBlank_lead htab)]
  simp only [leaves, Fits]
  rw [String.toList_append, hend, Text.behind_append hs, Text.behind_quotes_iff]
  constructor
  · rintro rfl text' htext
    cases htext
    exact hs
  · exact fun h => Option.some.inj (hs.symm.trans (h text rfl))

/-- Texts on lines of their own always fit. -/
theorem isEnclosed_quoted (htab : ∀ ch ∈ tab.toList, Text.isBlank ch = true)
    {texts : List String} (h : texts.length ≠ 1) :
    (quoted texts).IsEnclosed l (c.added tab (quoted texts).doc) := by
  have hindent : ∀ ch ∈ (Cursor.copies tab c.level).toList, Text.isBlank ch = true :=
    fun ch hch => htab ch (Cursor.mem_copies hch)
  have hclear : (Cursor.copies tab c.level).toList.foldlM Text.quoteStep ⟨false, 0⟩ =
      some ⟨false, 0⟩ :=
    Text.foldlM_quoteStep_of_clear fun ch hch => quoteStep_of_isBlank (hindent ch hch)
  have hadded : c.added tab (quoted texts).doc =
      c.lead tab ++ ((quoted texts).opening l ++
        ("\n" ++ (String.join ((texts.map escaped).map (quoteLine (Cursor.copies tab c.level))) ++
          (Cursor.copies tab c.level ++ "\"\"\"\n")))) := by
    rw [added_quoted h, show "\"\"\"\n" = "\"\"\"" ++ "\n" by decide]
    simp only [opening, String.append_assoc]
  have hfirst : ("\n".toList).foldlM Text.quoteStep ⟨false, 0⟩ = some ⟨false, 0⟩ := by
    simp [Text.quoteStep]
  have hend : "\"\"\"\n".toList = ['"', '"', '"', '\n'] := by simp
  rw [hadded, isEnclosed_iff (isBlank_lead htab)]
  simp only [leaves]
  rw [String.toList_append, Text.behind_append hfirst, String.toList_append,
    Text.behind_append (foldlM_quoteLines hindent texts), String.toList_append,
    Text.behind_append hclear, hend, Text.behind_quotes_iff]

/-! ## All remarks -/

/-- A remark of a language is enclosed wherever it is written if and only if its texts fit. -/
theorem isEnclosed_iff_fits (htab : ∀ ch ∈ tab.toList, Text.isBlank ch = true) {r : Remark}
    (h : r.IsOf l) (c : Cursor) : r.IsEnclosed l (c.added tab r.doc) ↔ r.Fits l := by
  cases r with
  | marked mark text => exact isEnclosed_marked_iff htab h
  | starred documents texts => exact isEnclosed_starred_iff htab
  | quoted texts =>
      by_cases hlength : texts.length = 1
      · obtain ⟨text, rfl⟩ := List.length_eq_one_iff.mp hlength
        exact isEnclosed_single_iff htab
      · refine iff_of_true (isEnclosed_quoted htab hlength) ?_
        rintro text rfl
        exact absurd rfl hlength

end Target.Remark

end TestWriter
