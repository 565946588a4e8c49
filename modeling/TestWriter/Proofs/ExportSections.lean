import Mathlib.Data.List.TakeWhile
import TestWriter.ExportSection

/-!
# Updates of an exports section

An update reads the names of a section and writes them back with the new ones.  What it writes is
read back as it is, because no name that can be read holds a comma, a colon, or blanks at its ends,
whatever stood in the section before.  Main statement: updates of a source text without an open
section compose, a repeated update adds nothing, and only the section changes.
-/

namespace TestWriter.ExportSection

open Text (FirstBehind parts trim)

variable {source : String} {exported added : List String} {name : String}
  {text before body rest inner after : List Char} {s : Sectioned}

/-! ## Names that are read back -/

/-- A name that a section can list: not empty, without comma or colon, and without blanks at its
ends.  Every identifier is one. -/
structure IsName (name : String) : Prop where
  nonempty : name ≠ ""
  noComma : ',' ∉ name.toList
  noColon : ':' ∉ name.toList
  trimmed : trim name.toList = name.toList

theorem isName_of_forall (hne : name ≠ "")
    (h : ∀ c ∈ name.toList, c ≠ ',' ∧ c ≠ ':' ∧ Text.isBlank c = false) : IsName name where
  nonempty := hne
  noComma hc := (h _ hc).1 rfl
  noColon hc := (h _ hc).2.1 rfl
  trimmed := by
    have hkept : ∀ cs : List Char, (∀ c ∈ cs, Text.isBlank c = false) →
        cs.dropWhile Text.isBlank = cs := by
      intro cs hcs
      cases cs with
      | nil => rfl
      | cons c rest => exact List.dropWhile_cons_of_neg (by simp [hcs c])
    have hvisible : ∀ c ∈ name.toList, Text.isBlank c = false := fun c hc => (h c hc).2.2
    rw [trim, hkept _ hvisible, hkept, List.reverse_reverse]
    exact fun c hc => hvisible c (List.mem_reverse.mp hc)

/-- The names between the braces of a section, as often as they stand there. -/
def listed (inner : List Char) : List String :=
  (((parts ',' inner).map memberName).filter fun cs => !cs.isEmpty).map String.ofList

theorem names_of_cut? (h : Text.cut? ['{'] body = some (before, rest)) :
    names body = (listed (withoutClosing rest)).foldl insertLast [] := by
  rw [names, h, listed, List.foldl_map]

theorem names_append (h : '{' ∉ before) :
    names (before ++ '{' :: rest) = (listed (withoutClosing rest)).foldl insertLast [] :=
  names_of_cut? (Text.cut?_eq_some_iff.mpr
    ⟨by simp, Text.firstBehind_of_notMem List.not_mem_nil h⟩)

theorem withoutClosing_append (h : '}' ∉ after) :
    withoutClosing (before ++ '}' :: after) = before := by
  rw [withoutClosing, Text.splitLast?_append before h]

theorem listed_append_cons (front back : List Char) :
    listed (front ++ ',' :: back) = listed front ++ listed back := by
  rw [listed, Text.parts_append_cons, List.map_append, List.filter_append, List.map_append]
  rfl

/-- Blanks in front of a name are not part of it. -/
theorem listed_append_name {blanks : List Char} (hblanks : ∀ c ∈ blanks, Text.isBlank c = true)
    (hcomma : ',' ∉ blanks) (hcolon : ':' ∉ blanks) (h : IsName name) :
    listed (blanks ++ name.toList) = [name] := by
  have hparts : parts ',' (blanks ++ name.toList) = [blanks ++ name.toList] :=
    Text.parts_of_notMem (by simp [hcomma, h.noComma])
  have hmember : memberName (blanks ++ name.toList) = name.toList := by
    have hall : ∀ c ∈ blanks ++ name.toList, decide (c ≠ ':') = true := by
      intro c hc
      refine decide_eq_true ?_
      rintro rfl
      rcases List.mem_append.mp hc with hc | hc
      · exact hcolon hc
      · exact h.noColon hc
    rw [memberName, List.takeWhile_eq_self_iff.mpr hall]
    clear hparts hall hcomma hcolon
    induction blanks with
    | nil => exact h.trimmed
    | cons c blanks ih =>
        obtain ⟨hc, hblanks⟩ := List.forall_mem_cons.mp hblanks
        rw [List.cons_append, Text.trim_cons_of_isBlank hc]
        exact ih hblanks
  have hne : name.toList ≠ [] := fun heq => h.nonempty (String.toList_eq_nil_iff.mp heq)
  simp [listed, hparts, hmember, hne]

theorem isName_of_mem_listed (h : name ∈ listed inner) : IsName name := by
  simp only [listed, List.mem_map, List.mem_filter] at h
  obtain ⟨cs, ⟨⟨part, hpart, rfl⟩, hne⟩, rfl⟩ := h
  have hsub : ∀ c ∈ memberName part, c ∈ part.takeWhile (· ≠ ':') := fun c => Text.mem_of_mem_trim
  refine ⟨?_, ?_, ?_, ?_⟩
  · intro heq
    simp [String.ofList_eq_empty_iff.mp heq] at hne
  · rw [String.toList_ofList]
    intro hc
    exact Text.not_mem_of_mem_parts hpart (List.takeWhile_subset _ (hsub _ hc))
  · rw [String.toList_ofList]
    intro hc
    simpa using List.mem_takeWhile_imp (hsub _ hc)
  · rw [String.toList_ofList]
    exact Text.trim_trim _

theorem isName_of_mem_names (h : name ∈ names body) : IsName name := by
  cases hcut : Text.cut? ['{'] body with
  | none =>
      rw [names, hcut] at h
      cases h
  | some halves =>
      rw [names_of_cut? hcut, mem_foldl_insertLast] at h
      exact isName_of_mem_listed (h.resolve_left List.not_mem_nil)

theorem nodup_names (body : List Char) : (names body).Nodup := by
  cases hcut : Text.cut? ['{'] body with
  | none =>
      rw [names, hcut]
      exact List.nodup_nil
  | some halves =>
      rw [names_of_cut? hcut]
      exact nodup_foldl_insertLast _ List.nodup_nil

/-! ## What is written is read back -/

/-- The text before the opening brace. -/
def opening : List Char := "\nmodule.exports = ".toList

/-- The lines of some names. -/
def lines (exported : List String) : List Char :=
  exported.flatMap fun name => [' ', ' ', ' ', ' '] ++ name.toList ++ [',', '\n']

/-- The text between the markers of a section that is written. -/
def listing (exported : List String) : List Char :=
  opening ++ ['{', '\n'] ++ lines exported ++ ['}', ';', '\n']

theorem listing_eq_cons (exported : List String) :
    listing exported = '\n' :: (listing exported).tail := by
  have hopening : opening = '\n' :: opening.tail := by decide
  rw [listing, hopening]
  simp only [List.cons_append, List.tail_cons]

theorem toList_block (exported : List String) :
    (block exported).toList = beginMarker.toList ++ listing exported ++ endMarker.toList := by
  have hjoin : ∀ {first opens closes last : String} {members : List String}
      {opens' closes' : List Char}, opens.toList = opens' → closes.toList = closes' →
      (first ++ opens ++ String.join members ++ closes ++ last).toList =
        first.toList ++ (opens' ++ members.flatMap String.toList ++ closes') ++ last.toList := by
    rintro first opens closes last members _ _ rfl rfl
    simp
  have hlines : (exported.map fun name => "    " ++ name ++ ",\n").flatMap String.toList =
      lines exported := by
    rw [List.flatMap_map, lines]
    congr
    funext name
    simp
  rw [listing, ← hlines]
  exact hjoin (by decide) (by decide)

/-- Names that can be listed are read back from their lines. -/
theorem listed_lines (h : ∀ name ∈ exported, IsName name) :
    listed ('\n' :: lines exported) = exported := by
  induction exported with
  | nil => decide
  | cons name rest ih =>
      obtain ⟨hname, hrest⟩ := List.forall_mem_cons.mp h
      have hlines : '\n' :: lines (name :: rest) =
          (['\n', ' ', ' ', ' ', ' '] ++ name.toList) ++ ',' :: '\n' :: lines rest := by
        simp [lines]
      rw [hlines, listed_append_cons, ih hrest,
        listed_append_name (by simp [Text.isBlank]) (by decide) (by decide) hname]
      rfl

theorem names_listing (h : ∀ name ∈ exported, IsName name) (hnodup : exported.Nodup) :
    names (listing exported) = exported := by
  have hlisting : listing exported =
      opening ++ '{' :: (('\n' :: lines exported) ++ '}' :: [';', '\n']) := by
    simp [listing]
  rw [hlisting, names_append (by decide), withoutClosing_append (by decide), listed_lines h]
  exact foldl_insertLast_of_nodup hnodup

theorem colon_notMem_listing (h : ∀ name ∈ exported, IsName name) : ':' ∉ listing exported := by
  have hopening : ':' ∉ opening := by decide
  simp only [listing, lines, List.mem_append, List.mem_flatMap, hopening, not_or]
  refine ⟨⟨⟨not_false, by decide⟩, ?_⟩, by decide⟩
  rintro ⟨name, hname, hcolon⟩
  simp [(h name hname).noColon] at hcolon

/-! ## Where the section is -/

/-- The section that a source text has: the text from the first opening marker to the first closing
marker behind it. -/
structure Sectioned.Of (s : Sectioned) (text : List Char) : Prop where
  text_eq : text = s.before ++ beginMarker.toList ++ (s.body ++ endMarker.toList ++ s.after)
  opens : FirstBehind s.before beginMarker.toList
  closes : FirstBehind s.body endMarker.toList

theorem section?_eq_some_iff : section? text = some s ↔ s.Of text := by
  obtain ⟨before, body, after⟩ := s
  simp only [section?, Option.bind_eq_bind, Option.bind_eq_some_iff, Prod.exists]
  constructor
  · rintro ⟨before', rest, hbegin, body', after', hend, heq⟩
    cases heq
    obtain ⟨rfl, hbefore⟩ := Text.cut?_eq_some_iff.mp hbegin
    obtain ⟨rfl, hbody⟩ := Text.cut?_eq_some_iff.mp hend
    exact ⟨rfl, hbefore, hbody⟩
  · rintro ⟨htext, hbefore, hbody⟩
    exact ⟨before, _, Text.cut?_eq_some_iff.mpr ⟨htext, hbefore⟩, body, after,
      Text.cut?_eq_some_iff.mpr ⟨rfl, hbody⟩, rfl⟩

/-- A source text without an open section: where a section begins, it also ends. -/
def IsClosed (text : List Char) : Prop :=
  beginMarker.toList <:+: text → ∃ s : Sectioned, s.Of text

theorem Sectioned.Of.isClosed (h : s.Of text) : IsClosed text :=
  fun _ => ⟨s, h⟩

theorem IsClosed.section_or_free (h : IsClosed text) :
    (∃ s : Sectioned, s.Of text) ∨ section? text = none ∧ ¬beginMarker.toList <:+: text := by
  cases hsection : section? text with
  | some s => exact Or.inl ⟨s, section?_eq_some_iff.mp hsection⟩
  | none =>
      refine Or.inr ⟨rfl, fun hbegins => ?_⟩
      obtain ⟨s, hs⟩ := h hbegins
      rw [section?_eq_some_iff.mpr hs] at hsection
      cases hsection

/-- The names that the section of a source text exports; none without a section. -/
def sectionNames (source : String) : List String :=
  ((section? source.toList).map fun s => names s.body).getD []

theorem Sectioned.Of.sectionNames_eq (h : s.Of source.toList) :
    sectionNames source = names s.body := by
  rw [sectionNames, section?_eq_some_iff.mpr h]
  rfl

theorem isName_of_mem_sectionNames (h : name ∈ sectionNames source) : IsName name := by
  rw [sectionNames] at h
  cases hsection : section? source.toList with
  | none => simp [hsection] at h
  | some s =>
      rw [hsection] at h
      exact isName_of_mem_names h

theorem nodup_sectionNames (source : String) : (sectionNames source).Nodup := by
  rw [sectionNames]
  cases section? source.toList with
  | none => exact List.nodup_nil
  | some s => exact nodup_names s.body

/-! ## What an update writes -/

/-- The source text after an update. -/
def updated (source : String) (added : List String) : String :=
  (update? source added).getD source

/-- The names to be exported after an update: the old ones and then the new ones. -/
def extended (source : String) (added : List String) : List String :=
  (added.filter fun name => !name.isEmpty).foldl insertLast (sectionNames source)

/-- A source text with a section for some names in the place of its own, or behind it. -/
def written (source : String) (exported : List String) : String :=
  match section? source.toList with
  | some s => String.ofList s.before ++ block exported ++ String.ofList s.after
  | none => append source exported

theorem update?_eq (source : String) (added : List String) :
    update? source added =
      if extended source added = sectionNames source then none
      else some (written source (extended source added)) := by
  have hlength : (extended source added).length = (sectionNames source).length ↔
      extended source added = sectionNames source := by
    rw [extended, foldl_insertLast_eq]
    simp
  have hupdate : update? source added =
      if (extended source added).length = (sectionNames source).length then none
      else
        match section? source.toList with
        | some s => some (String.ofList s.before ++ block (extended source added) ++
            String.ofList s.after)
        | none => some (append source (extended source added)) := rfl
  rw [hupdate, if_congr hlength rfl rfl, written]
  cases section? source.toList <;> rfl

theorem updated_eq (source : String) (added : List String) :
    updated source added =
      if extended source added = sectionNames source then source
      else written source (extended source added) := by
  rw [updated, update?_eq]
  split <;> rfl

theorem extended_of_isName (hadded : ∀ name ∈ added, IsName name) :
    extended source added = added.foldl insertLast (sectionNames source) := by
  have hfilter : (added.filter fun name => !name.isEmpty) = added := by
    refine List.filter_eq_self.mpr fun name hname => ?_
    simp [(hadded name hname).nonempty]
  rw [extended, hfilter]

theorem extended_eq_sectionNames_iff (hadded : ∀ name ∈ added, IsName name) :
    extended source added = sectionNames source ↔ added ⊆ sectionNames source := by
  rw [extended_of_isName hadded]
  constructor
  · intro heq name hname
    rw [← heq, mem_foldl_insertLast]
    exact Or.inr hname
  · exact foldl_insertLast_of_subset

theorem updated_nil (source : String) : updated source [] = source := by
  rw [updated_eq, extended]
  exact if_pos rfl

theorem isName_extended (source : String) (hadded : ∀ name ∈ added, IsName name) :
    ∀ name ∈ extended source added, IsName name := by
  intro name h
  rcases (mem_foldl_insertLast _ _).mp h with hold | hnew
  · exact isName_of_mem_sectionNames hold
  · exact hadded name (List.mem_filter.mp hnew).1

theorem nodup_extended (source : String) (added : List String) : (extended source added).Nodup :=
  nodup_foldl_insertLast _ (nodup_sectionNames source)

/-- The line ends between a source text and a section that is put behind it. -/
def gap (source : String) : List Char :=
  if source.isEmpty then [] else if source.toList.getLast? = some '\n' then ['\n'] else ['\n', '\n']

theorem eq_of_mem_gap {c : Char} (h : c ∈ gap source) : c = '\n' := by
  rw [gap] at h
  split at h
  · cases h
  split at h <;> simpa using h

/-- The text before and after the section that is written to a source text. -/
def around (source : String) : List Char × List Char :=
  match section? source.toList with
  | some s => (s.before, s.after)
  | none => (source.toList ++ gap source, ['\n'])

theorem toList_append (source : String) (exported : List String) :
    (append source exported).toList =
      source.toList ++ gap source ++ (block exported).toList ++ ['\n'] := by
  by_cases hempty : source.isEmpty = true
  · obtain rfl := String.isEmpty_iff.mp hempty
    simp [append, gap]
  by_cases hended : source.toList.getLast? = some '\n'
  · simp [append, gap, hempty, hended]
  · simp [append, gap, hempty, hended]

theorem toList_written (source : String) (exported : List String) :
    (written source exported).toList =
      (around source).1 ++ (block exported).toList ++ (around source).2 := by
  rw [written, around]
  cases section? source.toList with
  | some s => simp
  | none => exact toList_append source exported

/-- The line ends keep a pattern within one line away from the text before them. -/
theorem firstBehind_gap {pattern : List Char} (hne : source ≠ "") (hfeed : '\n' ∉ pattern)
    (htext : ¬pattern <:+: text) (hrest : FirstBehind rest pattern) :
    FirstBehind (text ++ gap source ++ rest) pattern := by
  have hfeeds : FirstBehind ([] ++ '\n' :: rest) pattern :=
    hrest.append_cons (fun h => htext (h.trans List.nil_infix)) hfeed
  have hempty : ¬source.isEmpty = true := mt String.isEmpty_iff.mp hne
  rw [gap, if_neg hempty, List.append_assoc]
  split
  · exact hrest.append_cons htext hfeed
  · exact hfeeds.append_cons htext hfeed

/-- Behind a text without colons the closing marker stands for the first time. -/
theorem firstBehind_endMarker (h : ':' ∉ before) : FirstBehind before endMarker.toList := by
  have hmarker : endMarker.toList = "// testsmith".toList ++ ':' :: "exports:end".toList := by
    decide
  rw [hmarker]
  exact Text.firstBehind_of_notMem (by decide) h

/-- The section that is written to a source text without an open section is the one it has
then. -/
theorem IsClosed.of_written (hclosed : IsClosed source.toList)
    (hnames : ∀ name ∈ exported, IsName name) :
    (Sectioned.mk (around source).1 (listing exported) (around source).2).Of
      (written source exported).toList := by
  refine ⟨?_, ?_, firstBehind_endMarker (colon_notMem_listing hnames)⟩
  · rw [toList_written, toList_block]
    simp only [List.append_assoc]
  · rw [around]
    obtain ⟨s, hs⟩ | ⟨hnone, hfree⟩ := hclosed.section_or_free
    · rw [section?_eq_some_iff.mpr hs]
      exact hs.opens
    · rw [hnone]
      by_cases hne : source = ""
      · subst hne
        exact Text.firstBehind_nil
      · have hgap := firstBehind_gap hne (by decide) hfree Text.firstBehind_nil
        rwa [List.append_nil] at hgap

theorem IsClosed.sectionNames_written (hclosed : IsClosed source.toList)
    (hnames : ∀ name ∈ exported, IsName name) (hnodup : exported.Nodup) :
    sectionNames (written source exported) = exported :=
  (hclosed.of_written hnames).sectionNames_eq.trans (names_listing hnames hnodup)

theorem IsClosed.written_written (hclosed : IsClosed source.toList)
    (hnames : ∀ name ∈ exported, IsName name) (later : List String) :
    written (written source exported) later = written source later := by
  have haround : around (written source exported) = around source := by
    rw [around, section?_eq_some_iff.mpr (hclosed.of_written hnames)]
  rw [← String.toList_inj, toList_written, haround, toList_written]

/-! ## Updates one after the other -/

theorem extended_append (added more : List String) :
    extended source (added ++ more) =
      (more.filter fun name => !name.isEmpty).foldl insertLast (extended source added) := by
  rw [extended, List.filter_append, List.foldl_append, extended]

theorem IsClosed.sectionNames_updated (hclosed : IsClosed source.toList)
    (hadded : ∀ name ∈ added, IsName name) :
    sectionNames (updated source added) = extended source added := by
  rw [updated_eq]
  split
  · next hsame => exact hsame.symm
  · exact hclosed.sectionNames_written (isName_extended source hadded)
      (nodup_extended source added)

theorem IsClosed.isClosed_updated (hclosed : IsClosed source.toList)
    (hadded : ∀ name ∈ added, IsName name) : IsClosed (updated source added).toList := by
  rw [updated_eq]
  split
  · exact hclosed
  · exact (hclosed.of_written (isName_extended source hadded)).isClosed

theorem IsClosed.extended_updated (hclosed : IsClosed source.toList)
    (hadded : ∀ name ∈ added, IsName name) (more : List String) :
    extended (updated source added) more = extended source (added ++ more) := by
  rw [extended, hclosed.sectionNames_updated hadded, extended_append]

theorem eq_of_extended_append_eq {more : List String}
    (h : extended source (added ++ more) = sectionNames source) :
    extended source added = sectionNames source := by
  have hold : sectionNames source <+: extended source added := prefix_foldl_insertLast _ _
  have hlater : extended source added <+: extended source (added ++ more) := by
    rw [extended_append]
    exact prefix_foldl_insertLast _ _
  rw [h] at hlater
  exact hlater.eq_of_length_le hold.length_le

/-- Two updates write what one update with the names of both writes. -/
theorem IsClosed.updated_updated (hclosed : IsClosed source.toList)
    (hadded : ∀ name ∈ added, IsName name) (more : List String) :
    updated (updated source added) more = updated source (added ++ more) := by
  by_cases hsame : extended source added = sectionNames source
  · have hextended : extended source (added ++ more) = extended source more := by
      rw [extended_append, hsame, extended]
    rw [updated_eq source added, if_pos hsame, updated_eq, updated_eq source (added ++ more),
      hextended]
  · have hwritten : updated source added = written source (extended source added) := by
      rw [updated_eq, if_neg hsame]
    rw [updated_eq (updated source added), hclosed.sectionNames_updated hadded,
      hclosed.extended_updated hadded, updated_eq source (added ++ more),
      if_neg (mt eq_of_extended_append_eq hsame), hwritten,
      hclosed.written_written (isName_extended source hadded)]
    split
    · next hlater => rw [hlater]
    · rfl

section

variable {rounds : List (List String)}

theorem isName_of_mem_flatten (hrounds : ∀ added ∈ rounds, ∀ name ∈ added, IsName name) :
    ∀ name ∈ rounds.flatten, IsName name := by
  intro name hname
  obtain ⟨added, hadded, hname⟩ := List.mem_flatten.mp hname
  exact hrounds added hadded name hname

/-- A run of updates writes what one update with all names writes. -/
theorem IsClosed.foldl_updated (hclosed : IsClosed source.toList)
    (hrounds : ∀ added ∈ rounds, ∀ name ∈ added, IsName name) :
    rounds.foldl updated source = updated source rounds.flatten := by
  induction rounds generalizing source with
  | nil => exact (updated_nil source).symm
  | cons added rest ih =>
      obtain ⟨hadded, hrest⟩ := List.forall_mem_cons.mp hrounds
      rw [List.foldl_cons, ih (hclosed.isClosed_updated hadded) hrest,
        hclosed.updated_updated hadded, List.flatten_cons]

theorem IsClosed.isClosed_foldl (hclosed : IsClosed source.toList)
    (hrounds : ∀ added ∈ rounds, ∀ name ∈ added, IsName name) :
    IsClosed (rounds.foldl updated source).toList := by
  rw [hclosed.foldl_updated hrounds]
  exact hclosed.isClosed_updated (isName_of_mem_flatten hrounds)

end

theorem IsClosed.update?_again (hclosed : IsClosed source.toList)
    (hadded : ∀ name ∈ added, IsName name) {again : List String} (hagain : again ⊆ added) :
    update? (updated source added) again = none := by
  have hnew : ∀ name ∈ again.filter fun name => !name.isEmpty,
      name ∈ sectionNames (updated source added) := by
    intro name hname
    rw [hclosed.sectionNames_updated hadded]
    obtain ⟨hname, hnonempty⟩ := List.mem_filter.mp hname
    exact (mem_foldl_insertLast _ _).mpr
      (Or.inr (List.mem_filter.mpr ⟨hagain hname, hnonempty⟩))
  rw [update?_eq, extended, if_pos (foldl_insertLast_of_subset hnew)]

/-- The text around a section stays; without a section, the whole text does. -/
theorem IsClosed.updated_keeps (hclosed : IsClosed source.toList)
    (hadded : ∀ name ∈ added, IsName name) :
    (∀ s : Sectioned, s.Of source.toList → ∃ body,
        (Sectioned.mk s.before body s.after).Of (updated source added).toList) ∧
      (section? source.toList = none → source.toList <+: (updated source added).toList) := by
  rw [updated_eq]
  split
  · exact ⟨fun s hs => ⟨s.body, hs⟩, fun _ => List.prefix_rfl⟩
  · constructor
    · intro s hs
      have hwritten := hclosed.of_written (isName_extended source hadded)
      rw [around, section?_eq_some_iff.mpr hs] at hwritten
      exact ⟨_, hwritten⟩
    · intro hnone
      rw [toList_written, around, hnone, List.append_assoc, List.append_assoc]
      exact List.prefix_append _ _

/-- Updates of a source text without an open section compose. -/
theorem updates_compose (hclosed : IsClosed source.toList)
    (hadded : ∀ name ∈ added, IsName name) (more : List String) :
    updated (updated source added) more = updated source (added ++ more) ∧
      (∀ again, again ⊆ added → update? (updated source added) again = none) ∧
      sectionNames (updated source added) = sectionNames source ++
        (added.filter fun name => decide (name ∉ sectionNames source)).eraseDups ∧
      (∀ s : Sectioned, s.Of source.toList → ∃ body,
        (Sectioned.mk s.before body s.after).Of (updated source added).toList) ∧
      (section? source.toList = none → source.toList <+: (updated source added).toList) := by
  refine ⟨hclosed.updated_updated hadded more, fun _ => hclosed.update?_again hadded, ?_,
    hclosed.updated_keeps hadded⟩
  rw [hclosed.sectionNames_updated hadded, extended_of_isName hadded, foldl_insertLast_eq]

/-- A section that lists `n` already is updated by `next` and `n`, and then by `reset`. -/
theorem updates_compose_counter :
    let source := "let n = 0;\n// testsmith:exports:begin\nmodule.exports = {n};\n" ++
      "// testsmith:exports:end\n"
    IsClosed source.toList ∧ (∀ name ∈ ["next", "n"], IsName name) ∧
      updated (updated source ["next", "n"]) ["reset"] = updated source ["next", "n", "reset"] ∧
      sectionNames (updated source ["next", "n"]) = ["n", "next"] := by
  intro source
  have hsection : (section? source.toList).isSome := by decide
  have hclosed : IsClosed source.toList := by
    obtain ⟨s, hs⟩ := Option.isSome_iff_exists.mp hsection
    exact (section?_eq_some_iff.mp hs).isClosed
  have hadded : ∀ name ∈ ["next", "n"], IsName name := by
    have hall : ∀ name ∈ ["next", "n"], name ≠ "" ∧
        ∀ c ∈ name.toList, c ≠ ',' ∧ c ≠ ':' ∧ Text.isBlank c = false := by simp [Text.isBlank]
    exact fun name hname => isName_of_forall (hall name hname).1 (hall name hname).2
  obtain ⟨hcompose, -, hnames, -⟩ := updates_compose hclosed hadded ["reset"]
  refine ⟨hclosed, hadded, hcompose, ?_⟩
  rw [hnames]
  decide

end TestWriter.ExportSection
