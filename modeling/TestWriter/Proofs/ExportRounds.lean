import TestWriter.Proofs.ExportSections

/-!
# Rounds of updates

A run of updates of a source text without an open section writes what one update with all names
writes.  A source text that opens a section and does not close it gets a second section behind it;
the next update takes the text from the open marker to the end of this section for one section and
replaces it.  Main statement: the condition under which a run of updates keeps the source text.
-/

namespace TestWriter.ExportSection

open Text (FirstBehind parts)

variable {source : String} {exported added : List String} {front rest text : List Char}
  {rounds : List (List String)}

/-! ## Open sections -/

/-- A text that opens a section behind `front` and does not close it in the `rest`. -/
structure OpensAt (text front rest : List Char) : Prop where
  text_eq : text = front ++ beginMarker.toList ++ rest
  opens : FirstBehind front beginMarker.toList
  unclosed : ¬endMarker.toList <:+: rest

theorem OpensAt.section?_eq_none (h : OpensAt text front rest) : section? text = none := by
  rw [section?, Text.cut?_eq_some_iff.mpr ⟨h.text_eq, h.opens⟩]
  simp [Text.cut?_eq_none_iff.mpr h.unclosed]

theorem OpensAt.not_isClosed (h : OpensAt text front rest) : ¬IsClosed text := by
  intro hclosed
  obtain ⟨s, hs⟩ := hclosed ⟨front, rest, h.text_eq.symm⟩
  have hnone := h.section?_eq_none
  rw [section?_eq_some_iff.mpr hs] at hnone
  cases hnone

theorem isClosed_or_opensAt (text : List Char) :
    IsClosed text ∨ ∃ front rest, OpensAt text front rest := by
  cases hbegin : Text.cut? beginMarker.toList text with
  | none => exact Or.inl fun h => absurd h (Text.cut?_eq_none_iff.mp hbegin)
  | some halves =>
      obtain ⟨front, rest⟩ := halves
      obtain ⟨htext, hopens⟩ := Text.cut?_eq_some_iff.mp hbegin
      cases hend : Text.cut? endMarker.toList rest with
      | none => exact Or.inr ⟨front, rest, htext, hopens, Text.cut?_eq_none_iff.mp hend⟩
      | some halves =>
          obtain ⟨body, after⟩ := halves
          obtain ⟨rfl, hcloses⟩ := Text.cut?_eq_some_iff.mp hend
          exact Or.inl fun _ => ⟨⟨front, body, after⟩, htext, hopens, hcloses⟩

theorem OpensAt.sectionNames_eq (h : OpensAt source.toList front rest) :
    sectionNames source = [] := by
  rw [sectionNames, h.section?_eq_none]
  rfl

/-- The section of an open source text after an update: from the open marker to the end of the
section that is written behind the text. -/
theorem OpensAt.of_written (h : OpensAt source.toList front rest)
    (hnames : ∀ name ∈ exported, IsName name) :
    (Sectioned.mk front (rest ++ gap source ++ beginMarker.toList ++ listing exported) ['\n']).Of
      (written source exported).toList := by
  refine ⟨?_, h.opens, ?_⟩
  · rw [toList_written, around, h.section?_eq_none, toList_block, h.text_eq]
    simp only [List.append_assoc]
  · have hne : source ≠ "" := by
      rintro rfl
      have hmarker : beginMarker.toList ≠ [] := by decide
      have htext := h.text_eq
      rw [String.toList_empty] at htext
      exact hmarker (List.append_eq_nil_iff.mp (List.append_eq_nil_iff.mp htext.symm).1).2
    have hapart : ¬endMarker.toList <:+: beginMarker.toList := by
      rw [← Text.cut?_eq_none_iff]
      decide
    have hfeed : '\n' ∉ endMarker.toList := by decide
    -- The line ends before and behind the second opening marker keep the closing marker from
    -- reaching across it.
    have htail : FirstBehind (listing exported).tail endMarker.toList :=
      firstBehind_endMarker fun hcolon =>
        colon_notMem_listing hnames (List.mem_of_mem_tail hcolon)
    have hmarker := htail.append_cons hapart hfeed
    rw [← listing_eq_cons] at hmarker
    have hgap := firstBehind_gap hne hfeed h.unclosed hmarker
    rwa [← List.append_assoc] at hgap

/-! ## Updates of an open section -/

/-- The text outside the first section of a source text stays as it is: the text before the section
and the text after it, and without a section the whole text. -/
def Keeps (source : String) (text : List Char) : Prop :=
  (∀ s : Sectioned, s.Of source.toList → ∃ body, text = s.before ++ body ++ s.after) ∧
    (section? source.toList = none → source.toList <+: text)

theorem IsClosed.keeps_updated (hclosed : IsClosed source.toList)
    (hadded : ∀ name ∈ added, IsName name) : Keeps source (updated source added).toList := by
  obtain ⟨hsection, hfree⟩ := hclosed.updated_keeps hadded
  refine ⟨fun s hs => ?_, hfree⟩
  obtain ⟨body, hbody⟩ := hsection s hs
  refine ⟨beginMarker.toList ++ body ++ endMarker.toList, ?_⟩
  rw [hbody.text_eq]
  simp only [List.append_assoc]

theorem OpensAt.keeps_iff (h : OpensAt source.toList front rest) :
    Keeps source text ↔ source.toList <+: text := by
  rw [Keeps, h.section?_eq_none]
  constructor
  · exact fun hkeeps => hkeeps.2 rfl
  · refine fun hbegins => ⟨fun s hs => ?_, fun _ => hbegins⟩
    exact absurd hs.isClosed h.not_isClosed

/-- The first update with names puts a section behind an open source text. -/
theorem OpensAt.updated_eq_written (h : OpensAt source.toList front rest)
    (hadded : ∀ name ∈ added, IsName name) (hne : added ≠ []) :
    updated source added = written source (extended source added) := by
  have hnew : extended source added ≠ sectionNames source := by
    rw [Ne, extended_eq_sectionNames_iff hadded, h.sectionNames_eq, List.subset_nil]
    exact hne
  rw [updated_eq, if_neg hnew]

/-- Updates after the first keep an open source text when they have no new names, or when what they
write repeats the text that they take out. -/
theorem OpensAt.prefix_updated_iff (h : OpensAt source.toList front rest)
    (hadded : ∀ name ∈ added, IsName name) (hne : added ≠ []) {more : List String}
    (hmore : ∀ name ∈ more, IsName name) :
    source.toList <+: (updated (updated source added) more).toList ↔
      more ⊆ sectionNames (updated source added) ∨
        rest <+: listing (extended (updated source added) more) ++ endMarker.toList ++ ['\n'] := by
  have hof := h.of_written (isName_extended source hadded)
  rw [← h.updated_eq_written hadded hne] at hof
  rw [updated_eq (updated source added), ← extended_eq_sectionNames_iff hmore]
  split
  · next hsame =>
    have hkept : source.toList <+: (updated source added).toList := by
      rw [h.updated_eq_written hadded hne, toList_written, around, h.section?_eq_none]
      simp only [List.append_assoc]
      exact List.prefix_append _ _
    exact iff_of_true hkept (Or.inl hsame)
  · next hnew =>
    rw [or_iff_right hnew, toList_written, around, section?_eq_some_iff.mpr hof, toList_block,
      h.text_eq]
    simp only [List.append_assoc, List.prefix_append_right_inj]

/-! ## The same update a second time -/

/-- What stands behind a colon in the last part is not part of a name. -/
theorem listed_append_of_colon {inner marker more : List Char} (hcolon : ':' ∈ marker)
    (hmarker : ',' ∉ marker) (hmore : ',' ∉ more) :
    listed (inner ++ marker ++ more) = listed (inner ++ marker) := by
  obtain ⟨init, last, hparts⟩ := Text.exists_parts_append ',' inner
  have hmember : memberName (last ++ (marker ++ more)) = memberName (last ++ marker) := by
    have hstops : ((last ++ marker).takeWhile (· ≠ ':')).length ≠ (last ++ marker).length := by
      intro hlength
      have hall := List.takeWhile_prefix (· ≠ ':') |>.eq_of_length hlength
      have hne := List.takeWhile_eq_self_iff.mp hall ':' (List.mem_append_right last hcolon)
      simp at hne
    rw [memberName, ← List.append_assoc, List.takeWhile_append, if_neg hstops, memberName]
  rw [listed, List.append_assoc, hparts _ (by simp [hmarker, hmore]), listed, hparts _ hmarker]
  simp only [List.map_append, List.map_cons, hmember]

/-- Without a brace in the rest of an open source text, the names that are written are read back. -/
theorem OpensAt.sectionNames_written (h : OpensAt source.toList front rest) (hbrace : '{' ∉ rest)
    (hexported : ∀ name ∈ exported, IsName name) (hnodup : exported.Nodup) :
    sectionNames (written source exported) = exported := by
  have hgap : '{' ∉ gap source := fun hmem => absurd (eq_of_mem_gap hmem) (by decide)
  have hmarker : '{' ∉ beginMarker.toList := by decide
  have hopening : '{' ∉ opening := by decide
  have hbody : rest ++ gap source ++ beginMarker.toList ++ listing exported =
      (rest ++ gap source ++ beginMarker.toList ++ opening) ++
        '{' :: (('\n' :: lines exported) ++ '}' :: [';', '\n']) := by
    simp [listing]
  rw [(h.of_written hexported).sectionNames_eq, hbody,
    names_append (by simp [hbrace, hgap, hmarker, hopening]), withoutClosing_append (by decide),
    listed_lines hexported]
  exact foldl_insertLast_of_nodup hnodup

/-- Behind a brace in the rest of an open source text, the first name that is written belongs to a
part that begins in the rest, and is lost in it. -/
theorem OpensAt.sectionNames_written_of_brace {head members : List Char}
    (h : OpensAt source.toList front (head ++ '{' :: members)) (hhead : '{' ∉ head)
    (hname : IsName name) (hexported : ∀ name ∈ exported, IsName name) :
    sectionNames (written source (name :: exported)) =
      (listed (members ++ gap source ++ beginMarker.toList) ++ exported).foldl insertLast [] := by
  have hgap : ',' ∉ gap source := fun hmem => absurd (eq_of_mem_gap hmem) (by decide)
  have hmarker : ',' ∉ beginMarker.toList := by decide
  have hopening : ',' ∉ opening := by decide
  have hbody : head ++ '{' :: members ++ gap source ++ beginMarker.toList ++
        listing (name :: exported) =
      head ++ '{' :: ((members ++ (gap source ++ beginMarker.toList) ++
        (opening ++ ['{', '\n', ' ', ' ', ' ', ' '] ++ name.toList) ++
          ',' :: '\n' :: lines exported) ++ '}' :: [';', '\n']) := by
    simp [listing, lines]
  rw [(h.of_written (List.forall_mem_cons.mpr ⟨hname, hexported⟩)).sectionNames_eq, hbody,
    names_append hhead, withoutClosing_append (by decide), listed_append_cons,
    listed_lines hexported, listed_append_of_colon, ← List.append_assoc]
  · exact List.mem_append_right _ (by decide)
  · simp [hgap, hmarker]
  · simp [hopening, hname.noComma]

/-- The same update of an open source text writes again when the text has a brace behind which its
first name is not listed. -/
theorem OpensAt.update?_again_iff (h : OpensAt source.toList front rest)
    (hadded : ∀ name ∈ added, IsName name) :
    update? (updated source added) added = none ↔
      ∀ head members, rest = head ++ '{' :: members → '{' ∉ head →
        ∀ name, added.head? = some name →
          name ∈ listed (members ++ gap source ++ beginMarker.toList) := by
  have hupdate : update? (updated source added) added = none ↔
      added ⊆ sectionNames (updated source added) := by
    rw [update?_eq, ← extended_eq_sectionNames_iff hadded]
    simp
  rw [hupdate]
  cases added with
  | nil => simp
  | cons first more =>
      obtain ⟨hfirst, hmore⟩ := List.forall_mem_cons.mp hadded
      obtain ⟨others, hextended⟩ : ∃ others, extended source (first :: more) = first :: others := by
        rw [extended_of_isName hadded, h.sectionNames_eq, foldl_insertLast_eq, List.nil_append,
          List.filter_eq_self.mpr (by simp), List.eraseDups_cons]
        exact ⟨_, rfl⟩
      have hothers : ∀ name ∈ others, IsName name := fun name hname =>
        isName_extended source hadded name (hextended ▸ List.mem_cons_of_mem first hname)
      have hnodup : (first :: others).Nodup := hextended ▸ nodup_extended source _
      have hlisted : first :: more ⊆ first :: others := by
        intro name hname
        rw [← hextended, extended_of_isName hadded, mem_foldl_insertLast]
        exact Or.inr hname
      have hbraced : ∀ head members, rest = head ++ '{' :: members → '{' ∉ head →
          sectionNames (updated source (first :: more)) =
            (listed (members ++ gap source ++ beginMarker.toList) ++ others).foldl
              insertLast [] := by
        rintro head members rfl hhead
        rw [h.updated_eq_written hadded (List.cons_ne_nil _ _), hextended,
          h.sectionNames_written_of_brace hhead hfirst hothers]
      constructor
      · rintro hsubset head members hrest hhead name hname
        obtain rfl : first = name := by simpa using hname
        have hmem := hsubset List.mem_cons_self
        rw [hbraced head members hrest hhead, mem_foldl_insertLast, List.mem_append] at hmem
        exact (hmem.resolve_left List.not_mem_nil).resolve_right (List.nodup_cons.mp hnodup).1
      · intro hfound
        by_cases hbrace : '{' ∈ rest
        · obtain ⟨head, members, hrest, hhead⟩ := List.eq_append_cons_of_mem hbrace
          rw [hbraced head members hrest hhead]
          intro name hname
          rw [mem_foldl_insertLast, List.mem_append]
          rcases List.mem_cons.mp (hlisted hname) with rfl | hother
          · exact Or.inr (Or.inl (hfound head members hrest hhead name rfl))
          · exact Or.inr (Or.inr hother)
        · rw [h.updated_eq_written hadded (List.cons_ne_nil _ _), hextended,
            h.sectionNames_written hbrace (List.forall_mem_cons.mpr ⟨hfirst, hothers⟩) hnodup]
          exact hlisted

/-! ## Runs of updates -/

theorem OpensAt.isClosed_updated (h : OpensAt source.toList front rest)
    (hadded : ∀ name ∈ added, IsName name) (hne : added ≠ []) :
    IsClosed (updated source added).toList := by
  rw [h.updated_eq_written hadded hne]
  exact (h.of_written (isName_extended source hadded)).isClosed

theorem foldl_updated_dropWhile (source : String) (rounds : List (List String)) :
    (rounds.dropWhile List.isEmpty).foldl updated source = rounds.foldl updated source := by
  induction rounds with
  | nil => rfl
  | cons added rest ih =>
      cases added with
      | nil => rw [List.dropWhile_cons_of_pos rfl, ih, List.foldl_cons, updated_nil]
      | cons name more => rw [List.dropWhile_cons_of_neg (by simp)]

/-- When a run of updates keeps a source text. -/
theorem keeps_foldl_iff (source : String)
    (hrounds : ∀ added ∈ rounds, ∀ name ∈ added, IsName name) :
    Keeps source (rounds.foldl updated source).toList ↔
      ∀ front rest, OpensAt source.toList front rest →
        ∀ first later, rounds.dropWhile List.isEmpty = first :: later →
          later.flatten ⊆ sectionNames (updated source first) ∨
            rest <+: listing (extended (updated source first) later.flatten) ++
              endMarker.toList ++ ['\n'] := by
  rcases isClosed_or_opensAt source.toList with hclosed | ⟨front, rest, hopen⟩
  · refine iff_of_true ?_ fun front rest hopen => absurd hclosed hopen.not_isClosed
    rw [hclosed.foldl_updated hrounds]
    exact hclosed.keeps_updated (isName_of_mem_flatten hrounds)
  -- Rounds without names leave the section open.  The first round with names closes it, and the
  -- rounds behind it are one update of a closed text.
  rw [← foldl_updated_dropWhile, hopen.keeps_iff]
  cases hdrop : rounds.dropWhile List.isEmpty with
  | nil => exact iff_of_true List.prefix_rfl fun _ _ _ _ _ h => absurd h (by simp)
  | cons first later =>
      have hnonempty : first ≠ [] := by
        have hfirst := List.head?_dropWhile_not List.isEmpty rounds
        rw [hdrop] at hfirst
        simpa using hfirst
      have hnames : ∀ added ∈ first :: later, ∀ name ∈ added, IsName name := by
        intro added hadded
        rw [← hdrop] at hadded
        exact hrounds added ((List.dropWhile_suffix _).subset hadded)
      obtain ⟨hfirst, hlater⟩ := List.forall_mem_cons.mp hnames
      have hclosed := hopen.isClosed_updated hfirst hnonempty
      have hbegins := fun front rest (hopen : OpensAt source.toList front rest) =>
        hopen.prefix_updated_iff hfirst hnonempty (isName_of_mem_flatten hlater)
      rw [List.foldl_cons, hclosed.foldl_updated hlater]
      constructor
      · rintro hkept front rest hopen _ _ ⟨⟩
        exact (hbegins front rest hopen).mp hkept
      · intro hcondition
        exact (hbegins front rest hopen).mpr (hcondition front rest hopen first later rfl)

/-- An update with names closes an open source text. -/
theorem isClosed_foldl_of_names (hrounds : ∀ added ∈ rounds, ∀ name ∈ added, IsName name)
    (hnames : ∃ added ∈ rounds, added ≠ []) : IsClosed (rounds.foldl updated source).toList := by
  induction rounds generalizing source with
  | nil => simp at hnames
  | cons added more ih =>
      obtain ⟨hadded, hmore⟩ := List.forall_mem_cons.mp hrounds
      rw [List.foldl_cons]
      by_cases hne : added = []
      · exact ih hmore (by simpa [hne] using hnames)
      · rcases isClosed_or_opensAt source.toList with hclosed | ⟨front, rest, hopen⟩
        · exact (hclosed.isClosed_updated hadded).isClosed_foldl hmore
        · exact (hopen.isClosed_updated hadded hne).isClosed_foldl hmore

/-- When a run of updates keeps a source text, and when after a step of the run the names of this
step are all exported.  Both always hold without an open section.  A section that is open is taken
for one with the section that the first update puts behind it: the next update replaces the text
from the open marker on, and the first new name is lost in a part of the text before it. -/
theorem update_rounds_keep_iff (source : String)
    (hrounds : ∀ added ∈ rounds, ∀ name ∈ added, IsName name) :
    (Keeps source (rounds.foldl updated source).toList ↔
      ∀ front rest, OpensAt source.toList front rest →
        ∀ first later, rounds.dropWhile List.isEmpty = first :: later →
          later.flatten ⊆ sectionNames (updated source first) ∨
            rest <+: listing (extended (updated source first) later.flatten) ++
              endMarker.toList ++ ['\n']) ∧
      ∀ earlier added, earlier ++ [added] <+: rounds →
        (update? ((earlier ++ [added]).foldl updated source) added = none ↔
          ((∀ names ∈ earlier, names = []) → ∀ front rest, OpensAt source.toList front rest →
            ∀ head members, rest = head ++ '{' :: members → '{' ∉ head →
              ∀ name, added.head? = some name →
                name ∈ listed (members ++ gap source ++ beginMarker.toList))) := by
  refine ⟨keeps_foldl_iff source hrounds, fun earlier added hbegins => ?_⟩
  have hnames : ∀ names ∈ earlier ++ [added], ∀ name ∈ names, IsName name :=
    fun names hnames => hrounds names (hbegins.subset hnames)
  have hadded : ∀ name ∈ added, IsName name := hnames added (by simp)
  have hearlier : ∀ names ∈ earlier, ∀ name ∈ names, IsName name :=
    fun names hmem => hnames names (List.mem_append_left _ hmem)
  rw [List.foldl_append, List.foldl_cons, List.foldl_nil]
  by_cases hempty : ∀ names ∈ earlier, names = []
  · have hsame : earlier.foldl updated source = source := by
      rw [← foldl_updated_dropWhile, List.dropWhile_eq_nil_iff.mpr fun names hmem => by
        rw [hempty names hmem, List.isEmpty_nil]]
      rfl
    rw [hsame]
    rcases isClosed_or_opensAt source.toList with hclosed | ⟨front, rest, hopen⟩
    · exact iff_of_true (hclosed.update?_again hadded (List.Subset.refl _))
        fun _ _ _ hopen => absurd hclosed hopen.not_isClosed
    · constructor
      · exact fun hnone _ front rest hopen => (hopen.update?_again_iff hadded).mp hnone
      · exact fun hlisted => (hopen.update?_again_iff hadded).mpr (hlisted hempty front rest hopen)
  · refine iff_of_true ?_ fun hall => absurd hall hempty
    have hclosed : IsClosed (earlier.foldl updated source).toList :=
      isClosed_foldl_of_names hearlier (by simpa using hempty)
    exact hclosed.update?_again hadded (List.Subset.refl _)

/-- Behind an open marker a line is kept as long as the updates bring nothing new. -/
theorem update_rounds_keep_iff_same_name :
    let source := "// testsmith:exports:begin\nconst rate = 2;\n"
    let rounds := [["add"], ["add"]]
    (∀ added ∈ rounds, ∀ name ∈ added, IsName name) ∧
      Keeps source (rounds.foldl updated source).toList := by
  intro source rounds
  have hadd : IsName "add" := isName_of_forall (by decide) (by simp [Text.isBlank])
  have hrounds : ∀ added ∈ rounds, ∀ name ∈ added, IsName name := by
    simpa [rounds] using hadd
  refine ⟨hrounds, (update_rounds_keep_iff source hrounds).1.mpr ?_⟩
  rintro front rest - first later hdrop
  have hexported : sectionNames (updated source ["add"]) = ["add"] := by decide +kernel
  obtain ⟨rfl, rfl⟩ : first = ["add"] ∧ later = [["add"]] := by
    simpa [rounds, eq_comm] using hdrop
  exact Or.inl (by rw [hexported]; decide)

/-- The section of the second update takes out the line behind the open marker. -/
theorem update_rounds_remove_line :
    let source := "// testsmith:exports:begin\nconst rate = 2;\n"
    ¬Keeps source ([["add"], ["sub"]].foldl updated source).toList ∧
      ¬"const rate = 2;".toList <:+: ([["add"], ["sub"]].foldl updated source).toList := by
  intro source
  have hnone : section? source.toList = none := by decide
  have hlost : ¬"const rate = 2;".toList <:+: ([["add"], ["sub"]].foldl updated source).toList := by
    rw [← Text.cut?_eq_none_iff]
    decide +kernel
  refine ⟨fun hkeeps => hlost ?_, hlost⟩
  have hline : "const rate = 2;".toList <:+: source.toList :=
    ⟨"// testsmith:exports:begin\n".toList, ['\n'], by decide⟩
  exact hline.trans (hkeeps.2 hnone).isInfix

end TestWriter.ExportSection
