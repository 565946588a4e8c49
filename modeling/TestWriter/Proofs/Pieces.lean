import TestWriter.Proofs.Remarks

/-!
# Pieces of a text

A rendering writes pieces of text, each with the role that says what it names, and comments.  Main
statements: a demand on documents is met by a rendering that is put together from parts which meet
it, so it is enough to look at the comments and at the places where a class, a function, a module, a
helper or a member is named.
-/

namespace TestWriter

namespace Text

theorem lineParts_ne_nil (cs : List Char) : lineParts cs ≠ [] := by
  fun_cases lineParts cs <;> simp

/-- A line has no line ends of its own. -/
theorem lineParts_of_mem {cs part : List Char} (h : part ∈ lineParts cs) :
    lineParts part = [part] := by
  fun_induction lineParts cs generalizing part with
  | case1 => simp_all [lineParts]
  | case2 rest ih =>
      rcases List.mem_cons.mp h with rfl | h
      · rfl
      · exact ih h
  | case3 rest ih =>
      rcases List.mem_cons.mp h with rfl | h
      · rfl
      · exact ih h
  | case4 c rest hcr hlf hnil ih => exact absurd hnil (lineParts_ne_nil rest)
  | case5 c rest hcr hlf first more hparts ih =>
      rw [hparts] at ih
      rcases List.mem_cons.mp h with rfl | h
      · have hfirst := ih List.mem_cons_self
        have hlineFeed : ∀ tail, first ≠ '\n' :: tail := by
          rintro tail rfl
          simp [lineParts] at hfirst
        rw [lineParts]
        · simp only [hfirst]
        · intro tail _ htail
          exact hlineFeed tail htail
        · exact hlf
      · exact ih (List.mem_cons_of_mem _ h)

end Text

namespace Layout

/-- A demand on documents that parts keep when they are put together.  Spaces, words and variables
meet it, and so do the lines of a name that meets it. -/
structure Demand where
  meets : Doc → Prop
  nil : meets []
  append : ∀ d e, meets d → meets e → meets (d ++ e)
  space : ∀ step, (∀ role s, step ≠ .text role s) → meets [step]
  plain : ∀ s, meets [.text .plain s]
  identifier : ∀ name s, meets [.text (.identifier name) s]
  lines : ∀ role s, role ≠ .remark → meets [.text role s] →
    ∀ part ∈ Text.lineParts s.toList, meets [.text role (String.ofList part)]

namespace Demand

/-- A piece on its own meets a demand. -/
def holds (D : Demand) (role : Role) (s : String) : Prop := D.meets [.text role s]

/-- The demand that every piece has a property that words, variables and the lines of a piece
have. -/
def ofPieces (p : Role → String → Prop) (plain : ∀ s, p .plain s)
    (identifier : ∀ name s, p (.identifier name) s)
    (lines : ∀ role s, p role s → ∀ part ∈ Text.lineParts s.toList, p role (String.ofList part)) :
    Demand where
  meets d := ∀ role s, .text role s ∈ d → p role s
  nil role s h := absurd h List.not_mem_nil
  append d e hd he role s h := (List.mem_append.mp h).elim (hd role s) (he role s)
  space step hstep role s h := absurd (List.mem_singleton.mp h).symm (hstep role s)
  plain s role s' h := by
    cases List.mem_singleton.mp h
    exact plain s
  identifier name s role s' h := by
    cases List.mem_singleton.mp h
    exact identifier name s
  lines role s _ hs part hpart role' s' h := by
    cases List.mem_singleton.mp h
    exact lines role s (hs role s (List.mem_singleton_self _)) part hpart

/-- The demand that every piece is a name or a word that meets a demand on its own. -/
def byPieces (D : Demand) : Demand :=
  ofPieces (fun role s => role ≠ .remark ∧ D.holds role s)
    (fun s => ⟨by simp, D.plain s⟩)
    (fun name s => ⟨by simp, D.identifier name s⟩)
    (fun role s hs part hpart => ⟨hs.1, D.lines role s hs.1 hs.2 part hpart⟩)

/-- The remarks of a language meet a demand. -/
def TakesRemarks (D : Demand) (l : Language) : Prop :=
  ∀ r : Target.Remark, r.IsOf l → D.meets r.doc

section

variable {p : Role → String → Prop} {plain : ∀ s, p .plain s}
  {identifier : ∀ name s, p (.identifier name) s}
  {lines : ∀ role s, p role s → ∀ part ∈ Text.lineParts s.toList, p role (String.ofList part)}

@[simp] theorem holds_ofPieces {role : Role} {s : String} :
    (ofPieces p plain identifier lines).holds role s ↔ p role s := by
  constructor
  · exact fun h => h role s (List.mem_singleton_self _)
  · intro h role' s' hmem
    cases List.mem_singleton.mp hmem
    exact h

theorem takesRemarks_ofPieces (h : ∀ s, p .remark s) (l : Language) :
    (ofPieces p plain identifier lines).TakesRemarks l := by
  intro r _ role s hmem
  rcases Target.Remark.role_of_mem hmem with rfl | rfl
  · exact plain s
  · exact h s

end

theorem holds_byPieces {D : Demand} {role : Role} {s : String} (hrole : role ≠ .remark)
    (h : D.holds role s) : D.byPieces.holds role s :=
  holds_ofPieces.mpr ⟨hrole, h⟩

end Demand

/-- A document meets a demand. -/
def Doc.Obeys (D : Demand) (d : Doc) : Prop := D.meets d

/-- What a rendering writes meets a demand. -/
def Rendering.Obeys (D : Demand) (r : Rendering) : Prop := ∀ d, r = .ok d → Doc.Obeys D d

variable {D : Demand}

namespace Doc

theorem obeys_nil : Obeys D [] := D.nil

theorem obeys_append {d e : Doc} (hd : Obeys D d) (he : Obeys D e) : Obeys D (d ++ e) :=
  D.append d e hd he

theorem obeys_cons {step : Step} {d : Doc} (hstep : Obeys D [step]) (hd : Obeys D d) :
    Obeys D (step :: d) :=
  obeys_append hstep hd

theorem obeys_text {role : Role} {s : String} (h : D.holds role s) : Obeys D [.text role s] := h

@[simp] theorem obeys_plain (s : String) : Obeys D [.text .plain s] := D.plain s

@[simp] theorem obeys_newline : Obeys D [.newline] := D.space _ (by simp)

@[simp] theorem obeys_freshLine : Obeys D [.freshLine] := D.space _ (by simp)

@[simp] theorem obeys_indent : Obeys D [.indent] := D.space _ (by simp)

@[simp] theorem obeys_dedent : Obeys D [.dedent] := D.space _ (by simp)

theorem obeys_flatMap {α : Type} {items : List α} {f : α → Doc} (h : ∀ a ∈ items, Obeys D (f a)) :
    Obeys D (items.flatMap f) := by
  induction items with
  | nil => exact obeys_nil
  | cons a rest ih =>
      exact obeys_append (h a List.mem_cons_self) (ih fun b hb => h b (List.mem_cons_of_mem _ hb))

theorem obeys_intersperse {separator : Doc} {ds : List Doc} (hseparator : Obeys D separator)
    (h : ∀ d ∈ ds, Obeys D d) : Obeys D (intersperse separator ds) := by
  fun_induction intersperse separator ds with
  | case1 => exact obeys_nil
  | case2 d => exact h d List.mem_cons_self
  | case3 d rest hrest ih =>
      refine obeys_append (obeys_append (h d List.mem_cons_self) hseparator) (ih ?_)
      exact fun x hx => h x (List.mem_cons_of_mem _ hx)

/-- A document whose pieces meet a demand one by one still meets it when its lines are broken, since
the lines of a piece meet it. -/
theorem obeys_breakLines {d : Doc} (h : Obeys D.byPieces d) : Obeys D d.breakLines := by
  refine obeys_flatMap ?_
  intro step hstep
  cases step with
  | text role s =>
      obtain ⟨hrole, hs⟩ := h role s hstep
      refine obeys_intersperse obeys_newline ?_
      intro line hline
      obtain ⟨part, hpart, rfl⟩ := List.mem_map.mp hline
      exact D.lines role s hrole hs part hpart
  | newline => exact obeys_newline
  | freshLine => exact obeys_freshLine
  | indent => exact obeys_indent
  | dedent => exact obeys_dedent

end Doc

namespace Rendering

theorem obeys_ok {d : Doc} (h : Doc.Obeys D d) : Obeys D (.ok d) := by
  intro d' hd'
  cases hd'
  exact h

@[simp] theorem obeys_ok_iff {d : Doc} : Obeys D (.ok d) ↔ Doc.Obeys D d :=
  ⟨fun h => h d rfl, obeys_ok⟩

@[simp] theorem obeys_error (e : Unsupported) : Obeys D (.error e) := by
  intro d hd
  cases hd

@[simp] theorem obeys_refuse (l : Language) (c : Construct) : Obeys D (Target.refuse l c) :=
  obeys_error _

@[simp] theorem obeys_nothing : Obeys D nothing := obeys_ok Doc.obeys_nil

@[simp] theorem obeys_say (s : String) : Obeys D (say s) := obeys_ok (Doc.obeys_plain s)

theorem obeys_piece {role : Role} {s : String} (h : D.holds role s) : Obeys D (piece role s) :=
  obeys_ok (Doc.obeys_text h)

@[simp] theorem obeys_identifier (name s : String) : Obeys D (piece (.identifier name) s) :=
  obeys_piece (D.identifier name s)

@[simp] theorem obeys_newline : Obeys D newline := obeys_ok Doc.obeys_newline

@[simp] theorem obeys_line (s : String) : Obeys D (line s) :=
  obeys_ok (Doc.obeys_cons (Doc.obeys_plain s) Doc.obeys_newline)

@[simp] theorem obeys_freshLine : Obeys D freshLine := obeys_ok Doc.obeys_freshLine

theorem obeys_indent : Obeys D (.ok [.indent]) := obeys_ok Doc.obeys_indent

theorem obeys_dedent : Obeys D (.ok [.dedent]) := obeys_ok Doc.obeys_dedent

@[simp] theorem obeys_append {a b : Rendering} (ha : Obeys D a) (hb : Obeys D b) :
    Obeys D (a ++ b) := by
  intro d hd
  obtain ⟨x, y, hx, hy, rfl⟩ := append_eq_ok_iff.mp hd
  exact Doc.obeys_append (ha x hx) (hb y hy)

@[simp] theorem obeys_nest {r : Rendering} (h : Obeys D r) : Obeys D (nest r) :=
  obeys_append obeys_indent (obeys_append h obeys_dedent)

@[simp] theorem obeys_concat {rs : List Rendering} (h : ∀ r ∈ rs, Obeys D r) :
    Obeys D (concat rs) := by
  induction rs with
  | nil => exact obeys_nothing
  | cons r rest ih =>
      exact obeys_append (h r List.mem_cons_self) (ih fun x hx => h x (List.mem_cons_of_mem _ hx))

theorem obeys_separated {separator : Rendering} {rs : List Rendering}
    (hseparator : Obeys D separator) (h : ∀ r ∈ rs, Obeys D r) :
    Obeys D (separated separator rs) := by
  fun_induction separated separator rs with
  | case1 => exact obeys_nothing
  | case2 r => exact h r List.mem_cons_self
  | case3 r rest hrest ih =>
      refine obeys_append (obeys_append (h r List.mem_cons_self) hseparator) (ih ?_)
      exact fun x hx => h x (List.mem_cons_of_mem _ hx)

@[simp] theorem obeys_commas {rs : List Rendering} (h : ∀ r ∈ rs, Obeys D r) :
    Obeys D (commas rs) :=
  obeys_separated (obeys_say _) h

theorem obeys_breakLines {r : Rendering} (h : Obeys D.byPieces r) :
    Obeys D (r.map Doc.breakLines) := by
  intro d hd
  cases r with
  | error e => cases hd
  | ok x =>
      cases hd
      exact Doc.obeys_breakLines (h x rfl)

@[simp] theorem obeys_ite {c : Prop} [Decidable c] {a b : Rendering} (ha : Obeys D a)
    (hb : Obeys D b) : Obeys D (if c then a else b) := by
  split
  · exact ha
  · exact hb

end Rendering

end Layout

namespace Target

open Layout Layout.Rendering

variable {D : Demand}

/-- What a block writes meets a demand. -/
structure Block.Obeys (D : Demand) (b : Block) : Prop where
  content : b.content.Obeys D
  sole : ∀ r ∈ b.sole, r.Obeys D

/-- What a stubbing writes meets a demand. -/
structure StubForm.Obeys (D : Demand) (f : StubForm) : Prop where
  arguments : ∀ r ∈ f.arguments, r.Obeys D
  returns : f.returns.Obeys D

/-- Texts behind one mark meet a demand when each of them does, since an empty one leaves only the
mark. -/
theorem obeys_marked {mark : String} (h : ∀ text, Doc.Obeys D (Remark.marked mark text).doc)
    (lines : List String) :
    Doc.Obeys D (lines.flatMap fun text =>
      if text.isEmpty then [.text .plain mark, .newline]
      else [.text .plain mark, .text .plain " ", .text .remark text, .newline]) := by
  refine Doc.obeys_flatMap ?_
  intro text _
  split
  · exact Doc.obeys_cons (Doc.obeys_plain _) Doc.obeys_newline
  · exact h text

@[simp] theorem obeys_linesWithCommas {rs : List Rendering} (h : ∀ r ∈ rs, r.Obeys D) :
    (linesWithCommas rs).Obeys D := by
  fun_induction linesWithCommas rs with
  | case1 => exact obeys_nothing
  | case2 r => exact obeys_append (h r List.mem_cons_self) obeys_newline
  | case3 r rest hrest ih =>
      have htail := ih fun x hx => h x (List.mem_cons_of_mem _ hx)
      exact obeys_append (obeys_append (obeys_append (h r List.mem_cons_self) (obeys_say _))
        obeys_newline) htail

@[simp] theorem obeys_elements (onLines : Bool) {rs : List Rendering} (h : ∀ r ∈ rs, r.Obeys D) :
    (elements onLines rs).Obeys D := by
  simp only [elements]
  split
  · exact obeys_append obeys_newline (obeys_nest (obeys_linesWithCommas h))
  · exact obeys_commas h

theorem obeys_brackets {r : Rendering} (h : r.Obeys D) : (say "(" ++ r ++ say ")").Obeys D :=
  obeys_append (obeys_append (obeys_say _) h) (obeys_say _)

theorem obeys_identifiers {ps : List Parameter} (identifier : String → String) :
    (commas (ps.map fun p => piece (.identifier p.name) (identifier p.name))).Obeys D := by
  refine obeys_commas ?_
  intro r hr
  obtain ⟨p, -, rfl⟩ := List.mem_map.mp hr
  exact obeys_identifier _ _

theorem obeys_lines (texts : List String) : (concat (texts.map line)).Obeys D := by
  refine obeys_concat ?_
  intro r hr
  obtain ⟨text, -, rfl⟩ := List.mem_map.mp hr
  exact obeys_line text

theorem obeys_bracedBranch {f : Block → Rendering} {lead : Rendering} {b b' : Block}
    (hf : ∀ b : Block, b.Obeys D → (f b).Obeys D) (hlead : lead.Obeys D) (hb : b.Obeys D)
    (hb' : b'.Obeys D) : (bracedBranch f lead b b').Obeys D := by
  refine obeys_append (obeys_append (obeys_append hlead (hf b hb)) ?_) (obeys_line _)
  exact obeys_ite obeys_nothing (obeys_append (obeys_line _) (hf b' hb'))

@[simp] theorem obeys_parameterNames (d : Dialect) (ps : List Parameter) :
    (parameterNames d ps).Obeys D :=
  obeys_identifiers d.identifier

namespace MethodForms

variable {f : MethodForms}

/-- The comments that stand between the members of regions meet a demand. -/
structure RemarksObey (D : Demand) (f : MethodForms) : Prop where
  header : ∀ text, (f.regionHeader (some text)).Obeys D
  comments : ∀ lines, Doc.Obeys D (f.dialect.comments lines)

theorem obeys_regionHeader (hremarks : RemarksObey D f) (header : Option String) :
    (f.regionHeader header).Obeys D := by
  cases header with
  | none => exact obeys_nothing
  | some text => exact hremarks.header text

theorem obeys_regionFooter (header : Option String) : (f.regionFooter header).Obeys D := by
  cases header with
  | none => exact obeys_nothing
  | some text => exact obeys_line _

theorem obeys_regionDocumentation (hremarks : RemarksObey D f) (lines : List String) :
    (f.regionDocumentation lines).Obeys D :=
  obeys_ite obeys_nothing (obeys_ok (hremarks.comments lines))

mutual

/-- A region meets a demand that its methods meet. -/
theorem obeys_region (hremarks : RemarksObey D f) :
    ∀ r : Region, (∀ m ∈ r.methods, (f.method m).Obeys D) → (f.region r).Obeys D
  | .mk header documentation items, h => by
      refine obeys_append (obeys_append (obeys_append (obeys_regionHeader hremarks header)
        (obeys_regionDocumentation hremarks documentation)) ?_) (obeys_regionFooter header)
      exact obeys_items hremarks header.isSome items h

theorem obeys_items (hremarks : RemarksObey D f) (apart : Bool) :
    ∀ items : List RegionItem, (∀ m ∈ Region.methodsOf items, (f.method m).Obeys D) →
      (f.items apart items).Obeys D
  | [], _ => obeys_nothing
  | .region r :: rest, h => by
      have hregion := obeys_region hremarks r fun m hm => h m (List.mem_append_left _ hm)
      have hrest := obeys_items hremarks true rest fun m hm => h m (List.mem_append_right _ hm)
      exact obeys_append (obeys_append (obeys_ite obeys_newline obeys_nothing) hregion) hrest
  | .method m :: rest, h => by
      have hrest := obeys_items hremarks true rest fun k hk => h k (List.mem_cons_of_mem _ hk)
      exact obeys_append (obeys_append (obeys_ite obeys_newline obeys_nothing)
        (h m List.mem_cons_self)) hrest

end

/-- The methods of some regions meet a demand. -/
def AllObey (D : Demand) (f : MethodForms) (rs : List Region) : Prop :=
  ∀ m ∈ rs.flatMap Region.methods, (f.method m).Obeys D

theorem AllObey.region {rs : List Region} (h : AllObey D f rs) (hremarks : RemarksObey D f) :
    ∀ r ∈ rs, (f.region r).Obeys D := by
  intro r hr
  exact obeys_region hremarks r fun m hm => h m (List.mem_flatMap.mpr ⟨r, hr, hm⟩)

theorem obeys_regions {rs : List Region} (h : AllObey D f rs) (hremarks : RemarksObey D f) :
    (f.regions rs).Obeys D := by
  refine obeys_separated obeys_newline ?_
  intro r hr
  obtain ⟨region, hregion, rfl⟩ := List.mem_map.mp hr
  exact h.region hremarks region (List.mem_filter.mp hregion).1

end MethodForms

end Target

end TestWriter
