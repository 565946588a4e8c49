import TestWriter.Proofs.Pieces

/-!
# Renderings that succeed

A rendering is refused as soon as one of its parts is, so it succeeds when all of them do.  Main
statements: a rendering that is put together from parts succeeds exactly when the parts do, and a
region exactly when its methods do.
-/

namespace TestWriter

open Layout

namespace Layout.Rendering

/-- A rendering writes a document. -/
def Succeeds (r : Rendering) : Prop := ∃ d, r = .ok d

variable {r s : Rendering} {rs : List Rendering}

@[simp] theorem succeeds_ok (d : Doc) : Succeeds (.ok d) := ⟨d, rfl⟩

@[simp] theorem not_succeeds_error (e : Unsupported) : ¬Succeeds (.error e) := by
  rintro ⟨d, h⟩
  cases h

@[simp] theorem not_succeeds_refuse (l : Language) (c : Construct) :
    ¬Succeeds (Target.refuse l c) :=
  not_succeeds_error _

@[simp] theorem succeeds_nothing : nothing.Succeeds := succeeds_ok _

@[simp] theorem succeeds_say (text : String) : (say text).Succeeds := succeeds_ok _

@[simp] theorem succeeds_piece (role : Role) (text : String) : (piece role text).Succeeds :=
  succeeds_ok _

@[simp] theorem succeeds_newline : newline.Succeeds := succeeds_ok _

@[simp] theorem succeeds_line (text : String) : (line text).Succeeds := succeeds_ok _

@[simp] theorem succeeds_freshLine : freshLine.Succeeds := succeeds_ok _

@[simp] theorem succeeds_append_iff : (r ++ s).Succeeds ↔ r.Succeeds ∧ s.Succeeds := by
  constructor
  · rintro ⟨d, h⟩
    obtain ⟨x, y, hx, hy, -⟩ := append_eq_ok_iff.mp h
    exact ⟨⟨x, hx⟩, ⟨y, hy⟩⟩
  · rintro ⟨⟨x, hx⟩, ⟨y, hy⟩⟩
    exact ⟨x ++ y, append_eq_ok_iff.mpr ⟨x, y, hx, hy, rfl⟩⟩

@[simp] theorem succeeds_nest_iff : r.nest.Succeeds ↔ r.Succeeds := by
  have hnest : r.nest = (.ok [.indent] : Rendering) ++ (r ++ (.ok [.dedent] : Rendering)) := rfl
  rw [hnest]
  simp

@[simp] theorem succeeds_concat_iff : (concat rs).Succeeds ↔ ∀ r ∈ rs, r.Succeeds := by
  induction rs with
  | nil => simp [concat]
  | cons r rest ih => simp [concat, ih]

theorem succeeds_separated_iff (hs : s.Succeeds) :
    (separated s rs).Succeeds ↔ ∀ r ∈ rs, r.Succeeds := by
  fun_induction separated s rs with
  | case1 => simp
  | case2 r => simp
  | case3 r rest hrest ih => simp [ih, hs]

@[simp] theorem succeeds_commas_iff : (commas rs).Succeeds ↔ ∀ r ∈ rs, r.Succeeds :=
  succeeds_separated_iff (succeeds_say _)

@[simp] theorem succeeds_map_iff (f : Doc → Doc) : Succeeds (r.map f) ↔ r.Succeeds := by
  cases r with
  | error e => simp [Except.map]
  | ok d => simp [Except.map]

theorem succeeds_ite {c : Prop} [Decidable c] (hr : r.Succeeds) (hs : s.Succeeds) :
    (if c then r else s).Succeeds := by
  split
  · exact hr
  · exact hs

/-! ## Steps of a rendering -/

variable {a b : Rendering} {step : Step}

/-- A rendering has a step in what it writes. -/
def Shows (r : Rendering) (step : Step) : Prop := ∀ d, r = .ok d → step ∈ d

theorem shows_ok {d : Doc} (h : step ∈ d) : Shows (.ok d) step := by
  intro d' hd
  cases hd
  exact h

theorem shows_error (e : Unsupported) : Shows (.error e) step := by
  intro d hd
  cases hd

theorem shows_left (h : a.Shows step) : (a ++ b).Shows step := by
  intro d hd
  obtain ⟨x, y, hx, -, rfl⟩ := append_eq_ok_iff.mp hd
  exact List.mem_append_left _ (h x hx)

theorem shows_right (h : b.Shows step) : (a ++ b).Shows step := by
  intro d hd
  obtain ⟨x, y, -, hy, rfl⟩ := append_eq_ok_iff.mp hd
  exact List.mem_append_right _ (h y hy)

theorem shows_nest (h : r.Shows step) : r.nest.Shows step :=
  shows_right (a := .ok [.indent]) (shows_left (b := .ok [.dedent]) h)

theorem shows_concat (hr : r ∈ rs) (h : r.Shows step) : (concat rs).Shows step := by
  induction rs with
  | nil => cases hr
  | cons first rest ih =>
      rcases List.mem_cons.mp hr with rfl | hr
      · exact shows_left h
      · exact shows_right (ih hr)

theorem shows_separated (separator : Rendering) (hr : r ∈ rs) (h : r.Shows step) :
    (separated separator rs).Shows step := by
  fun_induction separated separator rs with
  | case1 => cases hr
  | case2 first => exact List.mem_singleton.mp hr ▸ h
  | case3 first rest hrest ih =>
      rcases List.mem_cons.mp hr with rfl | hr
      · exact shows_left (shows_left h)
      · exact shows_right (ih hr)

theorem shows_commas (hr : r ∈ rs) (h : r.Shows step) : (commas rs).Shows step :=
  shows_separated _ hr h

end Layout.Rendering

/-- A region with a method has members. -/
theorem Region.isEmpty_eq_false {m : Method} : ∀ r : Region, m ∈ r.methods → r.isEmpty = false
  | .mk _ _ [], hm => nomatch hm
  | .mk _ _ (_ :: _), _ => rfl

namespace Target

open Layout Rendering

/-- The parts of a block succeed. -/
structure Block.Succeeds (b : Block) : Prop where
  content : b.content.Succeeds
  sole : ∀ r ∈ b.sole, r.Succeeds

/-- The parts of a stubbing succeed. -/
structure StubForm.Succeeds (f : StubForm) : Prop where
  arguments : ∀ r ∈ f.arguments, r.Succeeds
  returns : f.returns.Succeeds

variable {rs : List Rendering}

@[simp] theorem succeeds_linesWithCommas_iff :
    (linesWithCommas rs).Succeeds ↔ ∀ r ∈ rs, r.Succeeds := by
  fun_induction linesWithCommas rs with
  | case1 => simp
  | case2 r => simp
  | case3 r rest hrest ih => simp [ih]

@[simp] theorem succeeds_elements_iff (onLines : Bool) :
    (elements onLines rs).Succeeds ↔ ∀ r ∈ rs, r.Succeeds := by
  cases onLines <;> simp [elements]

namespace MethodForms

variable {f : MethodForms}

theorem succeeds_regionHeader (header : Option String) : (f.regionHeader header).Succeeds := by
  cases header <;> simp [regionHeader]

theorem succeeds_regionFooter (header : Option String) : (f.regionFooter header).Succeeds := by
  cases header <;> simp [regionFooter]

theorem succeeds_regionDocumentation (lines : List String) :
    (f.regionDocumentation lines).Succeeds :=
  succeeds_ite succeeds_nothing (succeeds_ok _)

mutual

/-- A region succeeds exactly when its methods do. -/
theorem succeeds_region_iff :
    ∀ r : Region, (f.region r).Succeeds ↔ ∀ m ∈ r.methods, (f.method m).Succeeds
  | .mk header documentation items => by
      have hitems := succeeds_items_iff header.isSome items
      simp only [region, Region.methods, succeeds_append_iff, succeeds_regionHeader,
        succeeds_regionDocumentation, succeeds_regionFooter, hitems, true_and, and_true]

theorem succeeds_items_iff (apart : Bool) :
    ∀ items : List RegionItem,
      (f.items apart items).Succeeds ↔ ∀ m ∈ Region.methodsOf items, (f.method m).Succeeds
  | [] => by simp [items, Region.methodsOf]
  | .region r :: rest => by
      have hapart : (if apart then newline else nothing).Succeeds :=
        succeeds_ite succeeds_newline succeeds_nothing
      simp only [items, Region.methodsOf, succeeds_append_iff, List.forall_mem_append, hapart,
        true_and, succeeds_region_iff r, succeeds_items_iff true rest]
  | .method m :: rest => by
      have hapart : (if apart then newline else nothing).Succeeds :=
        succeeds_ite succeeds_newline succeeds_nothing
      simp only [items, Region.methodsOf, succeeds_append_iff, List.forall_mem_cons, hapart,
        true_and, succeeds_items_iff true rest]

end

/-- The regions that have members hold all methods. -/
theorem forall_inhabited_iff {P : Method → Prop} (rs : List Region) :
    (∀ r ∈ inhabited rs, ∀ m ∈ r.methods, P m) ↔ ∀ m ∈ rs.flatMap Region.methods, P m := by
  constructor
  · intro h m hm
    obtain ⟨r, hr, hm⟩ := List.mem_flatMap.mp hm
    refine h r (List.mem_filter.mpr ⟨hr, ?_⟩) m hm
    rw [r.isEmpty_eq_false hm]
    rfl
  · intro h r hr m hm
    exact h m (List.mem_flatMap.mpr ⟨r, (List.mem_filter.mp hr).1, hm⟩)

theorem succeeds_regions_iff (rs : List Region) :
    (f.regions rs).Succeeds ↔ ∀ m ∈ rs.flatMap Region.methods, (f.method m).Succeeds := by
  rw [← forall_inhabited_iff]
  simp only [regions, succeeds_separated_iff succeeds_newline, List.forall_mem_map,
    succeeds_region_iff]

end MethodForms

end Target

end TestWriter
