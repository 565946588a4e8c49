import TestWriter.Proofs.Successes
import TestWriter.Target.Render

/-!
# The order of methods in a file

A file is written as a list of entries: methods, the lines that open and close a region, and words.
The words do not depend on the methods: when the methods are replaced by others, the file has the
same entries with the other methods in them.  Main statement: every written file has entries whose
methods are those of its class, each once and in order, and whose regions are closed behind their
methods.
-/

namespace TestWriter

/-! ## Regions with other methods -/

namespace Region

mutual

/-- The region with other methods in the place of its own. -/
def mapMethods (φ : Method → Method) : Region → Region
  | .mk header documentation items => .mk header documentation (mapItems φ items)

/-- Members with other methods in the place of their own. -/
def mapItems (φ : Method → Method) : List RegionItem → List RegionItem
  | [] => []
  | .region r :: rest => .region (r.mapMethods φ) :: mapItems φ rest
  | .method m :: rest => .method (φ m) :: mapItems φ rest

end

mutual

/-- The region and the regions in it, each before those in it. -/
def parts : Region → List Region
  | .mk header documentation items => .mk header documentation items :: partsOf items

/-- The regions among some members, and those in them. -/
def partsOf : List RegionItem → List Region
  | [] => []
  | .region r :: rest => r.parts ++ partsOf rest
  | .method _ :: rest => partsOf rest

end

/-- The headers of a region and of the regions in it. -/
def headers (r : Region) : List String := r.parts.filterMap header

variable {φ : Method → Method}

theorem isEmpty_mapMethods : ∀ r : Region, (r.mapMethods φ).isEmpty = r.isEmpty
  | .mk _ _ [] => rfl
  | .mk _ _ (.region _ :: _) => rfl
  | .mk _ _ (.method _ :: _) => rfl

mutual

theorem mapMethods_id : ∀ r : Region, r.mapMethods id = r
  | .mk header documentation items => by rw [mapMethods, mapItems_id items]

theorem mapItems_id : ∀ items : List RegionItem, mapItems id items = items
  | [] => rfl
  | .region r :: rest => by rw [mapItems, mapMethods_id r, mapItems_id rest]
  | .method m :: rest => by rw [mapItems, mapItems_id rest, id]

end

theorem methods_eq_nil : ∀ r : Region, r.isEmpty = true → r.methods = []
  | .mk _ _ [], _ => rfl

/-- The methods of some regions are those of the regions with members. -/
theorem flatMap_methods_inhabited (rs : List Region) :
    (Target.MethodForms.inhabited rs).flatMap methods = rs.flatMap methods := by
  induction rs with
  | nil => rfl
  | cons r rest ih =>
      simp only [Target.MethodForms.inhabited] at ih ⊢
      rw [List.filter_cons, List.flatMap_cons]
      split
      · rw [List.flatMap_cons, ih]
      · next h => rw [ih, r.methods_eq_nil (by simpa using h), List.nil_append]

end Region

/-- The class with other methods in the place of its own. -/
def TestClass.mapMethods (φ : Method → Method) (c : TestClass) : TestClass :=
  { c with regions := c.regions.map (Region.mapMethods φ), statics := c.statics.mapMethods φ }

/-- The file with other methods in the place of its own. -/
def SourceFile.mapMethods (φ : Method → Method) (f : SourceFile) : SourceFile :=
  { f with testClass := f.testClass.mapMethods φ }

theorem SourceFile.mapMethods_id (f : SourceFile) : f.mapMethods id = f := by
  have hid : Region.mapMethods id = id := funext Region.mapMethods_id
  simp only [mapMethods, TestClass.mapMethods, hid, List.map_id, id]

/-! ## Blank documents -/

namespace Layout

/-- A step that writes nothing at the start of a text. -/
def Step.IsBlank : Step → Prop
  | .text _ s => s = ""
  | .newline => False
  | .freshLine | .indent | .dedent => True

/-- A document that writes nothing at the start of a text. -/
def Doc.IsBlank (d : Doc) : Prop := ∀ step ∈ d, step.IsBlank

theorem Doc.isBlank_append_iff {d e : Doc} : (d ++ e).IsBlank ↔ d.IsBlank ∧ e.IsBlank :=
  List.forall_mem_append

namespace Cursor

variable {tab : String} {c : Cursor}

/-- A text never gets shorter. -/
theorem text_run_ne_empty (h : c.text ≠ "") (d : Doc) : (c.run tab d).text ≠ "" := by
  induction d generalizing c with
  | nil => exact h
  | cons step rest ih =>
      refine ih ?_
      cases step with
      | text role s =>
          simp only [step, write]
          split
          · exact h
          · split <;> simp [h]
      | newline => simp [step, newline]
      | freshLine =>
          simp only [step, newline]
          split
          · exact h
          · simp
      | indent => exact h
      | dedent => exact h

theorem step_of_isBlank {step : Step} (hstep : step.IsBlank) (htext : c.text = "")
    (hstart : c.atLineStart = true) :
    (c.step tab step).text = "" ∧ (c.step tab step).atLineStart = true := by
  cases step with
  | text role s =>
      obtain rfl : s = "" := hstep
      exact ⟨htext, hstart⟩
  | newline => exact hstep.elim
  | freshLine => simp [step, htext, hstart]
  | indent => exact ⟨htext, hstart⟩
  | dedent => exact ⟨htext, hstart⟩

theorem text_step_ne_empty {step : Step} (hstep : ¬step.IsBlank) (hstart : c.atLineStart = true) :
    (c.step tab step).text ≠ "" := by
  cases step with
  | text role s =>
      have hs : s ≠ "" := hstep
      simp [step, write, hs, hstart]
  | newline => simp [step, newline]
  | freshLine => exact absurd trivial hstep
  | indent => exact absurd trivial hstep
  | dedent => exact absurd trivial hstep

theorem text_run_eq_empty_iff (htext : c.text = "") (hstart : c.atLineStart = true) (d : Doc) :
    (c.run tab d).text = "" ↔ d.IsBlank := by
  induction d generalizing c with
  | nil => exact iff_of_true htext (by simp [Doc.IsBlank])
  | cons step rest ih =>
      have hrun : c.run tab (step :: rest) = (c.step tab step).run tab rest := rfl
      have hblank : Doc.IsBlank (step :: rest) ↔ step.IsBlank ∧ Doc.IsBlank rest :=
        List.forall_mem_cons
      rw [hrun, hblank]
      by_cases hstep : step.IsBlank
      · obtain ⟨htext', hstart'⟩ := @step_of_isBlank tab c step hstep htext hstart
        exact (ih htext' hstart').trans (and_iff_right hstep).symm
      · exact iff_of_false (text_run_ne_empty (text_step_ne_empty hstep hstart) rest)
          fun h => hstep h.1

end Cursor

theorem Doc.isEmpty_toText_iff (tab : String) (d : Doc) :
    (d.toText tab).isEmpty = true ↔ d.IsBlank := by
  rw [String.isEmpty_iff]
  exact Cursor.text_run_eq_empty_iff rfl rfl d

end Layout

namespace Target

open Layout Rendering

/-! ## Entries -/

/-- What a file is written from. -/
inductive Entry
  /-- Text that does not depend on any method. -/
  | words (r : Rendering)
  /-- The line that opens a region. -/
  | header (text : String)
  /-- The line that closes a region. -/
  | footer
  | method (m : Method)

namespace Entry

/-- The text of an entry, with another method in the place of its own. -/
def write (f : MethodForms) (φ : Method → Method) : Entry → Rendering
  | .words r => r
  | .header text => f.regionHeader (some text)
  | .footer => line f.dialect.words.regionClose
  | .method m => f.method (φ m)

/-- The text of some entries. -/
def writeAll (f : MethodForms) (φ : Method → Method) (es : List Entry) : Rendering :=
  concat (es.map (write f φ))

/-- The method of an entry. -/
def method? : Entry → Option Method
  | .method m => some m
  | _ => none

/-- The header of an entry. -/
def header? : Entry → Option String
  | .header text => some text
  | _ => none

/-- The methods of some entries in order. -/
def methods (es : List Entry) : List Method := es.filterMap method?

/-- The headers of some entries in order. -/
def headers (es : List Entry) : List String := es.filterMap header?

/-- Each line that opens a region has the line that closes it. -/
inductive Matched : List Entry → Prop
  | nil : Matched []
  | words (r : Rendering) {es : List Entry} : Matched es → Matched (.words r :: es)
  | method (m : Method) {es : List Entry} : Matched es → Matched (.method m :: es)
  | enclosed (text : String) {inside after : List Entry} : Matched inside → Matched after →
    Matched (.header text :: inside ++ .footer :: after)

/-- The entries of a region stand between its two lines, when it has a header. -/
def Enclose (es : List Entry) (r : Region) : Prop :=
  ∀ text, r.header = some text → ∃ before inside after,
    es = before ++ .header text :: inside ++ .footer :: after ∧ Matched inside ∧
      methods inside = r.methods

/-- Entries hold methods in order, and between their lines some regions in order. -/
structure Hold (es : List Entry) (ms : List Method) (rs : List Region) : Prop where
  methods_eq : methods es = ms
  headers_eq : headers es = rs.filterMap Region.header
  matched : Matched es
  enclose : ∀ r ∈ rs, Enclose es r

variable {f : MethodForms} {φ : Method → Method} {es xs ys : List Entry} {ms ns : List Method}
  {rs ss : List Region}

theorem methods_append (xs ys : List Entry) : methods (xs ++ ys) = methods xs ++ methods ys :=
  List.filterMap_append

theorem Matched.append (hx : Matched xs) (hy : Matched ys) : Matched (xs ++ ys) := by
  induction hx with
  | nil => exact hy
  | words r _ ih => exact .words r ih
  | method m _ ih => exact .method m ih
  | enclosed text hinside _ _ ih =>
      rw [List.append_assoc]
      exact .enclosed text hinside ih

theorem Enclose.around {r : Region} (h : Enclose es r) (xs ys : List Entry) :
    Enclose (xs ++ es ++ ys) r := by
  intro text htext
  obtain ⟨before, inside, after, rfl, hinside⟩ := h text htext
  exact ⟨xs ++ before, inside, after ++ ys, by simp, hinside⟩

theorem hold_nil : Hold [] [] [] := ⟨rfl, rfl, .nil, by simp⟩

theorem hold_words (r : Rendering) : Hold [.words r] [] [] := ⟨rfl, rfl, .words r .nil, by simp⟩

theorem hold_method (m : Method) : Hold [.method m] [m] [] := ⟨rfl, rfl, .method m .nil, by simp⟩

theorem Hold.append (hx : Hold xs ms rs) (hy : Hold ys ns ss) :
    Hold (xs ++ ys) (ms ++ ns) (rs ++ ss) where
  methods_eq := by rw [methods_append, hx.methods_eq, hy.methods_eq]
  headers_eq := by
    rw [headers, List.filterMap_append, List.filterMap_append]
    exact congr (congrArg _ hx.headers_eq) hy.headers_eq
  matched := hx.matched.append hy.matched
  enclose r hr := by
    rcases List.mem_append.mp hr with hr | hr
    · exact (hx.enclose r hr).around [] ys
    · have h := (hy.enclose r hr).around xs []
      rwa [List.append_nil] at h

/-- The lines of a region enclose what it holds. -/
theorem Hold.enclosed {r : Region} {text : String} (h : Hold es r.methods rs)
    (htext : r.header = some text) :
    Hold (.header text :: es ++ [.footer]) r.methods (r :: rs) where
  methods_eq := by
    rw [methods_append]
    exact (List.append_nil _).trans h.methods_eq
  headers_eq := by
    rw [List.filterMap_cons_some htext, ← h.headers_eq]
    simp [headers, header?]
  matched := .enclosed text h.matched .nil
  enclose part hpart := by
    rcases List.mem_cons.mp hpart with rfl | hpart
    · intro text' htext'
      cases htext.symm.trans htext'
      exact ⟨[], es, [], rfl, h.matched, h.methods_eq⟩
    · exact (h.enclose part hpart).around [.header text] [.footer]

/-- A region without header has no lines of its own. -/
theorem Hold.unmarked {r : Region} (h : Hold es ms rs) (hnone : r.header = none) :
    Hold es ms (r :: rs) where
  methods_eq := h.methods_eq
  headers_eq := by rw [List.filterMap_cons_none hnone, h.headers_eq]
  matched := h.matched
  enclose part hpart := by
    rcases List.mem_cons.mp hpart with rfl | hpart
    · intro text htext
      cases hnone.symm.trans htext
    · exact h.enclose part hpart

theorem writeAll_cons (e : Entry) (es : List Entry) :
    writeAll f φ (e :: es) = e.write f φ ++ writeAll f φ es := rfl

theorem writeAll_append (xs ys : List Entry) :
    writeAll f φ (xs ++ ys) = writeAll f φ xs ++ writeAll f φ ys := by
  induction xs with
  | nil =>
      exact (nothing_append _).symm
  | cons x rest ih => rw [List.cons_append, writeAll_cons, writeAll_cons, ih, append_assoc]

theorem writeAll_words (r : Rendering) : writeAll f φ [.words r] = r := append_nothing r

/-! ## Entries of a region -/

mutual

/-- What a region is written from. -/
def ofRegion (f : MethodForms) : Region → List Entry
  | .mk none documentation items =>
    .words (f.regionDocumentation documentation) :: ofItems f false items
  | .mk (some text) documentation items =>
    .header text :: (.words (f.regionDocumentation documentation) :: ofItems f true items) ++
      [.footer]

/-- What the members of a region are written from. -/
def ofItems (f : MethodForms) (apart : Bool) : List RegionItem → List Entry
  | [] => []
  | .region r :: rest =>
    .words (if apart then newline else nothing) :: ofRegion f r ++ ofItems f true rest
  | .method m :: rest =>
    .words (if apart then newline else nothing) :: .method m :: ofItems f true rest

end

mutual

/-- A region is written from its entries, whatever its methods are. -/
theorem region_mapMethods (f : MethodForms) (φ : Method → Method) :
    ∀ r : Region, f.region (r.mapMethods φ) = writeAll f φ (ofRegion f r)
  | .mk none documentation items => by
      have hitems := items_mapItems f φ false items
      simp only [Region.mapMethods, MethodForms.region, MethodForms.regionHeader,
        MethodForms.regionFooter, Option.isSome_none, ofRegion, writeAll_cons, write, ← hitems,
        nothing_append, append_nothing]
  | .mk (some text) documentation items => by
      have hitems := items_mapItems f φ true items
      simp only [Region.mapMethods, MethodForms.region, MethodForms.regionFooter,
        Option.isSome_some, ofRegion, writeAll_append, writeAll_cons, write, ← hitems, append_assoc]
      rfl

theorem items_mapItems (f : MethodForms) (φ : Method → Method) (apart : Bool) :
    ∀ items : List RegionItem,
      f.items apart (Region.mapItems φ items) = writeAll f φ (ofItems f apart items)
  | [] => rfl
  | .region r :: rest => by
      rw [Region.mapItems, MethodForms.items, region_mapMethods f φ r, items_mapItems f φ true rest,
        ofItems, writeAll_append, writeAll_cons, write]
  | .method m :: rest => by
      rw [Region.mapItems, MethodForms.items, items_mapItems f φ true rest, ofItems, writeAll_cons,
        writeAll_cons, write, write, append_assoc]

end

mutual

/-- The entries of a region hold its methods, and it with the regions in it. -/
theorem hold_ofRegion (f : MethodForms) : ∀ r : Region, Hold (ofRegion f r) r.methods r.parts
  | .mk none _ items =>
      ((hold_words _).append (hold_ofItems f false items)).unmarked rfl
  | .mk (some _) _ items =>
      ((hold_words _).append (hold_ofItems f true items)).enclosed rfl

theorem hold_ofItems (f : MethodForms) (apart : Bool) : ∀ items : List RegionItem,
    Hold (ofItems f apart items) (Region.methodsOf items) (Region.partsOf items)
  | [] => hold_nil
  | .region r :: rest =>
      ((hold_words _).append (hold_ofRegion f r)).append (hold_ofItems f true rest)
  | .method m :: rest =>
      ((hold_words _).append (hold_method m)).append (hold_ofItems f true rest)

end

/-! ## Entries of a file -/

/-- Whatever methods are put in the place of its own, a text is made of the same entries, which hold
some regions. -/
def MadeOf (f : MethodForms) (text : (Method → Method) → Rendering) (rs : List Region) : Prop :=
  ∃ es, (∀ φ, text φ = writeAll f φ es) ∧
    Hold es (rs.flatMap Region.methods) (rs.flatMap Region.parts)

variable {text text' : (Method → Method) → Rendering}

theorem madeOf_words (r : Rendering) : MadeOf f (fun _ => r) [] :=
  ⟨[.words r], fun _ => (writeAll_words r).symm, hold_words r⟩

theorem MadeOf.congr (h : MadeOf f text rs) (heq : ∀ φ, text' φ = text φ) : MadeOf f text' rs := by
  obtain ⟨es, htext, hes⟩ := h
  exact ⟨es, fun φ => (heq φ).trans (htext φ), hes⟩

theorem MadeOf.append (h : MadeOf f text rs) (h' : MadeOf f text' ss) :
    MadeOf f (fun φ => text φ ++ text' φ) (rs ++ ss) := by
  obtain ⟨xs, hx, hxs⟩ := h
  obtain ⟨ys, hy, hys⟩ := h'
  refine ⟨xs ++ ys, fun φ => ?_, ?_⟩
  · dsimp only
    rw [writeAll_append, hx, hy]
  · rw [List.flatMap_append, List.flatMap_append]
    exact hxs.append hys

/-- Words before and behind a text do not change what it holds. -/
theorem MadeOf.between (h : MadeOf f text rs) (head tail : Rendering) :
    MadeOf f (fun φ => head ++ text φ ++ tail) rs := by
  have hbetween := ((madeOf_words (f := f) head).append h).append (madeOf_words (f := f) tail)
  rwa [List.append_nil] at hbetween

theorem MadeOf.nest (h : MadeOf f text rs) : MadeOf f (fun φ => (text φ).nest) rs :=
  (h.between (.ok [.indent]) (.ok [.dedent])).congr fun _ => (append_assoc _ _ _).symm

theorem madeOf_region (f : MethodForms) (r : Region) :
    MadeOf f (fun φ => f.region (r.mapMethods φ)) [r] := by
  refine ⟨ofRegion f r, fun φ => region_mapMethods f φ r, ?_⟩
  rw [List.flatMap_singleton, List.flatMap_singleton]
  exact hold_ofRegion f r

theorem inhabited_map (φ : Method → Method) (rs : List Region) :
    MethodForms.inhabited (rs.map (Region.mapMethods φ)) =
      (MethodForms.inhabited rs).map (Region.mapMethods φ) := by
  simp only [MethodForms.inhabited, List.filter_map]
  congr 2
  funext r
  simp [Region.isEmpty_mapMethods]

/-- Regions with blank lines between them are made of their entries. -/
theorem madeOf_regions (f : MethodForms) (rs : List Region) :
    MadeOf f (fun φ => f.regions (rs.map (Region.mapMethods φ))) (MethodForms.inhabited rs) := by
  have hseparated : ∀ rs : List Region, MadeOf f
      (fun φ => separated newline (rs.map fun r => f.region (r.mapMethods φ))) rs := by
    intro rs
    induction rs with
    | nil => exact madeOf_words nothing
    | cons r rest ih =>
        cases rest with
        | nil => exact madeOf_region f r
        | cons r' rest =>
            have hmade := ((madeOf_region f r).append (madeOf_words newline)).append ih
            exact hmade
  refine (hseparated _).congr fun φ => ?_
  rw [MethodForms.regions, inhabited_map, List.map_map]
  rfl

end Entry

open Entry

/-! ## Languages -/

/-- The regions of a class that are written, in the order in which they are. -/
def writtenRegions (l : Language) (c : TestClass) : List Region :=
  MethodForms.inhabited (if l = .python then c.statics :: c.regions else c.regions ++ [c.statics])

variable (s : Surroundings) (f : SourceFile)

theorem madeOf_regions_class (forms : MethodForms) (c : TestClass) :
    MadeOf forms (fun φ => forms.regions
        ((c.mapMethods φ).regions ++ [(c.mapMethods φ).statics]))
      (MethodForms.inhabited (c.regions ++ [c.statics])) :=
  (madeOf_regions forms _).congr fun φ => by
    rw [TestClass.mapMethods, List.map_append, List.map_singleton]

/-- A file whose head does not depend on methods is made of what its class is made of. -/
theorem madeOf_frame {forms : MethodForms} (file : SourceFile → Rendering)
    (body : TestClass → Rendering) {rs : List Region}
    (hbody : MadeOf forms (fun φ => body (f.testClass.mapMethods φ)) rs)
    (hfile : ∃ (head : SourceFile → Rendering) (tail : Rendering),
      (∀ g, file g = head g ++ body g.testClass ++ tail) ∧
        ∀ g φ, head (SourceFile.mapMethods φ g) = head g) :
    MadeOf forms (fun φ => file (f.mapMethods φ)) rs := by
  obtain ⟨head, tail, hfile, hhead⟩ := hfile
  refine (hbody.between (head f) tail).congr fun φ => ?_
  rw [hfile, hhead]
  rfl

theorem Java.madeOf_file : MadeOf (Java.methods s) (fun φ => Java.file s (f.mapMethods φ))
    (MethodForms.inhabited (f.testClass.regions ++ [f.testClass.statics])) :=
  madeOf_frame f (Java.file s)
    (fun c => nest ((Java.methods s).regions (c.regions ++ [c.statics])))
    (madeOf_regions_class _ _).nest ⟨_, _, fun _ => rfl, fun _ _ => rfl⟩

theorem JavaScript.madeOf_file :
    MadeOf (JavaScript.methods s) (fun φ => JavaScript.file s (f.mapMethods φ))
      (MethodForms.inhabited (f.testClass.regions ++ [f.testClass.statics])) :=
  madeOf_frame f (JavaScript.file s)
    (fun c => nest ((JavaScript.methods s).regions (c.regions ++ [c.statics])))
    (madeOf_regions_class _ _).nest ⟨_, _, fun _ => rfl, fun _ _ => rfl⟩

theorem inhabited_append (rs : List Region) (r : Region) :
    MethodForms.inhabited (rs ++ [r]) =
      MethodForms.inhabited rs ++ if r.isEmpty then [] else [r] := by
  rw [MethodForms.inhabited, List.filter_append]
  cases h : r.isEmpty <;> simp [MethodForms.inhabited, h]

/-- The static methods stand in the companion object, behind the regions. -/
theorem Kotlin.madeOf_body (forms : MethodForms) (c : TestClass) :
    MadeOf forms (fun φ => Kotlin.body forms (c.mapMethods φ))
      (MethodForms.inhabited (c.regions ++ [c.statics])) := by
  cases hkind : c.kind with
  | helpers =>
      refine (madeOf_regions_class forms c).congr fun φ => ?_
      simp only [Kotlin.body, TestClass.mapMethods, hkind]
  | test =>
      have hbody (φ : Method → Method) : Kotlin.body forms (c.mapMethods φ) =
          forms.regions (c.regions.map (Region.mapMethods φ)) ++
            (if c.statics.isEmpty then nothing
             else (if (MethodForms.inhabited c.regions).isEmpty then nothing else newline) ++
              line r"companion object {" ++ nest (forms.region (c.statics.mapMethods φ)) ++
              line r"}") := by
        simp only [Kotlin.body, TestClass.mapMethods, hkind, Region.isEmpty_mapMethods,
          inhabited_map, List.isEmpty_map]
      rw [inhabited_append]
      refine ((madeOf_regions forms c.regions).append ?_).congr hbody
      cases c.statics.isEmpty with
      | true => exact madeOf_words nothing
      | false => exact (madeOf_region forms c.statics).nest.between _ _

theorem Kotlin.madeOf_file : MadeOf (Kotlin.methods s) (fun φ => Kotlin.file s (f.mapMethods φ))
    (MethodForms.inhabited (f.testClass.regions ++ [f.testClass.statics])) :=
  madeOf_frame f (Kotlin.file s)
    (fun c => nest (Kotlin.body (Kotlin.methods s) c))
    (Kotlin.madeOf_body _ _).nest ⟨_, _, fun _ => rfl, fun _ _ => rfl⟩

theorem Go.madeOf_regions (forms : MethodForms) (rs : List Region) :
    MadeOf forms (fun φ => concat ((rs.map (Region.mapMethods φ)).map fun r =>
      newline ++ forms.region r)) rs := by
  induction rs with
  | nil => exact madeOf_words nothing
  | cons r rest ih => exact ((madeOf_words newline).append (madeOf_region forms r)).append ih

theorem Go.madeOf_file (hkind : f.testClass.kind = .test) :
    MadeOf (Go.methods s) (fun φ => Go.file s (f.mapMethods φ))
      (MethodForms.inhabited (f.testClass.regions ++ [f.testClass.statics])) := by
  -- the kind of the class decides whether there is a file at all
  let file (g : SourceFile) := Go.file s { g with testClass := { g.testClass with kind := .test } }
  let body (c : TestClass) := concat ((MethodForms.inhabited (c.regions ++ [c.statics])).map
    fun r => newline ++ (Go.methods s).region r)
  have hbody : MadeOf (Go.methods s) (fun φ => body (f.testClass.mapMethods φ))
      (MethodForms.inhabited (f.testClass.regions ++ [f.testClass.statics])) := by
    refine (Go.madeOf_regions _ _).congr fun φ => ?_
    rw [← inhabited_map, List.map_append]
    rfl
  have hmade := madeOf_frame f file body hbody
    ⟨_, nothing, fun _ => (append_nothing _).symm, fun _ _ => rfl⟩
  refine hmade.congr fun φ => ?_
  rw [SourceFile.mapMethods, TestClass.mapMethods]
  simp only [file, hkind]

/-! ## Python -/

namespace Python

theorem gap_eq {d e : Doc} (h : d.IsBlank ↔ e.IsBlank) : gap d = gap e :=
  ite_congr (propext ((Doc.isEmpty_toText_iff _ d).trans
    (h.trans (Doc.isEmpty_toText_iff _ e).symm))) (fun _ => rfl) (fun _ => rfl)

/-- Every method writes something. -/
theorem not_isBlank_method {m : Method} {d : Doc} (h : (methods s).method m = .ok d) :
    ¬d.IsBlank := by
  have hline : ∀ text, (line text).Shows .newline := fun _ => shows_ok (by simp)
  have hshows : ((methods s).method m).Shows .newline := by
    unfold MethodForms.method
    split
    · next h _ =>
      cases h with
      | deepEquals | iterablesDeepEquals | mapsDeepEquals | hasCustomEquals =>
          exact shows_left (hline _)
      | _ => exact shows_error _
    · exact shows_left (shows_left (shows_left (shows_right (hline _))))
  exact fun hblank => hblank _ (hshows d h)

end Python

/-- Whether entries write anything does not depend on the methods, when every method does. -/
theorem Entry.isBlank_iff {forms : MethodForms} {φ ψ : Method → Method}
    (hmethod : ∀ m d, forms.method m = .ok d → ¬d.IsBlank) {es : List Entry} {d e : Doc}
    (hd : writeAll forms φ es = .ok d) (he : writeAll forms ψ es = .ok e) :
    d.IsBlank ↔ e.IsBlank := by
  induction es generalizing d e with
  | nil =>
      cases hd
      cases he
      rfl
  | cons x rest ih =>
      obtain ⟨x₁, d₁, hx, hrest, rfl⟩ := append_eq_ok_iff.mp hd
      obtain ⟨x₂, d₂, hx', hrest', rfl⟩ := append_eq_ok_iff.mp he
      rw [Doc.isBlank_append_iff, Doc.isBlank_append_iff, ih hrest hrest']
      refine and_congr_left fun _ => ?_
      cases x with
      | method m => exact iff_of_false (hmethod _ _ hx) (hmethod _ _ hx')
      | _ =>
          cases hx.symm.trans hx'
          rfl

namespace Python

/-- A class of tests is made of its regions, which stand below what documents it. -/
theorem madeOf_testClass (forms : MethodForms) (c : TestClass) :
    MadeOf forms (fun φ => testClass forms (c.mapMethods φ)) (MethodForms.inhabited c.regions) := by
  obtain ⟨head, intro, hclass, hframe⟩ : ∃ head intro : TestClass → Rendering,
      (∀ c, testClass forms c = head c ++ nest (intro c ++ forms.regions c.regions)) ∧
        ∀ c φ, head (c.mapMethods φ) = head c ∧ intro (c.mapMethods φ) = intro c := by
    refine ⟨_, _, fun _ => rfl, fun c φ => ⟨rfl, ?_⟩⟩
    simp only [TestClass.mapMethods, inhabited_map, List.isEmpty_map]
  have hregions := (madeOf_words (intro c)).append (madeOf_regions forms c.regions)
  refine ((madeOf_words (head c)).append hregions.nest).congr fun φ => ?_
  rw [hclass, (hframe c φ).1, (hframe c φ).2]
  rfl

/-- The lines that import modules. -/
def importsDoc (f : SourceFile) : Doc :=
  (importLines f.imports).flatMap fun text => [.text .plain text, .newline]

/-- The static methods, apart from what stands above them. -/
def staticsDoc (f : SourceFile) : Rendering :=
  if f.testClass.statics.isEmpty then nothing
  else .ok (gap (importsDoc f)) ++ (methods s).region f.testClass.statics

variable {s f}

theorem file_eq_of_ok {d : Doc} (h : staticsDoc s f = .ok d) :
    file s f = .ok (importsDoc f ++ d ++ gap (importsDoc f ++ d)) ++
      testClass (methods s) f.testClass := by
  rw [staticsDoc, importsDoc] at h
  simp only [file, h]
  rfl

theorem file_eq_of_error {e : Unsupported} (h : staticsDoc s f = .error e) :
    file s f = .error e := by
  rw [staticsDoc, importsDoc] at h
  simp only [file, h]

/-- Static methods write something or not, whatever they are. -/
theorem isBlank_region_iff {φ ψ : Method → Method} {r : Region} {d e : Doc}
    (hd : (methods s).region (r.mapMethods φ) = .ok d)
    (he : (methods s).region (r.mapMethods ψ) = .ok e) : d.IsBlank ↔ e.IsBlank := by
  rw [region_mapMethods] at hd he
  exact Entry.isBlank_iff (fun _ _ => not_isBlank_method s) hd he

theorem staticsDoc_mapMethods (φ : Method → Method) : staticsDoc s (f.mapMethods φ) =
    if f.testClass.statics.isEmpty then nothing
    else .ok (gap (importsDoc f)) ++ (methods s).region (f.testClass.statics.mapMethods φ) := by
  rw [← f.testClass.statics.isEmpty_mapMethods (φ := φ)]
  rfl

/-- The static methods stand above the class. -/
theorem madeOf_file {d : Doc} (h : file s f = .ok d) :
    MadeOf (methods s) (fun φ => file s (f.mapMethods φ))
      (MethodForms.inhabited (f.testClass.statics :: f.testClass.regions)) := by
  have hclass := madeOf_testClass (methods s) f.testClass
  cases hempty : f.testClass.statics.isEmpty with
  | true =>
      have hregions : MethodForms.inhabited (f.testClass.statics :: f.testClass.regions) =
          MethodForms.inhabited f.testClass.regions := by simp [MethodForms.inhabited, hempty]
      rw [hregions]
      have hmade := (madeOf_words (.ok (importsDoc f ++ [] ++ gap (importsDoc f ++ [])))).append
        hclass
      refine hmade.congr fun φ => file_eq_of_ok ?_
      rw [staticsDoc_mapMethods, if_pos hempty]
      rfl
  | false =>
      have hregions : MethodForms.inhabited (f.testClass.statics :: f.testClass.regions) =
          [f.testClass.statics] ++ MethodForms.inhabited f.testClass.regions := by
        simp [MethodForms.inhabited, hempty]
      have hstatics (φ : Method → Method) : staticsDoc s (f.mapMethods φ) =
          .ok (gap (importsDoc f)) ++ (methods s).region (f.testClass.statics.mapMethods φ) := by
        rw [staticsDoc_mapMethods, if_neg (by simp [hempty])]
      obtain ⟨x, hx⟩ : ∃ x, (methods s).region (f.testClass.statics.mapMethods id) = .ok x := by
        cases hregion : (methods s).region (f.testClass.statics.mapMethods id) with
        | ok x => exact ⟨x, rfl⟩
        | error e =>
            have herror := file_eq_of_error ((hstatics id).trans (by rw [hregion]; rfl))
            rw [SourceFile.mapMethods_id, h] at herror
            cases herror
      rw [hregions]
      have hmade := (((madeOf_words (.ok (importsDoc f ++ gap (importsDoc f)))).append
        (madeOf_region (methods s) f.testClass.statics)).append (madeOf_words
          (.ok (gap (importsDoc f ++ (gap (importsDoc f) ++ x)))))).append hclass
      refine hmade.congr fun φ => ?_
      cases hregion : (methods s).region (f.testClass.statics.mapMethods φ) with
      | error e => exact file_eq_of_error ((hstatics φ).trans (by rw [hregion]; rfl))
      | ok y =>
          have hgap : gap (importsDoc f ++ (gap (importsDoc f) ++ y)) =
              gap (importsDoc f ++ (gap (importsDoc f) ++ x)) := by
            refine gap_eq ?_
            simp only [Doc.isBlank_append_iff, isBlank_region_iff hregion hx]
          have himports : importsDoc (f.mapMethods φ) = importsDoc f := rfl
          rw [file_eq_of_ok ((hstatics φ).trans (by rw [hregion]; rfl)), himports, hgap,
            ← List.append_assoc (importsDoc f)]
          rfl

end Python

/-! ## All languages -/

/-- A file that is written is made of the regions of its class. -/
theorem madeOf_fileDoc {settings : Settings} {f : SourceFile} {d : Doc}
    (h : fileDoc settings f = .ok d) :
    MadeOf (Surroundings.ofFile settings f).methodForms (fun φ => fileDoc settings (f.mapMethods φ))
      (writtenRegions settings.language f.testClass) := by
  unfold fileDoc at h
  unfold Surroundings.methodForms fileDoc writtenRegions
  have hsettings : (Surroundings.ofFile settings f).settings = settings := rfl
  rw [hsettings]
  cases hlanguage : settings.language with
  | java => exact Java.madeOf_file _ f
  | kotlin => exact Kotlin.madeOf_file _ f
  | javascript => exact JavaScript.madeOf_file (.ofFile settings f) f
  | python =>
      rw [hlanguage] at h
      exact Python.madeOf_file h
  | go =>
      rw [hlanguage] at h
      refine Go.madeOf_file _ f ?_
      cases hkind : f.testClass.kind with
      | test => rfl
      | helpers =>
          simp only [formsOf, Go.forms, Go.file, hkind] at h
          cases h

/-- A method is opened and closed, or it is a helper, which the target supplies. -/
theorem Surroundings.method_cases (s : Surroundings) (m : Method) :
    (∃ h, m.kind = .helper h ∧ s.methodForms.method m = s.methodForms.helper h) ∨
      (∀ h, m.kind ≠ .helper h) ∧ ∃ above within, s.methodForms.method m =
        above ++ s.methodForms.opening m ++ within ++ s.methodForms.closing m := by
  unfold MethodForms.method
  split
  · next h hkind => exact Or.inl ⟨h, hkind, rfl⟩
  · next hkind =>
    refine Or.inr ⟨hkind, ?_⟩
    unfold Surroundings.methodForms
    cases s.settings.language with
    | python => exact ⟨nothing, _, by rw [nothing_append]; rfl⟩
    | java | kotlin | javascript | go => exact ⟨_, _, rfl⟩

/-- A file is written from entries that do not depend on its methods.  The methods among them are
those of its class, each once and depth first, the static ones last, or first in Python.  The lines
that open and close regions are matched, and each region with a header that is written has all its
methods between its own two lines.  A method that is no helper is opened and closed once. -/
theorem methods_are_written_once {settings : Settings} {f : SourceFile} {d : Doc}
    (h : fileDoc settings f = .ok d) :
    let forms := (Surroundings.ofFile settings f).methodForms
    let regions := writtenRegions settings.language f.testClass
    (∃ entries : List Entry,
      .ok d = writeAll forms id entries ∧
      (∀ φ, fileDoc settings (f.mapMethods φ) = writeAll forms φ entries) ∧
      Entry.methods entries =
        (if settings.language = .python then
          f.testClass.statics.methods ++ f.testClass.regions.flatMap Region.methods
        else f.testClass.methods) ∧
      headers entries = regions.flatMap Region.headers ∧ Matched entries ∧
      ∀ r ∈ regions, ∀ part ∈ r.parts, Enclose entries part) ∧
    ∀ m, (∃ k, m.kind = .helper k ∧ forms.method m = forms.helper k) ∨
      (∀ k, m.kind ≠ .helper k) ∧ ∃ above within,
        forms.method m = above ++ forms.opening m ++ within ++ forms.closing m := by
  intro forms regions
  obtain ⟨entries, htext, hentries⟩ := madeOf_fileDoc h
  refine ⟨⟨entries, ?_, htext, ?_, ?_, hentries.matched, ?_⟩,
    (Surroundings.ofFile settings f).method_cases⟩
  · exact h.symm.trans ((congrArg _ f.mapMethods_id).symm.trans (htext id))
  · rw [hentries.methods_eq, writtenRegions, Region.flatMap_methods_inhabited]
    split
    · rw [List.flatMap_cons]
    · rw [TestClass.methods, List.flatMap_append, List.flatMap_singleton]
  · rw [hentries.headers_eq, List.filterMap_flatMap]
    rfl
  · exact fun r hr part hpart => hentries.enclose part (List.mem_flatMap.mpr ⟨r, hr, hpart⟩)

/-- Two tests, one of them in a region in a region, and a helper among the static methods. -/
def threeMethods : SourceFile :=
  let test (name : String) : Method :=
    ⟨name, .errorReport ⟨.global "Nested", "nest", [], .void, .staticMethod⟩, [], .void, [],
      [.fail "absent"], false⟩
  ⟨none, [], ⟨.global "NestedTest", .test, [], [], none, [],
    [.mk (some "outer") [] [.method (test "test_outer"),
      .region (.mk (some "inner") [] [.method (test "test_inner")])]],
    .mk none [] [.method (.ofHelper .deepEquals)]⟩⟩

/-- Python writes the helper first, and the tests in the order of their regions. -/
theorem methods_are_written_once_python :
    let settings := Settings.forLanguage .python
    ∃ d entries, fileDoc settings threeMethods = .ok d ∧
      .ok d = writeAll (Surroundings.ofFile settings threeMethods).methodForms id entries ∧
      (Entry.methods entries).map Method.name = ["deepEquals", "test_outer", "test_inner"] ∧
      headers entries = ["outer", "inner"] ∧ Matched entries := by
  intro settings
  obtain ⟨d, hd⟩ : ∃ d, fileDoc settings threeMethods = .ok d := ⟨_, rfl⟩
  obtain ⟨⟨entries, htext, -, hmethods, hheaders, hmatched, -⟩, -⟩ := methods_are_written_once hd
  exact ⟨d, entries, hd, htext, congrArg (List.map Method.name) hmethods, hheaders, hmatched⟩

end Target

end TestWriter
