import TestWriter.Evidence.Encoding
import TestWriter.Proofs.JsonTexts

/-!
# Members that may be absent

The records of the evidence have members with defaults.  A member that holds its default may be left
out of an encoded value, wherever it stands; which members these are depends on what the object
around them is the encoding of.  Main statement: a decoder that asks for the members of a record
finds in a thinned object what it finds in the whole one.
-/

namespace TestWriter.Json

/-- What a value inside encoded evidence is the encoding of. -/
inductive Part
  /-- A text, a number or anything else of which nothing may be left out. -/
  | leaf
  /-- An array of equal parts. -/
  | each (p : Part)
  | className
  | dataType
  | parameter
  | executable
  | value
  /-- The content of a value with a tag. -/
  | content (tag : String)
  | field
  | stub
  | outcome
  | staticStub
  | execution
  | note
  | cluster
  | testSet

/-- The tag among some members. -/
def Fields.tag (fs : Fields) : String :=
  match fs.find? fun member => member.1 == "kind" with
  | some (_, .string tag) => tag
  | _ => ""

namespace Part

/-- What a member of an object is the encoding of; `all` are the members of the object. -/
def member (p : Part) (all : Fields) (key : String) : Part :=
  match p, key with
  | .dataType, "of" =>
    match all.tag with
    | "class" => .className
    | "array" => .dataType
    | _ => .leaf
  | .parameter, "type" => .dataType
  | .executable, "class" => .className
  | .executable, "parameters" => .each .parameter
  | .executable, "return_type" => .dataType
  | .value, "value" => .content all.tag
  | .content _, "class" => .className
  | .content "array", "element" => .dataType
  | .content "array", "values" => .each .value
  | .content "composite", "constructor_args" => .each .value
  | .content _, "fields" => .each .field
  | .content "mock", "stubs" => .each .stub
  | .field, "value" => .value
  | .stub, "arguments" => .each .value
  | .stub, "returns" => .value
  | .outcome, "value" => .value
  | .outcome, "exception" => .className
  | .staticStub, "class" => .className
  | .staticStub, "returns" => .value
  | .execution, "this_instance" => .value
  | .execution, "arguments" => .each .value
  | .execution, "outcome" => .outcome
  | .execution, "static_stubs" => .each .staticStub
  | .cluster, "summary" => .note
  | .testSet, "executable" => .executable
  | .testSet, "executions" => .each .execution
  | .testSet, "clusters" => .each .cluster
  | _, _ => .leaf

/-- The value that a member is taken to have in its absence. -/
def default? (p : Part) (key : String) : Option Json :=
  match p, key with
  | .className, "package" => some (.string "")
  | .executable, "parameters" => some (.array [])
  | .executable, "return_type" => some (.object [("kind", .string "void")])
  | .executable, "kind" => some (.string "method")
  | .content "composite", "constructor_args" => some (.array [])
  | .content "composite", "fields" => some (.array [])
  | .content "reflective", "fields" => some (.array [])
  | .content "mock", "stubs" => some (.array [])
  | .stub, "arguments" => some (.array [])
  | .outcome, "value" => some .null
  | .outcome, "message" => some .null
  | .outcome, "kind" => some (.string "implicit")
  | .execution, "this_instance" => some .null
  | .execution, "arguments" => some (.array [])
  | .execution, "static_stubs" => some (.array [])
  | .execution, "test_method_name" => some .null
  | .execution, "display_name" => some .null
  | .execution, "summary" => some (.array [])
  | .note, "header" => some .null
  | .note, "content" => some (.array [])
  | .testSet, "executions" => some (.array [])
  | .testSet, "clusters" => some (.array [])
  | .testSet, "errors" => some (.object [])
  | _, _ => none

end Part

mutual

/-- The second value is the first one without some of the members that hold their defaults. -/
inductive Thins : Part → Json → Json → Prop
  | same (p : Part) (j : Json) : Thins p j j
  | array {p : Part} {js js' : List Json} (h : ThinsEach p js js') :
    Thins (.each p) (.array js) (.array js')
  | object {p : Part} {all kept : Fields} (h : ThinsMembers p all all kept) :
    Thins p (.object all) (.object kept)

/-- Each element is thinned on its own. -/
inductive ThinsEach : Part → List Json → List Json → Prop
  | nil (p : Part) : ThinsEach p [] []
  | cons {p : Part} {j j' : Json} {js js' : List Json} (h : Thins p j j')
    (hrest : ThinsEach p js js') : ThinsEach p (j :: js) (j' :: js')

/-- Each of some members of an object is kept, and thinned on its own, or left out. -/
inductive ThinsMembers : Part → Fields → Fields → Fields → Prop
  | nil (p : Part) (all : Fields) : ThinsMembers p all [] []
  | keep {p : Part} {all rest kept : Fields} {key : String} {j j' : Json}
    (h : Thins (p.member all key) j j') (hrest : ThinsMembers p all rest kept) :
    ThinsMembers p all ((key, j) :: rest) ((key, j') :: kept)
  | drop {p : Part} {all rest kept : Fields} {key : String} {j : Json}
    (h : p.default? key = some j) (hrest : ThinsMembers p all rest kept) :
    ThinsMembers p all ((key, j) :: rest) kept

end

/-! ## Inversion -/

theorem ThinsEach.refl (p : Part) : ∀ js : List Json, ThinsEach p js js
  | [] => .nil p
  | j :: js => .cons (.same p j) (ThinsEach.refl p js)

theorem ThinsMembers.refl (p : Part) (all : Fields) : ∀ fs : Fields, ThinsMembers p all fs fs
  | [] => .nil p all
  | (_, j) :: fs => .keep (.same _ j) (ThinsMembers.refl p all fs)

theorem Thins.exists_elements {p : Part} {js : List Json} {j' : Json}
    (h : Thins (.each p) (.array js) j') : ∃ js', j' = .array js' ∧ ThinsEach p js js' := by
  cases h with
  | same => exact ⟨js, rfl, .refl p js⟩
  | array h => exact ⟨_, rfl, h⟩

theorem Thins.exists_members {p : Part} {fs : Fields} {j' : Json} (h : Thins p (.object fs) j') :
    ∃ kept, j' = .object kept ∧ ThinsMembers p fs fs kept := by
  cases h with
  | same => exact ⟨fs, rfl, .refl p fs fs⟩
  | object h => exact ⟨_, rfl, h⟩

/-- A member without default is kept. -/
theorem ThinsMembers.exists_kept {p : Part} {all rest kept : Fields} {key : String} {j : Json}
    (h : ThinsMembers p all ((key, j) :: rest) kept) (hneeded : p.default? key = none) :
    ∃ j' others, kept = (key, j') :: others ∧ Thins (p.member all key) j j' ∧
      ThinsMembers p all rest others := by
  cases h with
  | keep h hrest => exact ⟨_, _, rfl, h, hrest⟩
  | drop hdefault hrest =>
      rw [hneeded] at hdefault
      cases hdefault

theorem Thins.eq_string {p : Part} {s : String} {j' : Json} (h : Thins p (.string s) j') :
    j' = .string s := by
  cases h
  rfl

theorem Thins.eq_bool {p : Part} {b : Bool} {j' : Json} (h : Thins p (.bool b) j') :
    j' = .bool b := by
  cases h
  rfl

theorem Thins.eq_number {p : Part} {n : Number} {j' : Json} (h : Thins p (.number n) j') :
    j' = .number n := by
  cases h
  rfl

theorem Thins.eq_null {p : Part} {j : Json} (h : Thins p j .null) : j = .null := by
  cases h
  rfl

mutual

/-- Nothing is left out of a leaf. -/
theorem Thins.eq_of_leaf {j j' : Json} : Thins .leaf j j' → j' = j
  | .same _ _ => rfl
  | .object h => congrArg Json.object h.eq_of_leaf

theorem ThinsMembers.eq_of_leaf {all fs kept : Fields} : ThinsMembers .leaf all fs kept → kept = fs
  | .nil _ _ => rfl
  | .keep h hrest => by rw [h.eq_of_leaf, hrest.eq_of_leaf]

end

mutual

/-- What is left of a plain value is plain. -/
theorem Thins.isPlain {p : Part} {j j' : Json} :
    Thins p j j' → j.isPlain = true → j'.isPlain = true
  | .same _ _, hj => hj
  | .array h, hj => h.isPlain hj
  | .object h, hj => h.isPlain hj

theorem ThinsEach.isPlain {p : Part} {js js' : List Json} :
    ThinsEach p js js' → elementsPlain js = true → elementsPlain js' = true
  | .nil _, hjs => hjs
  | .cons h hrest, hjs => by
      obtain ⟨hj, hjs⟩ := Bool.and_eq_true_iff.mp hjs
      exact Bool.and_eq_true_iff.mpr ⟨h.isPlain hj, hrest.isPlain hjs⟩

theorem ThinsMembers.isPlain {p : Part} {all fs kept : Fields} :
    ThinsMembers p all fs kept → membersPlain fs = true → membersPlain kept = true
  | .nil _ _, hfs => hfs
  | .keep h hrest, hfs => by
      obtain ⟨hj, hfs⟩ := Bool.and_eq_true_iff.mp hfs
      exact Bool.and_eq_true_iff.mpr ⟨h.isPlain hj, hrest.isPlain hfs⟩
  | .drop _ hrest, hfs => hrest.isPlain (Bool.and_eq_true_iff.mp hfs).2

end

/-! ## Members of thinned objects -/

theorem depth_le_depthMembers {fs : Fields} {key : String} {j : Json} (h : (key, j) ∈ fs) :
    j.depth ≤ depthMembers fs := by
  induction fs with
  | nil => cases h
  | cons member rest ih =>
      rw [depthMembers]
      rcases List.mem_cons.mp h with rfl | h
      · exact Nat.le_max_left ..
      · exact Nat.le_trans (ih h) (Nat.le_max_right ..)

namespace Fields

variable {fs : Fields} {key : String}

theorem filter_eq_nil (h : key ∉ fs.map Prod.fst) :
    fs.filter (fun member => member.1 == key) = [] := by
  refine List.filter_eq_nil_iff.mpr fun member hmember hkey => h ?_
  exact eq_of_beq hkey ▸ List.mem_map_of_mem hmember

theorem unique?_of_notMem (h : key ∉ fs.map Prod.fst) : fs.unique? key = some none := by
  rw [unique?, filter_eq_nil h]

theorem unique?_cons_self (j : Json) (h : key ∉ fs.map Prod.fst) :
    unique? ((key, j) :: fs) key = some (some j) := by
  rw [unique?, List.filter_cons_of_pos (by simp), filter_eq_nil h]

theorem unique?_cons_of_ne {other : String} (j : Json) (h : other ≠ key) :
    unique? ((other, j) :: fs) key = fs.unique? key := by
  rw [unique?, unique?, List.filter_cons_of_neg (by simpa using h)]

end Fields

theorem ThinsMembers.sublist {p : Part} {all fs kept : Fields} :
    ThinsMembers p all fs kept → (kept.map Prod.fst).Sublist (fs.map Prod.fst)
  | .nil _ _ => .slnil
  | .keep _ hrest => hrest.sublist.cons_cons _
  | .drop _ hrest => hrest.sublist.cons _

/-- A member is kept, thinned on its own, or left out because it holds its default. -/
theorem ThinsMembers.unique? {p : Part} {all fs kept : Fields} {key : String} {j : Json} :
    ThinsMembers p all fs kept → (fs.map Prod.fst).Nodup → (key, j) ∈ fs →
      (∃ j', kept.unique? key = some (some j') ∧ (key, j') ∈ kept ∧
        Thins (p.member all key) j j') ∨
      kept.unique? key = some none ∧ p.default? key = some j
  | .nil _ _, _, hmem => nomatch hmem
  | @ThinsMembers.keep _ _ _ kept first _ j' h hrest, hnodup, hmem => by
      obtain ⟨hfresh, hnodup⟩ := List.nodup_cons.mp hnodup
      rcases List.mem_cons.mp hmem with heq | hmem
      · cases heq
        have hfresh' : key ∉ kept.map Prod.fst := fun h => hfresh (hrest.sublist.subset h)
        exact Or.inl ⟨j', Fields.unique?_cons_self _ hfresh', List.mem_cons_self, h⟩
      · have hne : first ≠ key := by
          rintro rfl
          exact hfresh (List.mem_map.mpr ⟨_, hmem, rfl⟩)
        rw [Fields.unique?_cons_of_ne _ hne]
        refine (hrest.unique? hnodup hmem).imp_left ?_
        rintro ⟨j', hunique, hkept, hthins⟩
        exact ⟨j', hunique, List.mem_cons_of_mem _ hkept, hthins⟩
  | .drop h hrest, hnodup, hmem => by
      obtain ⟨hfresh, hnodup⟩ := List.nodup_cons.mp hnodup
      rcases List.mem_cons.mp hmem with heq | hmem
      · cases heq
        have hfresh' := fun h => hfresh (hrest.sublist.subset h)
        exact Or.inr ⟨Fields.unique?_of_notMem hfresh', h⟩
      · exact hrest.unique? hnodup hmem

/-! ## Reading back -/

/-- An optional value whose encoding is `null` is absent. -/
theorem eq_none_of_option {α : Type} {encode : α → Json} {value : Option α}
    (hsome : ∀ a, encode a ≠ .null) (h : some Json.null = some (option encode value)) :
    none = value := by
  cases value with
  | none => rfl
  | some a => exact absurd (Option.some.inj h).symm (hsome a)

/-- A decoder reads a value back from everything that is thinned from its encoding and is not nested
more deeply than a bound. -/
def ReadsBack {α : Type} (bound : Nat) (p : Part) (decode : Json → Option α) (j : Json) (a : α) :
    Prop :=
  ∀ j', Thins p j j' → j'.depth ≤ bound → decode j' = some a

/-- The members that are kept of an object without repeated names, nested no deeper than a bound. -/
structure Kept (bound : Nat) (p : Part) (fs kept : Fields) : Prop where
  thins : ThinsMembers p fs fs kept
  nodup : (fs.map Prod.fst).Nodup
  depth : depthMembers kept ≤ bound

section

variable {α : Type} {bound : Nat} {p : Part} {decode : Json → Option α} {a : α}

theorem ReadsBack.weaken {j : Json} (h : ReadsBack bound p decode j a) {lower : Nat}
    (hle : lower ≤ bound) : ReadsBack lower p decode j a :=
  fun j' hthins hdepth => h j' hthins (Nat.le_trans hdepth hle)

theorem ReadsBack.leaf {j : Json} (h : decode j = some a) : ReadsBack bound .leaf decode j a :=
  fun _ hthins _ => hthins.eq_of_leaf ▸ h

/-- The members of an object are nested less deeply than the object. -/
theorem ReadsBack.object {fs : Fields} (hnodup : (fs.map Prod.fst).Nodup)
    (h : ∀ kept, Kept bound p fs kept → decode (.object kept) = some a) :
    ReadsBack (bound + 1) p decode (.object fs) a := by
  intro j' hthins hdepth
  obtain ⟨kept, rfl, hmembers⟩ := hthins.exists_members
  exact h kept ⟨hmembers, hnodup, Nat.le_of_succ_le_succ hdepth⟩

/-- The members of a record, whose own depth does not matter. -/
theorem ReadsBack.record {fs : Fields} (hnodup : (fs.map Prod.fst).Nodup)
    (h : ∀ kept, Kept bound p fs kept → decode (.object kept) = some a) :
    ReadsBack bound p decode (.object fs) a :=
  (ReadsBack.object hnodup h).weaken (Nat.le_succ _)

theorem ThinsEach.mapM_eq {items : List α} {encode : α → Json} {js' : List Json}
    (heach : ThinsEach p (items.map encode) js')
    (h : ∀ a ∈ items, ReadsBack bound p decode (encode a) a) (hdepth : depthElements js' ≤ bound) :
    js'.mapM decode = some items := by
  induction items generalizing js' with
  | nil =>
      cases heach
      rfl
  | cons first rest ih =>
      obtain ⟨hfirst, hrest⟩ := List.forall_mem_cons.mp h
      cases heach with
      | cons hthins heach =>
          obtain ⟨hleft, hright⟩ := Nat.max_le.mp hdepth
          rw [List.mapM_cons, hfirst _ hthins hleft, ih heach hrest hright]
          rfl

theorem ReadsBack.elements {items : List α} {encode : α → Json}
    (h : ∀ a ∈ items, ReadsBack bound p decode (encode a) a) :
    ReadsBack (bound + 1) (.each p) (list? decode) (.array (items.map encode)) items := by
  intro j' hthins hdepth
  obtain ⟨js', rfl, heach⟩ := hthins.exists_elements
  exact heach.mapM_eq h (Nat.le_of_succ_le_succ hdepth)

theorem ReadsBack.nullable {encode : α → Json} {value : Option α}
    (h : ∀ a ∈ value, ReadsBack bound p decode (encode a) a) (hsome : ∀ a, encode a ≠ .null) :
    ReadsBack bound p (nullable? decode) (option encode value) value := by
  intro j' hthins hdepth
  cases value with
  | none =>
      cases hthins
      rfl
  | some a =>
      have hread := h a rfl j' hthins hdepth
      have hnull : j' ≠ .null := by
        rintro rfl
        exact hsome a hthins.eq_null
      cases j' with
      | null => exact absurd rfl hnull
      | _ => simp [nullable?, hread]

namespace Kept

variable {fs kept : Fields} (h : Kept bound p fs kept) (i : Nat) {key : String} {j : Json}
  (hmember : fs[i]? = some (key, j)) (hreads : ReadsBack bound (p.member fs key) decode j a)

include h hmember

/-- What becomes of a member: it is left out, or it is read where it was. -/
theorem unique?_cases (hreads : ReadsBack bound (p.member fs key) decode j a) :
    (∃ j', kept.unique? key = some (some j') ∧ decode j' = some a) ∨
      kept.unique? key = some none ∧ p.default? key = some j := by
  refine (h.thins.unique? h.nodup (List.mem_of_getElem? hmember)).imp_left ?_
  rintro ⟨j', hunique, hkept, hthins⟩
  exact ⟨j', hunique, hreads j' hthins (Nat.le_trans (depth_le_depthMembers hkept) h.depth)⟩

include hreads

theorem required (hneeded : p.default? key = none) : kept.required key decode = some a := by
  rcases h.unique?_cases i hmember hreads with ⟨j', hunique, hread⟩ | ⟨-, hdefault⟩
  · rw [Fields.required, hunique]
    exact hread
  · rw [hneeded] at hdefault
    cases hdefault

theorem withDefault {default : α} (hdefault : p.default? key = some j → default = a) :
    kept.withDefault key decode default = some a := by
  rcases h.unique?_cases i hmember hreads with ⟨j', hunique, hread⟩ | ⟨hunique, hholds⟩
  · rw [Fields.withDefault, hunique]
    exact hread
  · rw [Fields.withDefault, hunique, hdefault hholds]

end Kept

/-- An optional member is left out when there is no value. -/
theorem Kept.optional {fs kept : Fields} (h : Kept bound p fs kept) (i : Nat) {key : String}
    {encode : α → Json} {value : Option α} (hmember : fs[i]? = some (key, option encode value))
    (hreads : ∀ a ∈ value, ReadsBack bound (p.member fs key) decode (encode a) a)
    (hsome : ∀ a, encode a ≠ .null) (hnull : p.default? key = some .null) :
    kept.optional key decode = some value :=
  h.withDefault i hmember (.nullable hreads hsome) fun hholds =>
    eq_none_of_option hsome (hnull.symm.trans hholds)

theorem depth_pos (j : Json) : 0 < j.depth := by
  cases j <;> simp [depth]

/-- A reader whose fuel bounds the depth is never asked without fuel. -/
theorem ReadsBack.of_succ {read : Nat → Json → Option α} {j : Json}
    (h : ∀ fuel, ReadsBack (fuel + 1) p (read (fuel + 1)) j a) :
    ∀ fuel, ReadsBack fuel p (read fuel) j a
  | 0 => fun j' _ hdepth => absurd (Nat.le_zero.mp hdepth) (Nat.ne_of_gt j'.depth_pos)
  | fuel + 1 => h fuel

/-- The depth of what is read is fuel enough. -/
theorem ReadsBack.of_depth {read : Nat → Json → Option α} {j : Json}
    (h : ∀ fuel, ReadsBack fuel p (read fuel) j a) :
    ReadsBack bound p (fun j' => read j'.depth j') j a :=
  fun j' hthins _ => h j'.depth j' hthins (Nat.le_refl _)

end

/-! ## Tags -/

section

variable {bound : Nat} {p : Part} {tag content name : String} {kept : Fields}

/-- A tag without content stays alone. -/
theorem Kept.tagged?_alone (h : Kept bound p [(tag, .string name)] kept)
    (htag : p.default? tag = none) (hne : content ≠ tag) (access : Access) :
    kept.tagged? access tag content = some (name, none, access) := by
  obtain ⟨j', rest, rfl, hname, hrest⟩ := h.thins.exists_kept htag
  cases hrest
  cases hname.eq_string
  simp [Fields.tagged?, Fields.required, Fields.unique?, name?, hne.symm]

/-- A tag that stands first among the members of a plain object stays. -/
theorem Kept.innerTag? {rest : Fields} (h : Kept bound p ((tag, .string name) :: rest) kept)
    (htag : p.default? tag = none)
    (hplain : (object ((tag, .string name) :: rest)).isPlain = true) :
    kept.innerTag? tag = some name := by
  have hrest : membersPlain rest = true := by simpa [isPlain, membersPlain] using hplain
  obtain ⟨hthins, hnodup, -⟩ := h
  obtain ⟨s, others, rfl, hname, hothers⟩ := hthins.exists_kept htag
  cases hname.eq_string
  have hfresh : tag ∉ others.map Prod.fst := fun hmem =>
    (List.nodup_cons.mp hnodup).1 (hothers.sublist.subset hmem)
  have hreadable : membersReadable
      (((tag, .string name) :: others).filter fun member => member.1 != tag) = true := by
    rw [membersReadable_eq_true_iff]
    intro member hmember
    obtain ⟨hmem, hne⟩ := List.mem_filter.mp hmember
    rcases List.mem_cons.mp hmem with rfl | hmem
    · rfl
    · have hall := membersReadable_of_plain others (hothers.isPlain hrest)
      exact membersReadable_eq_true_iff.mp hall _ hmem
  rw [Fields.innerTag?, if_pos hreadable, Fields.required, Fields.unique?_cons_self _ hfresh]
  rfl

/-- A tag stays in front of its content. -/
theorem Kept.exists_tagged? {j : Json} (h : Kept bound p [(tag, .string name), (content, j)] kept)
    (htag : p.default? tag = none) (hcontent : p.default? content = none) :
    ∃ j', Thins (p.member [(tag, .string name), (content, j)] content) j j' ∧ j'.depth ≤ bound ∧
      ∀ access, kept.tagged? access tag content = some (name, some j', access) := by
  obtain ⟨hthins, hnodup, hdepth⟩ := h
  have hne : tag ≠ content := by simpa using hnodup
  obtain ⟨s, others, rfl, hname, hothers⟩ := hthins.exists_kept htag
  obtain ⟨j', rest, rfl, hj, hrest⟩ := hothers.exists_kept hcontent
  cases hrest
  cases hname.eq_string
  have hlast : (content, j') ∈ [(tag, .string name), (content, j')] := by simp
  refine ⟨j', hj, Nat.le_trans (depth_le_depthMembers hlast) hdepth, fun access => ?_⟩
  simp [Fields.tagged?, Fields.required, Fields.unique?, name?, hne, hne.symm]

end

end TestWriter.Json
