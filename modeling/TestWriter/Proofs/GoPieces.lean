import TestWriter.Proofs.CodePieces
import TestWriter.Target.Go

/-!
# Pieces of files of Go

Go puts the package in front of a name unless it is that of the file, and writes an infinite number
or a NaN as a call of the package `math`.  Main statement: a file meets a demand when the names of
the framework do, everything that its methods mention is served, and the numbers that they write
without mentioning them are finite.
-/

namespace TestWriter

/-- A special value of 32 bits is not finite. -/
theorem Decimal.Binary32.isFinite_of_special? {x : Binary32} {value : Special}
    (h : x.special? = some value) : x.isFinite = false := by
  simp only [special?, isFinite] at h ⊢
  cases hx : x.magnitude with
  | finite m q =>
      rw [hx] at h
      cases h
  | _ => rfl

/-- A special value of 64 bits is not finite. -/
theorem Decimal.Binary64.isFinite_of_special? {x : Binary64} {value : Special}
    (h : x.special? = some value) : x.isFinite = false := by
  simp only [special?, isFinite] at h ⊢
  cases hx : x.magnitude with
  | finite m q =>
      rw [hx] at h
      cases h
  | _ => rfl

namespace Target.Go

open Layout Layout.Rendering

variable {D : Demand} {served : Mention → Prop} {s : Surroundings}

/-- What code in Go writes beside fixed words meets a demand: comments always, names, and the packages
in front of them, when they are served. -/
structure Names (D : Demand) (served : Mention → Prop) (s : Surroundings) : Prop where
  remarks : D.TakesRemarks .go
  ofClass : ∀ c, served (.ofClass c) ∨ served (.typeClass c) → D.holds (.ofClass c) c.name
  function : ∀ module name, served (.function module name) → D.holds (.function module name) name
  staticMember : ∀ owner name, served (.ofClass owner) → D.holds (.staticMember owner name) name
  helper : ∀ h text, served (.helper h) → D.holds (.helper h) text
  qualifier : ∀ c,
    (served (.ofClass c) ∨ served (.typeClass c) ∨ ∃ name, served (.function c name)) →
    Doc.Obeys D (qualifier s c.package)
  math : served .nonFinite → D.holds (.module "math") "math"
  assert : ∀ member, served (.assertion member) → D.holds (.module assertPackage) "assert"
  testing : D.holds (.module "testing") "testing"

theorem obeys_call (method : String) {rs : List Rendering} (hrs : ∀ r ∈ rs, r.Obeys D) :
    (call method rs).Obeys D :=
  obeys_append (obeys_append (obeys_say _) (obeys_commas hrs)) (obeys_say _)

variable (h : Names D served s)

include h

theorem obeys_className {c : ClassName} (hc : served (.ofClass c) ∨ served (.typeClass c)) :
    Doc.Obeys D (className s c) :=
  Doc.obeys_append (h.qualifier c (hc.imp_right Or.inl)) (Doc.obeys_text (h.ofClass c hc))

theorem obeys_typeName {t : DataType} (ht : ∀ m ∈ t.mentions, served m) :
    (typeName s t).Obeys D := by
  induction t with
  | void => exact obeys_refuse _ _
  | primitive p => exact obeys_say _
  | str => exact obeys_say _
  | ofClass c => exact obeys_ok (obeys_className h (Or.inr (ht _ (List.mem_singleton_self _))))
  | array element ih => exact obeys_append (obeys_say _) (ih ht)
  | any => exact obeys_say _
  | errorClass => exact obeys_refuse _ _

theorem obeys_special (hserved : served .nonFinite) (x : Decimal.Special) :
    Doc.Obeys D (special x) :=
  Doc.obeys_cons (Doc.obeys_text (h.math hserved)) (Doc.obeys_plain _)

/-- A literal names the package `math` only for a number that is not finite. -/
theorem obeys_literal {l : Literal} (hl : l.isNonFinite = true → served .nonFinite) :
    Doc.Obeys D (literal l) := by
  cases l with
  | float x =>
      refine Doc.obeys_append (Doc.obeys_append (Doc.obeys_plain _) ?_) (Doc.obeys_plain _)
      cases hx : x.special? with
      | none => exact Doc.obeys_plain _
      | some value =>
          refine obeys_special h (hl ?_) value
          simp [Literal.isNonFinite, Decimal.Binary32.isFinite_of_special? hx]
  | double x =>
      simp only [literal, double]
      cases hx : x.special? with
      | none => exact Doc.obeys_plain _
      | some value =>
          refine obeys_special h (hl ?_) value
          simp [Literal.isNonFinite, Decimal.Binary64.isFinite_of_special? hx]
  | _ => exact Doc.obeys_plain _

theorem obeys_assertion {mentioned : String} (hserved : served (.assertion mentioned))
    (member : String) {rs : List Rendering} (hrs : ∀ r ∈ rs, r.Obeys D) :
    (assertion member rs).Obeys D :=
  obeys_append (obeys_append (obeys_append (obeys_append (obeys_piece (h.assert _ hserved))
    (obeys_say _)) (obeys_commas hrs)) (obeys_say _)) obeys_newline

/-- Go writes nothing but fixed words, its parts and names behind their packages. -/
theorem dialect_obeys : (dialect s).Obeys D served where
  literal l hl := obeys_literal h hl
  comment := Dialect.obeys_comment h.remarks rfl
  comments := obeys_marked fun text => h.remarks (.marked _ text) (Or.inl rfl)
  helper k hk := h.helper k _ hk
  construct owner rs howner hrs :=
    obeys_ite (obeys_append (obeys_ok (obeys_className h (Or.inl howner))) (obeys_say _))
      (obeys_refuse _ _)
  callOn receiver r method rs hr hrs :=
    obeys_append (obeys_append hr (obeys_say _)) (obeys_call method hrs)
  callStatic owner method rs howner hrs := by
    have hqualifier := h.qualifier owner (Or.inl howner)
    repeat' refine obeys_append ?_ ?_
    all_goals simp [hqualifier, obeys_piece (h.staticMember owner method howner), obeys_commas hrs]
  callModule module method rs hmodule hrs := by
    have hqualifier := h.qualifier module (Or.inr (Or.inr ⟨method, hmodule⟩))
    repeat' refine obeys_append ?_ ?_
    all_goals simp [hqualifier, obeys_piece (h.function module method hmodule), obeys_commas hrs]
  staticField owner name howner :=
    obeys_append (obeys_ok (h.qualifier owner (Or.inl howner)))
      (obeys_piece (h.staticMember owner name howner))
  allocate element size helement :=
    obeys_append (obeys_append (obeys_say _) (obeys_typeName h helement)) (obeys_say _)
  arrayOf element onLines rs helement hrs := by
    refine obeys_append (obeys_append (obeys_append (obeys_append (obeys_say _)
      (obeys_typeName h helement)) (obeys_say _)) (obeys_ite ?_ (obeys_commas hrs))) (obeys_say _)
    refine obeys_append obeys_newline (obeys_nest (obeys_concat ?_))
    intro r hr
    obtain ⟨value, hvalue, rfl⟩ := List.mem_map.mp hr
    exact obeys_append (hrs value hvalue) (obeys_line _)
  lambda ps b hps hb := by
    refine obeys_append (obeys_append (obeys_append (obeys_append (obeys_say _)
      (obeys_commas ?_)) (obeys_line _)) (obeys_nest hb.content)) (obeys_say _)
    intro r hr
    obtain ⟨p, hp, rfl⟩ := List.mem_map.mp hr
    have htype := obeys_typeName h fun m hm => hps m (List.mem_flatMap.mpr ⟨p, hp, hm⟩)
    exact obeys_append (obeys_append (obeys_identifier _ _) (obeys_say _)) htype
  equal r e r' hr hr' := obeys_append (obeys_append hr (obeys_say _)) hr'
  cast type r htype hr := by
    have hname := obeys_typeName h htype
    simp only [dialect]
    split
    · exact obeys_error _
    · next name hok =>
      exact obeys_append (obeys_append (obeys_append hr (obeys_say _)) (obeys_ok (hname _ hok)))
        (obeys_say _)
  notNull r _ := obeys_refuse _ _
  classOf owner _ := obeys_refuse _ _
  length r hr := obeys_append (obeys_append (obeys_say _) hr) (obeys_say _)
  mock owner _ _ := obeys_refuse _ _
  declare name type isMutable initial htype hinitial := by
    cases initial with
    | none =>
        exact obeys_append (obeys_append (obeys_append (obeys_append (obeys_say _)
          (obeys_identifier _ _)) (obeys_say _)) (obeys_typeName h htype)) obeys_newline
    | some e =>
        exact obeys_append (obeys_append (obeys_append (obeys_identifier _ _) (obeys_say _))
          (hinitial e rfl)) obeys_newline
  branch r b b' hr hb hb' := by
    refine obeys_bracedBranch (fun b hb => obeys_nest hb.content) ?_ hb hb'
    exact obeys_append (obeys_append (obeys_say _) hr) (obeys_line _)
  switch r cases b hr hcases hb := by
    refine obeys_append (obeys_append (obeys_append (obeys_append ?_ (obeys_concat ?_))
      (obeys_line _)) (obeys_nest hb.content)) (obeys_line _)
    · exact obeys_append (obeys_append (obeys_say _) hr) (obeys_line _)
    · intro r hr
      obtain ⟨c, hc, rfl⟩ := List.mem_map.mp hr
      exact obeys_append (obeys_append (obeys_append (obeys_say _) (obeys_ok (hcases c hc).1))
        (obeys_line _)) (obeys_nest (hcases c hc).2.content)
  throw r hr := obeys_append (obeys_append (obeys_say _) hr) (obeys_line _)
  mockedStatic handle owner forms r _ _ _ _ _ := obeys_refuse _ _
  stub r form _ _ _ := obeys_refuse _ _
  assertEquals r r' delta deep hserved hr hr' hdelta := by
    cases delta with
    | none => exact obeys_assertion h hserved _ (by simp [hr, hr'])
    | some l =>
        have hl : Doc.Obeys D (literal l) := hdelta l rfl
        exact obeys_assertion h hserved _ (by simp [hr, hr', hl])
  assertTrue r hserved hr := obeys_assertion h hserved _ (by simpa using hr)
  assertNull r hserved hr := obeys_assertion h hserved _ (by simpa using hr)
  assertThrows r b hserved _ hb :=
    obeys_append (obeys_append (obeys_append (obeys_piece (h.assert _ hserved)) (obeys_line _))
      (obeys_nest hb.content)) (obeys_line _)
  fail message _ := obeys_line _

theorem obeys_testHead (name : String) : (testHead name).Obeys D :=
  obeys_append (obeys_append (obeys_append (obeys_say _) (obeys_piece h.testing)) (obeys_line _))
    obeys_indent

theorem obeys_opening (m : Method) : (opening (dialect s) m).Obeys D := by
  simp only [opening]
  split
  · next info _ =>
    refine obeys_append (obeys_append (obeys_testHead h _) ?_) ?_
    · cases info.disabled with
      | none => exact obeys_nothing
      | some reason => exact obeys_line _
    · cases info.timeoutMillis with
      | none => exact obeys_nothing
      | some n => exact obeys_ok ((dialect s).obeys_comment h.remarks rfl _)
  · exact obeys_testHead h _
  all_goals exact obeys_refuse _ _

/-- A method meets a demand when what it mentions is served and its bare numbers are finite. -/
theorem obeys_method {m : Method} (hm : ∀ x ∈ m.mentions, served x)
    (hfinite : ∀ l ∈ Stmt.bareLiteralsOf m.body, l.isNonFinite = false) :
    ((methods s).method m).Obeys D := by
  simp only [MethodForms.method]
  split
  · exact obeys_refuse _ _
  · next hkind =>
    have hbody := (dialect s).obeys_stmts (dialect_obeys h) m.body
      (fun x hx => hm x (Method.mem_mentions_of_mem_body hkind hx)) fun l hl => by
        refine obeys_literal h fun hnon => ?_
        rw [hfinite l hl] at hnon
        cases hnon
    refine obeys_append (obeys_append (obeys_append (obeys_ite obeys_nothing ?_)
      (obeys_opening h m)) hbody) (obeys_append obeys_dedent (obeys_line _))
    exact obeys_ok (obeys_marked (fun text => h.remarks (.marked _ text) (Or.inl rfl)) _)

omit h in
theorem obeys_remarks (hremarks : D.TakesRemarks .go) : (methods s).RemarksObey D :=
  ⟨fun text => obeys_ok (hremarks (.marked _ text) (Or.inr rfl)),
    obeys_marked fun text => hremarks (.marked _ text) (Or.inl rfl)⟩

omit h in
theorem obeys_importBlock (imports : List Import) : (importBlock imports).Obeys D := by
  refine obeys_ite obeys_nothing (obeys_append (obeys_append (obeys_append obeys_newline
    (obeys_line _)) (obeys_nest (obeys_concat ?_))) (obeys_line _))
  intro r hr
  obtain ⟨i, -, rfl⟩ := List.mem_map.mp hr
  exact obeys_line _

omit h in
/-- A file meets a demand when its comments and its methods do. -/
theorem obeys_file_of_methods {f : SourceFile} (hremarks : D.TakesRemarks .go)
    (hm : ∀ m ∈ f.testClass.methods, ((methods s).method m).Obeys D) : (file s f).Obeys D := by
  have hall : (methods s).AllObey D (f.testClass.regions ++ [f.testClass.statics]) := by
    intro m hmem
    exact hm m (by simpa [TestClass.methods] using hmem)
  simp only [file]
  split
  · exact obeys_refuse _ _
  · refine obeys_append (obeys_append (obeys_append (obeys_ite obeys_nothing
      (obeys_ok ((obeys_remarks hremarks).comments _))) (obeys_line _)) (obeys_importBlock _))
      (obeys_concat ?_)
    intro r hr
    obtain ⟨region, hregion, rfl⟩ := List.mem_map.mp hr
    exact obeys_append obeys_newline
      (hall.region (obeys_remarks hremarks) region (List.mem_filter.mp hregion).1)

/-- A file meets a demand when what its methods mention is served and their bare numbers are
finite. -/
theorem obeys_file {f : SourceFile}
    (hm : ∀ m ∈ f.testClass.methods, ∀ x ∈ m.mentions, served x)
    (hfinite : ∀ m ∈ f.testClass.methods,
      ∀ l ∈ Stmt.bareLiteralsOf m.body, l.isNonFinite = false) : (file s f).Obeys D :=
  obeys_file_of_methods h.remarks fun m hmem => obeys_method h (hm m hmem) (hfinite m hmem)

end Target.Go

end TestWriter
