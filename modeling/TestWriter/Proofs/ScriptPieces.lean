import TestWriter.Proofs.CodePieces
import TestWriter.Target.JavaScript
import TestWriter.Target.Python

/-!
# Pieces of files of Python and JavaScript

Both languages write a function of a module bare, and a class bare unless its module is imported as
a whole; types are not written.  Main statements: a file in one of the two languages meets a demand
when the names of the framework do and everything that its methods mention is served.
-/

namespace TestWriter.Target

open Layout Layout.Rendering

variable {D : Demand} {served : Mention → Prop} {s : Surroundings}

/-- What a script writes beside fixed words meets a demand: comments always, names when they are
served. -/
structure ScriptNames (D : Demand) (served : Mention → Prop) (l : Language)
    (className : ClassName → Doc) : Prop where
  remarks : D.TakesRemarks l
  ofClass : ∀ c, served (.ofClass c) → Doc.Obeys D (className c)
  function : ∀ module name text, served (.function module name) →
    D.holds (.function module name) text
  helper : ∀ h text, served (.helper h) → D.holds (.helper h) text

/-! ## JavaScript -/

namespace JavaScript

theorem obeys_call (method : String) {rs : List Rendering} (hrs : ∀ r ∈ rs, r.Obeys D) :
    (call method rs).Obeys D :=
  obeys_append (obeys_append (obeys_say _) (obeys_commas hrs)) (obeys_say _)

variable (h : ScriptNames D served .javascript className)
  (hassert : D.holds (.module "assert") "assert")

include hassert

theorem obeys_assertMember (name : String) : (assertMember name).Obeys D :=
  obeys_append (obeys_piece hassert) (obeys_say _)

include h

/-- JavaScript writes nothing but fixed words, its parts and names. -/
theorem dialect_obeys : dialect.Obeys D served where
  literal l _ := Doc.obeys_plain _
  comment := Dialect.obeys_comment h.remarks rfl
  comments lines := h.remarks (.starred false lines) (Or.inr (Or.inr rfl))
  helper k hk := h.helper k _ hk
  construct owner rs howner hrs := by
    repeat' refine obeys_append ?_ ?_
    all_goals simp [h.ofClass owner howner, obeys_commas hrs]
  callOn receiver r method rs hr hrs :=
    obeys_append (obeys_append (obeys_ite (obeys_brackets hr) hr) (obeys_say _))
      (obeys_call method hrs)
  callStatic owner method rs howner hrs :=
    obeys_append (obeys_append (obeys_ok (h.ofClass owner howner)) (obeys_say _))
      (obeys_call method hrs)
  callModule module method rs hmodule hrs := by
    repeat' refine obeys_append ?_ ?_
    all_goals simp [obeys_piece (h.function module method _ hmodule), obeys_commas hrs]
  staticField owner name howner := obeys_append (obeys_ok (h.ofClass owner howner)) (obeys_say _)
  allocate element size _ := obeys_say _
  arrayOf element onLines rs _ hrs :=
    obeys_append (obeys_append (obeys_say _) (obeys_elements onLines hrs)) (obeys_say _)
  lambda ps b _ hb := by
    refine obeys_append (obeys_append (obeys_append (obeys_say _) (obeys_identifiers _))
      (obeys_say _)) ?_
    cases hsole : b.sole with
    | some e => exact hb.sole e hsole
    | none => exact obeys_append (obeys_append (obeys_line _) (obeys_nest hb.content)) (obeys_say _)
  equal r e r' hr hr' := obeys_append (obeys_append hr (obeys_say _)) hr'
  cast type r _ hr := hr
  notNull r _ := obeys_refuse _ _
  classOf owner howner := obeys_ok (h.ofClass owner howner)
  length r hr := obeys_append hr (obeys_say _)
  mock owner _ _ := obeys_refuse _ _
  declare name type isMutable initial _ hinitial := by
    cases initial with
    | none => exact obeys_append (obeys_append (obeys_say _) (obeys_identifier _ _)) (obeys_line _)
    | some e =>
        exact obeys_append (obeys_append (obeys_append (obeys_append (obeys_say _)
          (obeys_identifier _ _)) (obeys_say _)) (hinitial e rfl)) (obeys_line _)
  branch r b b' hr hb hb' := by
    refine obeys_bracedBranch (fun b hb => obeys_nest hb.content) ?_ hb hb'
    exact obeys_append (obeys_append (obeys_say _) hr) (obeys_line _)
  switch r cases b hr hcases hb := by
    refine obeys_append (obeys_append ?_ (obeys_nest (obeys_append (obeys_append
      (obeys_concat ?_) (obeys_line _)) (obeys_nest hb.content)))) (obeys_line _)
    · exact obeys_append (obeys_append (obeys_say _) hr) (obeys_line _)
    · intro r hr
      obtain ⟨c, hc, rfl⟩ := List.mem_map.mp hr
      exact obeys_append (obeys_append (obeys_append (obeys_say _) (obeys_say _)) (obeys_line _))
        (obeys_nest (obeys_append (hcases c hc).2.content (obeys_line _)))
  throw r hr := obeys_append (obeys_append (obeys_say _) hr) (obeys_line _)
  mockedStatic handle owner forms r _ _ _ _ _ := obeys_refuse _ _
  stub r form _ _ _ := obeys_refuse _ _
  assertEquals r r' delta deep _ hr hr' _ := by
    cases delta
    all_goals
      repeat' refine obeys_append ?_ ?_
      all_goals simp [obeys_piece hassert, hr, hr']
  assertTrue r _ hr :=
    obeys_append (obeys_append (obeys_append (obeys_assertMember hassert _) hr) (obeys_say _))
      (obeys_line _)
  assertNull r _ hr :=
    obeys_append (obeys_append (obeys_append (obeys_assertMember hassert _) hr) (obeys_say _))
      (obeys_line _)
  assertThrows r b _ hr hb := by
    repeat' refine obeys_append ?_ ?_
    all_goals simp [obeys_piece hassert, hr, hb.content]
  fail message _ :=
    obeys_append (obeys_append (obeys_append (obeys_assertMember hassert _) (obeys_say _))
      (obeys_say _)) (obeys_line _)

omit h hassert in
theorem obeys_register (function title : String) : (register function title).Obeys D :=
  obeys_append (obeys_line _) obeys_indent

omit hassert in
theorem obeys_opening (m : Method) : (opening m).Obeys D := by
  simp only [opening]
  split
  · next info _ =>
    refine obeys_append ?_ ?_
    · cases info.disabled with
      | none => exact obeys_register _ _
      | some reason =>
          have hcomment := dialect.obeys_comment h.remarks rfl reason
          exact obeys_append (obeys_ok hcomment) (obeys_register _ _)
    · cases info.timeoutMillis with
      | none => exact obeys_nothing
      | some n => exact obeys_line _
  · exact obeys_register _ _
  · exact obeys_refuse _ _
  all_goals
    exact obeys_append (obeys_append (obeys_append (obeys_say _) (obeys_parameterNames _ _))
      (obeys_line _)) obeys_indent

omit h hassert in
theorem obeys_closing (m : Method) : (closing m).Obeys D := by
  refine obeys_append obeys_dedent ?_
  split <;> exact obeys_line _

/-- A method meets a demand when what it mentions is served. -/
theorem obeys_method {m : Method} (hm : ∀ x ∈ m.mentions, served x) :
    ((methods s).method m).Obeys D := by
  simp only [MethodForms.method]
  split
  · exact obeys_refuse _ _
  · next hkind =>
    have hbody := dialect.obeys_stmts (dialect_obeys h hassert) m.body
      (fun x hx => hm x (Method.mem_mentions_of_mem_body hkind hx)) fun l _ => Doc.obeys_plain _
    refine obeys_append (obeys_append (obeys_append (obeys_ite obeys_nothing ?_)
      (obeys_opening h m)) hbody) (obeys_closing m)
    exact obeys_ok (h.remarks (.starred true _) (Or.inr (Or.inr rfl)))

omit hassert in
theorem obeys_remarks : (methods s).RemarksObey D :=
  ⟨fun text => obeys_ok (h.remarks (.marked _ text) (Or.inr rfl)),
    fun lines => h.remarks (.starred false lines) (Or.inr (Or.inr rfl))⟩

/-- A file meets a demand when what its methods mention is served. -/
theorem obeys_file {f : SourceFile}
    (hm : ∀ m ∈ f.testClass.methods, ∀ x ∈ m.mentions, served x) : (file s f).Obeys D := by
  have hall : (methods s).AllObey D (f.testClass.regions ++ [f.testClass.statics]) := by
    intro m hmem
    exact obeys_method h hassert (hm m (by simpa [TestClass.methods] using hmem))
  have hregions := MethodForms.obeys_regions hall (obeys_remarks h)
  refine obeys_append (obeys_append (obeys_append (obeys_append ?_ ?_) (obeys_line _))
    (obeys_nest hregions)) (obeys_line _)
  · exact obeys_ite obeys_nothing (obeys_append (obeys_lines _) obeys_newline)
  · exact obeys_ite obeys_nothing (obeys_ok (h.remarks (.starred true _) (Or.inr (Or.inr rfl))))

end JavaScript

/-! ## Python -/

namespace Python

theorem obeys_call (method : String) {rs : List Rendering} (hrs : ∀ r ∈ rs, r.Obeys D) :
    (call method rs).Obeys D :=
  obeys_append (obeys_append (obeys_say _) (obeys_commas hrs)) (obeys_say _)

theorem obeys_suite {b : Block} (hb : b.content.Obeys D) : (suite b).Obeys D :=
  obeys_append hb (obeys_ite (obeys_append obeys_freshLine (obeys_line _)) obeys_nothing)

theorem obeys_chain {block : Block → Rendering} {value : Rendering}
    (hblock : ∀ b : Block, b.Obeys D → (block b).Obeys D) (hvalue : value.Obeys D) (word : String)
    {cases : List (Literal × Block)} (hcases : ∀ c ∈ cases, Block.Obeys D c.2) :
    (chain block value word cases).Obeys D := by
  induction cases generalizing word with
  | nil => exact obeys_nothing
  | cons c rest ih =>
      have hfirst := hblock c.2 (hcases c List.mem_cons_self)
      have hrest := ih "elif " fun x hx => hcases x (List.mem_cons_of_mem _ hx)
      refine obeys_append (obeys_append (obeys_append ?_ (obeys_line _)) hfirst) hrest
      exact obeys_append (obeys_append (obeys_append (obeys_say _) hvalue) (obeys_say _))
        (obeys_say _)

variable (h : ScriptNames D served .python (className s))
  (hpytest : isPytest s = true → D.holds (.module "pytest") "pytest")

include hpytest

theorem obeys_pytest (hs : isPytest s = true) (member : String) : (pytest member).Obeys D :=
  obeys_append (obeys_piece (hpytest hs)) (obeys_say _)

include h

/-- Python writes nothing but fixed words, its parts and names. -/
theorem dialect_obeys : (dialect s).Obeys D served where
  literal l _ := Doc.obeys_plain _
  comment := Dialect.obeys_comment h.remarks rfl
  comments := obeys_marked fun text => h.remarks (.marked _ text) (Or.inl rfl)
  helper k hk := h.helper k _ hk
  construct owner rs howner hrs := by
    repeat' refine obeys_append ?_ ?_
    all_goals simp [h.ofClass owner howner, obeys_commas hrs]
  callOn receiver r method rs hr hrs :=
    obeys_append (obeys_append hr (obeys_say _)) (obeys_call method hrs)
  callStatic owner method rs howner hrs :=
    obeys_append (obeys_append (obeys_ok (h.ofClass owner howner)) (obeys_say _))
      (obeys_call method hrs)
  callModule module method rs hmodule hrs := by
    repeat' refine obeys_append ?_ ?_
    all_goals simp [obeys_piece (h.function module method _ hmodule), obeys_commas hrs]
  staticField owner name howner := obeys_append (obeys_ok (h.ofClass owner howner)) (obeys_say _)
  allocate element size _ := obeys_say _
  arrayOf element onLines rs _ hrs :=
    obeys_append (obeys_append (obeys_say _) (obeys_elements onLines hrs)) (obeys_say _)
  lambda ps b _ hb := by
    simp only [dialect]
    split
    · exact obeys_refuse _ _
    · next e hsole =>
      refine obeys_append (obeys_ite (obeys_say _) ?_) (hb.sole e hsole)
      exact obeys_append (obeys_append (obeys_say _) (obeys_identifiers _)) (obeys_say _)
  equal r e r' hr hr' :=
    obeys_ite (obeys_append hr (obeys_say _)) (obeys_append (obeys_append hr (obeys_say _)) hr')
  cast type r _ hr := hr
  notNull r hr := hr
  classOf owner howner := obeys_ok (h.ofClass owner howner)
  length r hr := obeys_append (obeys_append (obeys_say _) hr) (obeys_say _)
  mock owner _ _ := obeys_refuse _ _
  declare name type isMutable initial _ hinitial := by
    refine obeys_append (obeys_append (obeys_append (obeys_identifier _ _) (obeys_say _)) ?_)
      obeys_newline
    cases initial with
    | none => exact obeys_say _
    | some e => exact hinitial e rfl
  branch r b b' hr hb hb' := by
    refine obeys_append (obeys_append ?_ (obeys_nest (obeys_suite hb.content)))
      (obeys_ite obeys_nothing ?_)
    · exact obeys_append (obeys_append (obeys_say _) hr) (obeys_line _)
    · exact obeys_append (obeys_line _) (obeys_nest (obeys_suite hb'.content))
  switch r cases b hr hcases hb := by
    refine obeys_ite hb.content (obeys_append ?_ (obeys_ite obeys_nothing ?_))
    · exact obeys_chain (fun b hb => obeys_nest (obeys_suite hb.content)) hr _
        fun c hc => (hcases c hc).2
    · exact obeys_append (obeys_line _) (obeys_nest (obeys_suite hb.content))
  throw r hr := obeys_append (obeys_append (obeys_say _) hr) obeys_newline
  mockedStatic handle owner forms r _ _ _ _ _ := obeys_refuse _ _
  stub r form _ _ _ := obeys_refuse _ _
  assertEquals r r' delta deep _ hr hr' _ := by
    simp only [dialect]
    split
    · next hs =>
      have happrox := obeys_pytest hpytest hs "approx("
      refine obeys_append (obeys_append ?_ ?_) obeys_newline
      · exact obeys_append (obeys_append (obeys_say _) hr') (obeys_say _)
      · cases delta with
        | none => exact hr
        | some l =>
            exact obeys_append (obeys_append (obeys_append (obeys_append happrox hr) (obeys_say _))
              (obeys_say _)) (obeys_say _)
    · refine obeys_append (obeys_append (obeys_append ?_ ?_) (obeys_say _)) obeys_newline
      · exact obeys_append (obeys_append (obeys_append (obeys_say _) hr) (obeys_say _)) hr'
      · cases delta with
        | none => exact obeys_nothing
        | some l => exact obeys_append (obeys_say _) (obeys_say _)
  assertTrue r _ hr := by
    refine obeys_ite ?_ ?_
    · exact obeys_append (obeys_append (obeys_say _) hr) obeys_newline
    · exact obeys_append (obeys_append (obeys_append (obeys_say _) hr) (obeys_say _)) obeys_newline
  assertNull r _ hr := by
    refine obeys_ite ?_ ?_ <;>
      exact obeys_append (obeys_append (obeys_append (obeys_say _) hr) (obeys_say _)) obeys_newline
  assertThrows r b _ hr hb := by
    refine obeys_append (obeys_append (obeys_append ?_ hr) (obeys_line _))
      (obeys_nest (obeys_suite hb.content))
    split
    · next hs => exact obeys_append (obeys_say _) (obeys_pytest hpytest hs _)
    · exact obeys_say _
  fail message _ := by
    refine obeys_append (obeys_append (obeys_append ?_ (obeys_say _)) (obeys_say _)) obeys_newline
    split
    · next hs => exact obeys_pytest hpytest hs _
    · exact obeys_say _

theorem obeys_decorators (hunittest : isPytest s = false → D.holds (.module "unittest") "unittest")
    (m : Method) : (decorators s (dialect s) m).Obeys D := by
  simp only [decorators]
  split
  · next info _ =>
    refine obeys_append ?_ ?_
    · cases info.disabled with
      | none => exact obeys_nothing
      | some reason =>
          simp only [skipDecorator]
          split
          · next hs =>
            exact obeys_append (obeys_append (obeys_append (obeys_say _)
              (obeys_pytest hpytest hs _)) (obeys_say _)) (obeys_line _)
          · next hs =>
            have hpiece := obeys_piece (hunittest (Bool.eq_false_iff.mpr hs))
            exact obeys_append (obeys_append (obeys_append (obeys_append (obeys_say _) hpiece)
              (obeys_say _)) (obeys_say _)) (obeys_line _)
    · cases info.timeoutMillis with
      | none => exact obeys_nothing
      | some n =>
          simp only [timeoutDecorator]
          split
          · next hs =>
            exact obeys_append (obeys_append (obeys_append (obeys_say _)
              (obeys_pytest hpytest hs _)) (obeys_say _)) (obeys_line _)
          · exact obeys_ok ((dialect s).obeys_comment h.remarks rfl _)
  · split
    · next hs =>
      exact obeys_append (obeys_append (obeys_append (obeys_say _) (obeys_pytest hpytest hs _))
        (obeys_say _)) (obeys_line _)
    · exact obeys_refuse _ _
  all_goals exact obeys_nothing

theorem obeys_opening (hunittest : isPytest s = false → D.holds (.module "unittest") "unittest")
    (m : Method) : (opening s (dialect s) m).Obeys D := by
  have hdecorators := obeys_decorators h hpytest hunittest m
  refine obeys_append (obeys_append (obeys_append (obeys_append hdecorators (obeys_say _))
    (obeys_commas ?_)) (obeys_line _)) obeys_indent
  intro r hr
  rcases List.mem_append.mp hr with hr | hr
  · split at hr
    · cases hr
    · cases List.mem_singleton.mp hr
      exact obeys_say _
  · obtain ⟨p, -, rfl⟩ := List.mem_map.mp hr
    exact obeys_identifier _ _

variable (hunittest : isPytest s = false → D.holds (.module "unittest") "unittest")

include hunittest

/-- A method meets a demand when what it mentions is served. -/
theorem obeys_method {m : Method} (hm : ∀ x ∈ m.mentions, served x) :
    ((methods s).method m).Obeys D := by
  simp only [MethodForms.method]
  split
  · next k _ =>
    simp only [methods]
    split
    · exact obeys_lines _
    · exact obeys_refuse _ _
  · next hkind =>
    have hbody := (dialect s).obeys_stmts (dialect_obeys h hpytest) m.body
      (fun x hx => hm x (Method.mem_mentions_of_mem_body hkind hx)) fun l _ => Doc.obeys_plain _
    refine obeys_append (obeys_append (obeys_opening h hpytest hunittest m) (obeys_ite ?_ ?_))
      (obeys_append obeys_freshLine obeys_dedent)
    · exact obeys_suite (by rwa [Dialect.content_blockOf])
    · exact obeys_append (obeys_ok (h.remarks (.quoted _) rfl)) hbody

omit hpytest hunittest in
theorem obeys_remarks : (methods s).RemarksObey D :=
  ⟨fun text => obeys_ok (h.remarks (.marked _ text) (Or.inr rfl)),
    obeys_marked fun text => h.remarks (.marked _ text) (Or.inl rfl)⟩

omit h hpytest hunittest in
theorem obeys_gap (before : Doc) : Doc.Obeys D (gap before) := by
  simp only [gap]
  split
  · exact Doc.obeys_nil
  · exact Doc.obeys_cons Doc.obeys_newline Doc.obeys_newline

omit h hpytest hunittest in
theorem obeys_testClass {forms : MethodForms} {c : TestClass} (hremarks : D.TakesRemarks .python)
    (hclass : ∀ superclass ∈ c.superclass, Doc.Obeys D (forms.dialect.className superclass))
    (hregions : (forms.regions c.regions).Obeys D) : (testClass forms c).Obeys D := by
  refine obeys_append (obeys_append (obeys_say _) ?_) (obeys_nest (obeys_append ?_ hregions))
  · cases hsuper : c.superclass with
    | none => exact obeys_line _
    | some superclass =>
        exact obeys_append (obeys_append (obeys_say _) (obeys_ok (hclass superclass hsuper)))
          (obeys_line _)
  · refine obeys_ite (obeys_append (obeys_ok (hremarks (.quoted _) rfl)) ?_) ?_
    · exact obeys_ite obeys_newline obeys_nothing
    · exact obeys_ite obeys_nothing (obeys_line _)

/-- A file meets a demand when its superclass does and what its methods mention is served. -/
theorem obeys_file {f : SourceFile}
    (hclass : ∀ superclass ∈ f.testClass.superclass, Doc.Obeys D (className s superclass))
    (hm : ∀ m ∈ f.testClass.methods, ∀ x ∈ m.mentions, served x) : (file s f).Obeys D := by
  have hall : (methods s).AllObey D (f.testClass.regions ++ [f.testClass.statics]) := by
    intro m hmem
    exact obeys_method h hpytest hunittest (hm m (by simpa [TestClass.methods] using hmem))
  have hremarks := obeys_remarks h
  have hstatics := hall.region hremarks f.testClass.statics (List.mem_append_right _ (by simp))
  have hregions : (methods s).AllObey D f.testClass.regions := by
    intro m hmem
    exact hall m (by simp_all)
  have himports : Doc.Obeys D
      ((importLines f.imports).flatMap fun text => [.text .plain text, .newline]) :=
    Doc.obeys_flatMap fun text _ => Doc.obeys_cons (Doc.obeys_plain _) Doc.obeys_newline
  have htestClass : (testClass (methods s) f.testClass).Obeys D :=
    obeys_testClass h.remarks hclass (MethodForms.obeys_regions hregions hremarks)
  have habove : ∀ before, Rendering.Obeys D (if f.testClass.statics.isEmpty then nothing
      else .ok (gap before) ++ (methods s).region f.testClass.statics) :=
    fun before => obeys_ite obeys_nothing (obeys_append (obeys_ok (obeys_gap before)) hstatics)
  simp only [file]
  split
  · exact obeys_error _
  · next statics hok =>
    refine obeys_append (obeys_ok ?_) htestClass
    exact Doc.obeys_append (Doc.obeys_append himports (habove _ statics hok)) (obeys_gap _)

end Python

end TestWriter.Target
