import TestWriter.Proofs.CodePieces
import TestWriter.Target.Kotlin

/-!
# Pieces of files of the JVM

Java and Kotlin write a class by the name that its surroundings allow, and members of the
frameworks, functions and helpers bare.  Main statements: a file in one of the two languages meets a
demand when the names of classes do and everything that its methods and annotations mention is
served.
-/

namespace TestWriter.Target

open Layout Layout.Rendering

variable {D : Demand} {served : Mention → Prop} {s : Surroundings} {l : Language}
  {implicitPackage : String}

/-- What code of the JVM writes beside fixed words meets a demand: comments, names of classes and
names of static members of classes without a package always, other names when they are served. -/
structure JvmNames (D : Demand) (served : Mention → Prop) (s : Surroundings) (l : Language)
    (implicitPackage : String) : Prop where
  remarks : D.TakesRemarks l
  className : ∀ c, D.holds (.ofClass c) (s.className implicitPackage c)
  staticMember : ∀ owner name text, owner.isGlobal = true → D.holds (.staticMember owner name) text
  assertion : ∀ name, served (.assertion name) →
    D.holds (.member (s.settings.framework.assertionsClass?.getD "") name) name
  mocking : ∀ name text, served (.mocking name) →
    D.holds (.member MockLibrary.mockito.facade name) text
  helper : ∀ h text, served (.helper h) → D.holds (.helper h) text

/-! ## Parts of both languages -/

theorem obeys_assertion (h : JvmNames D served s l implicitPackage) {name : String}
    (hname : served (.assertion name)) : (Java.assertion s name).Obeys D :=
  obeys_piece (h.assertion name hname)

theorem obeys_mockMember (h : JvmNames D served s l implicitPackage) {name : String}
    (hname : served (.mocking name)) : (Java.mockMember name).Obeys D :=
  obeys_piece (h.mocking name name hname)

theorem obeys_equalityArguments {r r' : Rendering} (hr : r.Obeys D) (hr' : r'.Obeys D) :
    (Java.equalityArguments s r r').Obeys D :=
  obeys_ite (obeys_append (obeys_append hr' (obeys_say _)) hr)
    (obeys_append (obeys_append hr (obeys_say _)) hr')

/-- Annotations name their classes, and their arguments are code. -/
theorem obeys_jvmAnnotations {d : Dialect} (hd : d.Obeys D served)
    (hclass : ∀ c, Doc.Obeys D (d.className c)) (hliteral : ∀ l, Doc.Obeys D (d.literal l))
    (suffix : String) {annotations : List AnnotationUse}
    (h : ∀ m ∈ annotations.flatMap AnnotationUse.mentions, served m) :
    (jvmAnnotations d suffix annotations).Obeys D := by
  refine obeys_concat ?_
  intro r hr
  obtain ⟨a, ha, rfl⟩ := List.mem_map.mp hr
  have hargument : ∀ argument ∈ a.arguments, (d.expr argument.2).Obeys D := by
    intro argument hargument
    refine d.obeys_expr hd _ ?_ fun l _ => hliteral l
    intro m hm
    refine h m (List.mem_flatMap.mpr ⟨a, ha, List.mem_cons_of_mem _ ?_⟩)
    exact List.mem_flatMap.mpr ⟨argument, hargument, hm⟩
  refine obeys_append (obeys_append ?_ (obeys_ite obeys_nothing ?_)) obeys_newline
  · exact obeys_append (obeys_say _) (obeys_ok (hclass _))
  · refine obeys_brackets (obeys_commas ?_)
    intro r hr
    obtain ⟨⟨name, e⟩, he, rfl⟩ := List.mem_map.mp hr
    cases name
    case' some name => refine obeys_append (obeys_say _) ?_
    all_goals
      dsimp only
      split
      · exact obeys_append (obeys_ok (hclass _)) (obeys_say _)
      · exact hargument _ he

/-- What a method of the JVM mentions, its annotations included. -/
def jvmMentions (framework : Framework) (m : Method) : List Mention :=
  (methodAnnotations framework m).flatMap AnnotationUse.mentions ++ m.mentions

/-! ## Java -/

namespace Java

variable (h : JvmNames D served s .java "java.lang")

include h

theorem obeys_className (c : ClassName) : Doc.Obeys D (className s c) :=
  Doc.obeys_text (h.className c)

theorem obeys_typeName (t : DataType) : Doc.Obeys D (typeName s t) := by
  induction t with
  | array element ih => exact Doc.obeys_append ih (Doc.obeys_plain _)
  | ofClass c => exact obeys_className h c
  | _ => exact Doc.obeys_plain _

omit h

theorem obeys_call (method : String) {rs : List Rendering} (hrs : ∀ r ∈ rs, r.Obeys D) :
    (call method rs).Obeys D :=
  obeys_append (obeys_append (obeys_say _) (obeys_commas hrs)) (obeys_say _)

theorem obeys_lambda {names : Rendering} (hnames : names.Obeys D) (arrow : String) {b : Block}
    (hb : b.Obeys D) : (lambda names arrow b).Obeys D := by
  refine obeys_append (obeys_append (obeys_append (obeys_say _) hnames) (obeys_say _)) ?_
  cases hsole : b.sole with
  | some e => exact hb.sole e hsole
  | none => exact obeys_append (obeys_append (obeys_line _) (obeys_nest hb.content)) (obeys_say _)

include h

theorem obeys_callStatic (owner : ClassName) (method : String) {rs : List Rendering}
    (hrs : ∀ r ∈ rs, r.Obeys D) : (callStatic s owner method rs).Obeys D := by
  unfold callStatic
  split
  · next hglobal =>
    have hname := obeys_piece (h.staticMember owner method method hglobal)
    exact obeys_append (obeys_append (obeys_append hname (obeys_say _)) (obeys_commas hrs))
      (obeys_say _)
  · exact obeys_append (obeys_append (obeys_ok (obeys_className h owner)) (obeys_say _))
      (obeys_call method hrs)

/-- Java writes nothing but fixed words, its parts and names. -/
theorem dialect_obeys : (dialect s).Obeys D served where
  literal l _ := Doc.obeys_plain _
  comment := Dialect.obeys_comment h.remarks rfl
  comments lines := h.remarks (.starred false lines) (Or.inl rfl)
  helper k hk := h.helper k _ hk
  construct owner rs _ hrs := by
    repeat' refine obeys_append ?_ ?_
    all_goals simp [obeys_className h, obeys_commas hrs]
  callOn receiver r method rs hr hrs :=
    obeys_append (obeys_append (obeys_ite (obeys_brackets hr) hr) (obeys_say _))
      (obeys_call method hrs)
  callStatic owner method rs _ hrs := obeys_callStatic h owner method hrs
  callModule module method rs _ hrs := obeys_callStatic h module method hrs
  staticField owner name _ := obeys_append (obeys_ok (obeys_className h owner)) (obeys_say _)
  allocate element size _ :=
    obeys_append (obeys_append (obeys_say _) (obeys_ok (obeys_typeName h _))) (obeys_say _)
  arrayOf element onLines rs _ hrs := by
    repeat' refine obeys_append ?_ ?_
    all_goals simp [obeys_typeName h, obeys_elements onLines hrs]
  lambda ps b _ hb := obeys_lambda (obeys_identifiers _) _ hb
  equal r e r' hr hr' := obeys_append (obeys_append hr (obeys_say _)) hr'
  cast type r _ hr := by
    repeat' refine obeys_append ?_ ?_
    all_goals simp [obeys_typeName h, hr]
  notNull r _ := obeys_refuse _ _
  classOf owner _ := obeys_append (obeys_ok (obeys_className h owner)) (obeys_say _)
  length r hr := obeys_append hr (obeys_say _)
  mock owner hmock _ := by
    repeat' refine obeys_append ?_ ?_
    all_goals simp [obeys_className h, obeys_mockMember h hmock]
  declare name type isMutable initial _ hinitial := by
    refine obeys_append (obeys_append ?_ ?_) (obeys_line _)
    · exact obeys_append (obeys_append (obeys_ok (obeys_typeName h type)) (obeys_say _))
        (obeys_identifier _ _)
    · cases initial with
      | none => exact obeys_nothing
      | some e => exact obeys_append (obeys_say _) (hinitial e rfl)
  branch r b b' hr hb hb' := by
    refine obeys_bracedBranch (fun b hb => obeys_nest hb.content) ?_ hb hb'
    exact obeys_append (obeys_append (obeys_say _) hr) (obeys_line _)
  switch r cases b hr hcases hb := by
    refine obeys_append (obeys_append ?_ (obeys_nest (obeys_append (obeys_concat ?_) ?_)))
      (obeys_line _)
    · exact obeys_append (obeys_append (obeys_say _) hr) (obeys_line _)
    · intro r hr
      obtain ⟨c, hc, rfl⟩ := List.mem_map.mp hr
      exact obeys_append (obeys_append (obeys_append (obeys_say _) (obeys_say _)) (obeys_line _))
        (obeys_nest (obeys_append (hcases c hc).2.content (obeys_line _)))
    · exact obeys_ite obeys_nothing (obeys_append (obeys_line _) (obeys_nest hb.content))
  throw r hr := obeys_append (obeys_append (obeys_say _) hr) (obeys_line _)
  mockedStatic handle owner forms r _ hmock _ hforms hr := by
    refine obeys_append (obeys_append ?_ (obeys_nest (obeys_append (obeys_concat ?_) hr)))
      (obeys_line _)
    · repeat' refine obeys_append ?_ ?_
      all_goals simp [obeys_className h, obeys_mockMember h hmock]
    · intro x hx
      obtain ⟨f, hf, rfl⟩ := List.mem_map.mp hx
      have hform := hforms f hf
      repeat' refine obeys_append ?_ ?_
      all_goals simp [obeys_className h, obeys_commas hform.arguments, hform.returns]
  stub r form hmock hr hform := by
    repeat' refine obeys_append ?_ ?_
    all_goals simp [obeys_mockMember h hmock, hr, obeys_commas hform.arguments, hform.returns]
  assertEquals r r' delta deep hassert hr hr' _ := by
    refine obeys_append (obeys_append (obeys_append ?_ ?_) (obeys_say _)) (obeys_line _)
    · exact obeys_append (obeys_append (obeys_assertion h hassert) (obeys_say _))
        (obeys_equalityArguments hr hr')
    · cases delta with
      | none => exact obeys_nothing
      | some l => exact obeys_append (obeys_say _) (obeys_say _)
  assertTrue r hassert hr := by
    repeat' refine obeys_append ?_ ?_
    all_goals simp [obeys_assertion h hassert, hr]
  assertNull r hassert hr := by
    repeat' refine obeys_append ?_ ?_
    all_goals simp [obeys_assertion h hassert, hr]
  assertThrows r b hassert hr hb := by
    refine obeys_append (obeys_append (obeys_append ?_ ?_) (obeys_say _)) (obeys_line _)
    · exact obeys_append (obeys_append (obeys_append (obeys_assertion h hassert) (obeys_say _)) hr)
        (obeys_say _)
    · exact obeys_lambda obeys_nothing _ hb
  fail message hassert := by
    repeat' refine obeys_append ?_ ?_
    all_goals simp [obeys_assertion h hassert]

theorem obeys_opening {m : Method}
    (hm : ∀ x ∈ jvmMentions s.settings.framework m, served x) :
    (opening s (dialect s) m).Obeys D := by
  have hannotations := obeys_jvmAnnotations (dialect_obeys h) (obeys_className h)
    (fun l => Doc.obeys_plain _) ".class" fun x hx => hm x (List.mem_append_left _ hx)
  have hparameters : (commas (m.parameters.map (parameter (dialect s)))).Obeys D := by
    refine obeys_commas ?_
    intro r hr
    obtain ⟨p, -, rfl⟩ := List.mem_map.mp hr
    exact obeys_append (obeys_append (obeys_ok (obeys_typeName h _)) (obeys_say _))
      (obeys_identifier _ _)
  have hhead : ∀ start, Rendering.Obeys D start →
      (start ++ (say (m.name ++ "(") ++ commas (m.parameters.map (parameter (dialect s))) ++
        line r") throws Throwable {")).Obeys D := fun start hstart =>
    obeys_append hstart (obeys_append (obeys_append (obeys_say _) hparameters) (obeys_line _))
  refine obeys_append (obeys_append hannotations ?_) obeys_indent
  split
  · refine hhead _ ?_
    exact obeys_append (obeys_append (obeys_say _) (obeys_ok (obeys_typeName h _))) (obeys_say _)
  · exact hhead _ (obeys_say _)

/-- A method meets a demand when what it and its annotations mention is served. -/
theorem obeys_method {m : Method}
    (hm : ∀ x ∈ jvmMentions s.settings.framework m, served x) :
    ((methods s).method m).Obeys D := by
  simp only [MethodForms.method]
  split
  · exact obeys_lines _
  · next hkind =>
    have hbody := (dialect s).obeys_stmts (dialect_obeys h) m.body
      (fun x hx => hm x (List.mem_append_right _ (Method.mem_mentions_of_mem_body hkind hx)))
      fun l _ => Doc.obeys_plain _
    refine obeys_append (obeys_append (obeys_append (obeys_ite obeys_nothing ?_)
      (obeys_opening h hm)) hbody) (obeys_append obeys_dedent (obeys_line _))
    exact obeys_ok (h.remarks (.starred true _) (Or.inl rfl))

theorem obeys_remarks : (methods s).RemarksObey D :=
  ⟨fun text => obeys_ok (h.remarks (.marked _ text) (Or.inr rfl)),
    fun lines => h.remarks (.starred false lines) (Or.inl rfl)⟩

omit h in
theorem obeys_importGroup (texts : List String) : (importGroup texts).Obeys D :=
  obeys_ite obeys_nothing (obeys_append (obeys_lines texts) obeys_newline)

/-- A file meets a demand when what its methods and annotations mention is served. -/
theorem obeys_file {f : SourceFile}
    (hclass : ∀ x ∈ f.testClass.annotations.flatMap AnnotationUse.mentions, served x)
    (hmethods : ∀ m ∈ f.testClass.methods, ∀ x ∈ jvmMentions s.settings.framework m, served x) :
    (file s f).Obeys D := by
  have hall : (methods s).AllObey D (f.testClass.regions ++ [f.testClass.statics]) := by
    intro m hm
    exact obeys_method h (hmethods m (by simpa [TestClass.methods] using hm))
  have hregions := MethodForms.obeys_regions hall (obeys_remarks h)
  have hannotations := obeys_jvmAnnotations (dialect_obeys h) (obeys_className h)
    (fun l => Doc.obeys_plain _) ".class" hclass
  refine obeys_append (obeys_append (obeys_append ?_ (obeys_line _)) (obeys_nest hregions))
    (obeys_line _)
  refine obeys_append (obeys_append (obeys_append (obeys_append (obeys_append (obeys_append
    (obeys_append ?_ (obeys_importGroup _)) (obeys_importGroup _)) ?_) hannotations)
    (obeys_say _)) ?_) ?_
  · cases f.package with
    | none => exact obeys_nothing
    | some package => exact obeys_append (obeys_line _) obeys_newline
  · exact obeys_ite obeys_nothing (obeys_ok (h.remarks (.starred true _) (Or.inl rfl)))
  · cases f.testClass.superclass with
    | none => exact obeys_nothing
    | some superclass => exact obeys_append (obeys_say _) (obeys_ok (obeys_className h _))
  · refine obeys_ite obeys_nothing (obeys_append (obeys_say _) (obeys_commas ?_))
    intro r hr
    obtain ⟨i, -, rfl⟩ := List.mem_map.mp hr
    exact obeys_ok (obeys_className h i)

end Java

/-! ## Kotlin -/

namespace Kotlin

variable (hclass : ∀ c, D.holds (.ofClass c) (s.className "kotlin" c))

include hclass

theorem obeys_className (c : ClassName) : Doc.Obeys D (className s c) :=
  Doc.obeys_text (hclass c)

omit hclass

theorem obeys_nullMark (t : DataType) : Doc.Obeys D (nullMark t) := by
  simp only [nullMark]
  split
  · exact Doc.obeys_plain _
  · exact Doc.obeys_nil

theorem obeys_call (method : String) {rs : List Rendering} (hrs : ∀ r ∈ rs, r.Obeys D) :
    (call method rs).Obeys D :=
  obeys_append (obeys_append (obeys_append (obeys_say _) (obeys_say _)) (obeys_commas hrs))
    (obeys_say _)

include hclass

theorem obeys_unmarkedType (t : DataType) : Doc.Obeys D (unmarkedType s t) := by
  fun_induction unmarkedType s t with
  | case4 c => exact obeys_className hclass c
  | case5 p => exact Doc.obeys_cons (Doc.obeys_plain _) (Doc.obeys_plain _)
  | case6 element hprimitive ih =>
      exact Doc.obeys_append (Doc.obeys_append (Doc.obeys_append (Doc.obeys_plain _) ih)
        (obeys_nullMark element)) (Doc.obeys_plain _)
  | _ => exact Doc.obeys_plain _

theorem obeys_typeName (t : DataType) : Doc.Obeys D (typeName s t) :=
  Doc.obeys_append (obeys_unmarkedType hclass t) (obeys_nullMark t)

theorem obeys_parameter (p : Parameter) : (parameter s p).Obeys D := by
  refine obeys_append (obeys_append (obeys_identifier _ _) (obeys_say _)) ?_
  cases p.type with
  | ofClass c => exact obeys_ok (obeys_className hclass c)
  | _ => exact obeys_ok (obeys_typeName hclass _)

omit hclass

variable (h : JvmNames D served s .kotlin "kotlin")

include h

/-- Kotlin writes nothing but fixed words, its parts and names; functions of modules stand bare. -/
theorem dialect_obeys (hfunction : ∀ module name text, served (.function module name) →
    D.holds (.function module name) text) : (dialect s).Obeys D served where
  literal l _ := Doc.obeys_plain _
  comment := Dialect.obeys_comment h.remarks rfl
  comments lines := h.remarks (.starred false lines) (Or.inr (Or.inl rfl))
  helper k hk := h.helper k _ hk
  construct owner rs _ hrs := by
    repeat' refine obeys_append ?_ ?_
    all_goals simp [obeys_className h.className, obeys_commas hrs]
  callOn receiver r method rs hr hrs :=
    obeys_append (obeys_append (obeys_ite (obeys_brackets hr) hr) (obeys_say _))
      (obeys_call method hrs)
  callStatic owner method rs _ hrs := by
    dsimp only [dialect]
    split
    · next hglobal =>
      have hname := obeys_piece (h.staticMember owner method (identifier method) hglobal)
      exact obeys_append (obeys_append (obeys_append hname (obeys_say _)) (obeys_commas hrs))
        (obeys_say _)
    · exact obeys_append (obeys_append (obeys_ok (obeys_className h.className owner)) (obeys_say _))
        (obeys_call method hrs)
  callModule module method rs hmodule hrs := by
    repeat' refine obeys_append ?_ ?_
    all_goals simp [obeys_piece (hfunction module method _ hmodule), obeys_commas hrs]
  staticField owner name _ :=
    obeys_append (obeys_ok (obeys_className h.className owner)) (obeys_say _)
  allocate element size _ := by
    cases element with
    | primitive p => exact obeys_say _
    | _ =>
        exact obeys_append (obeys_append (obeys_say _)
          (obeys_ok (obeys_unmarkedType h.className _))) (obeys_say _)
  arrayOf element onLines rs _ hrs := by
    refine obeys_append (obeys_append (obeys_append ?_ (obeys_say _))
      (obeys_elements onLines hrs)) (obeys_say _)
    cases element with
    | primitive p => exact obeys_say _
    | _ =>
        exact obeys_append (obeys_append (obeys_say _) (obeys_ok (obeys_typeName h.className _)))
          (obeys_say _)
  lambda ps b _ hb := by
    have harrow : Rendering.Obeys D (if ps.isEmpty then nothing
        else say " " ++ commas (ps.map fun p => piece (.identifier p.name) (identifier p.name)) ++
          say " ->") :=
      obeys_ite obeys_nothing (obeys_append (obeys_append (obeys_say _) (obeys_identifiers _))
        (obeys_say _))
    simp only [dialect]
    split
    · next e hsole =>
      exact obeys_append (obeys_append (obeys_append (obeys_append (obeys_say _) harrow)
        (obeys_say _)) (hb.sole e hsole)) (obeys_say _)
    · exact obeys_append (obeys_append (obeys_append (obeys_append (obeys_say _) harrow)
        obeys_newline) (obeys_nest hb.content)) (obeys_say _)
  equal r e r' hr hr' := obeys_append (obeys_append hr (obeys_say _)) hr'
  cast type r _ hr := by
    repeat' refine obeys_append ?_ ?_
    all_goals simp [obeys_unmarkedType h.className, hr]
  notNull r hr := obeys_append hr (obeys_say _)
  classOf owner _ := obeys_append (obeys_ok (obeys_className h.className owner)) (obeys_say _)
  length r hr := obeys_append hr (obeys_say _)
  mock owner hmock _ := by
    repeat' refine obeys_append ?_ ?_
    all_goals simp [obeys_className h.className, obeys_mockMember h hmock]
  declare name type isMutable initial _ hinitial := by
    cases initial with
    | none =>
        exact obeys_append (obeys_append (obeys_append (obeys_append (obeys_say _)
          (obeys_identifier _ _)) (obeys_say _)) (obeys_ok (obeys_typeName h.className type)))
          obeys_newline
    | some e =>
        exact obeys_append (obeys_append (obeys_append (obeys_append (obeys_say _)
          (obeys_identifier _ _)) (obeys_say _)) (hinitial e rfl)) obeys_newline
  branch r b b' hr hb hb' := by
    refine obeys_bracedBranch (fun b hb => obeys_nest hb.content) ?_ hb hb'
    exact obeys_append (obeys_append (obeys_say _) hr) (obeys_line _)
  switch r cases b hr hcases hb := by
    refine obeys_append (obeys_append ?_ (obeys_nest (obeys_append (obeys_append (obeys_append
      (obeys_concat ?_) (obeys_line _)) (obeys_nest hb.content)) (obeys_line _)))) (obeys_line _)
    · exact obeys_append (obeys_append (obeys_say _) hr) (obeys_line _)
    · intro r hr
      obtain ⟨c, hc, rfl⟩ := List.mem_map.mp hr
      exact obeys_append (obeys_append (obeys_append (obeys_say _) (obeys_line _))
        (obeys_nest (hcases c hc).2.content)) (obeys_line _)
  throw r hr := obeys_append (obeys_append (obeys_say _) hr) obeys_newline
  mockedStatic handle owner forms r _ hmock _ hforms hr := by
    refine obeys_append (obeys_append ?_ (obeys_nest (obeys_append (obeys_concat ?_) hr)))
      (obeys_line _)
    · repeat' refine obeys_append ?_ ?_
      all_goals simp [obeys_className h.className, obeys_mockMember h hmock]
    · intro x hx
      obtain ⟨f, hf, rfl⟩ := List.mem_map.mp hx
      have hform := hforms f hf
      repeat' refine obeys_append ?_ ?_
      all_goals simp [obeys_className h.className, obeys_commas hform.arguments, hform.returns]
  stub r form hmock hr hform := by
    have hname := obeys_piece (h.mocking "when" "`when`" hmock)
    repeat' refine obeys_append ?_ ?_
    all_goals simp [hname, hr, obeys_commas hform.arguments, hform.returns]
  assertEquals r r' delta deep hassert hr hr' _ := by
    refine obeys_append (obeys_append ?_ ?_) (obeys_line _)
    · exact obeys_append (obeys_append (obeys_assertion h hassert) (obeys_say _))
        (obeys_equalityArguments hr hr')
    · cases delta with
      | none => exact obeys_nothing
      | some l => exact obeys_append (obeys_say _) (obeys_say _)
  assertTrue r hassert hr := by
    repeat' refine obeys_append ?_ ?_
    all_goals simp [obeys_assertion h hassert, hr]
  assertNull r hassert hr := by
    repeat' refine obeys_append ?_ ?_
    all_goals simp [obeys_assertion h hassert, hr]
  assertThrows r b hassert hr hb := by
    have hblock := obeys_nest hb.content
    refine obeys_append (obeys_append ?_ hblock) (obeys_line _)
    repeat' refine obeys_append ?_ ?_
    all_goals simp [obeys_assertion h hassert, hr]
  fail message hassert := by
    repeat' refine obeys_append ?_ ?_
    all_goals simp [obeys_assertion h hassert]

theorem obeys_remarks : (methods s).RemarksObey D :=
  ⟨fun text => obeys_ok (h.remarks (.marked _ text) (Or.inr rfl)),
    fun lines => h.remarks (.starred false lines) (Or.inr (Or.inl rfl))⟩

theorem obeys_body {c : TestClass} (hall : (methods s).AllObey D (c.regions ++ [c.statics])) :
    (body (methods s) c).Obeys D := by
  have hremarks := obeys_remarks h
  simp only [body]
  split
  · exact MethodForms.obeys_regions hall hremarks
  · have hregions : (methods s).AllObey D c.regions := by
      intro m hm
      exact hall m (by simp_all)
    have hstatics := hall.region hremarks c.statics (List.mem_append_right _ (by simp))
    refine obeys_append (MethodForms.obeys_regions hregions hremarks) (obeys_ite obeys_nothing ?_)
    refine obeys_append (obeys_append (obeys_append (obeys_ite obeys_nothing obeys_newline)
      (obeys_line _)) (obeys_nest hstatics)) (obeys_line _)

omit h in
theorem obeys_onOwnLines {r : Rendering} (hr : r.Obeys D.byPieces) : (onOwnLines r).Obeys D :=
  obeys_append (obeys_breakLines hr) obeys_newline

variable (hfunction : ∀ module name text, served (.function module name) →
  D.holds (.function module name) text)

include hfunction

theorem obeys_opening {m : Method}
    (hm : ∀ x ∈ jvmMentions s.settings.framework m, served x) :
    (opening s (dialect s) m).Obeys D := by
  have hannotations := obeys_jvmAnnotations (dialect_obeys h hfunction)
    (obeys_className h.className) (fun l => Doc.obeys_plain _) "::class"
    fun x hx => hm x (List.mem_append_left _ hx)
  have hclass : ∀ c, D.byPieces.holds (.ofClass c) (s.className "kotlin" c) :=
    fun c => Demand.holds_byPieces (by simp) (h.className c)
  have hparameters : (commas (m.parameters.map (parameter s))).Obeys D.byPieces := by
    refine obeys_commas ?_
    intro r hr
    obtain ⟨p, -, rfl⟩ := List.mem_map.mp hr
    exact obeys_parameter hclass p
  have hhead : Rendering.Obeys D.byPieces
      (say "fun " ++ (say (m.name ++ "(") ++ commas (m.parameters.map (parameter s)) ++ say ")")) :=
    obeys_append (obeys_say _) (obeys_append (obeys_append (obeys_say _) hparameters) (obeys_say _))
  refine obeys_append (obeys_append hannotations ?_) obeys_indent
  split
  · refine obeys_append (obeys_line _) (obeys_onOwnLines ?_)
    exact obeys_append (obeys_append (obeys_append hhead (obeys_say _))
      (obeys_ok (obeys_unmarkedType hclass _))) (obeys_say _)
  · exact obeys_onOwnLines (obeys_append hhead (obeys_say _))

/-- A method meets a demand when what it and its annotations mention is served. -/
theorem obeys_method {m : Method}
    (hm : ∀ x ∈ jvmMentions s.settings.framework m, served x) :
    ((methods s).method m).Obeys D := by
  simp only [MethodForms.method]
  split
  · exact obeys_lines _
  · next hkind =>
    have hbody := (dialect s).obeys_stmts (dialect_obeys h hfunction) m.body
      (fun x hx => hm x (List.mem_append_right _ (Method.mem_mentions_of_mem_body hkind hx)))
      fun l _ => Doc.obeys_plain _
    refine obeys_append (obeys_append (obeys_append (obeys_ite obeys_nothing ?_)
      (obeys_opening h hfunction hm)) hbody) (obeys_append obeys_dedent (obeys_line _))
    exact obeys_ok (h.remarks (.starred true _) (Or.inr (Or.inl rfl)))

/-- A file meets a demand when what its methods and annotations mention is served. -/
theorem obeys_file {f : SourceFile}
    (hclass : ∀ x ∈ f.testClass.annotations.flatMap AnnotationUse.mentions, served x)
    (hmethods : ∀ m ∈ f.testClass.methods, ∀ x ∈ jvmMentions s.settings.framework m, served x) :
    (file s f).Obeys D := by
  have hall : (methods s).AllObey D (f.testClass.regions ++ [f.testClass.statics]) := by
    intro m hm
    exact obeys_method h hfunction (hmethods m (by simpa [TestClass.methods] using hm))
  have hannotations := obeys_jvmAnnotations (dialect_obeys h hfunction)
    (obeys_className h.className) (fun l => Doc.obeys_plain _) "::class" hclass
  refine obeys_append (obeys_append (obeys_append ?_ (obeys_line _))
    (obeys_nest (obeys_body h hall))) (obeys_line _)
  refine obeys_append (obeys_append (obeys_append (obeys_append (obeys_append ?_
    (Java.obeys_importGroup _)) ?_) hannotations) (obeys_say _)) ?_
  · cases f.package with
    | none => exact obeys_nothing
    | some package => exact obeys_append (obeys_line _) obeys_newline
  · exact obeys_ite obeys_nothing (obeys_ok (h.remarks (.starred true _) (Or.inr (Or.inl rfl))))
  · refine obeys_ite obeys_nothing (obeys_append (obeys_say _) (obeys_commas ?_))
    intro r hr
    rcases List.mem_append.mp hr with hr | hr
    · obtain ⟨superclass, -, rfl⟩ := Option.map_eq_some_iff.mp (Option.mem_toList.mp hr)
      exact obeys_append (obeys_ok (obeys_className h.className _)) (obeys_say _)
    · obtain ⟨i, -, rfl⟩ := List.mem_map.mp hr
      exact obeys_ok (obeys_className h.className i)

end Kotlin

end TestWriter.Target
