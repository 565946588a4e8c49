import TestWriter.Proofs.ImportCoverage
import TestWriter.Proofs.WrittenLanguages

/-!
# Files that are written

A construction never fails, so a generation fails only where its file is refused.  Main statements:
outside Go every built method is written, whatever values its tests hold, and so is the file of
every construction; a generation outside Go always gives tests.
-/

namespace TestWriter

open Layout Rendering

/-! ## Annotations -/

/-- The short name of the class holds no point. -/
def ClassName.IsSimple (c : ClassName) : Prop := '.' ∉ c.name.toList

instance (c : ClassName) : Decidable c.IsSimple :=
  inferInstanceAs (Decidable ('.' ∉ c.name.toList))

/-- The literals by which a framework is told how to run a method. -/
inductive Literal.IsOption : Literal → Prop
  | str (s : String) : IsOption (.str s)
  | long (n : Int64) : IsOption (.long n)
  | bool (b : Bool) : IsOption (.bool b)

namespace AnnotationUse

/-- A property that annotations without arguments have and that the arguments of the frameworks
keep. -/
structure Additive (Q : AnnotationUse → Prop) : Prop where
  mark : ∀ c : ClassName, c.IsSimple → Q ⟨c, []⟩
  value : ∀ a text, Q a → Q (a.withValue (.str text))
  argument : ∀ a name l, l.IsOption → Q a → Q (a.withArgument name (.literal l))
  unit : ∀ a, Q a → Q (a.withArgument "unit"
    (.staticField ⟨"java.util.concurrent", "TimeUnit"⟩ "MILLISECONDS"))

/-- The arguments of an annotation are atoms and classes. -/
def IsPlain (a : AnnotationUse) : Prop := ∀ argument ∈ a.arguments, argument.2.IsCell

theorem isPlain_marker (package name : String) : (marker package name).IsPlain :=
  List.forall_mem_nil _

theorem IsPlain.withValue {a : AnnotationUse} {e : Expr} (ha : a.IsPlain) (he : e.IsCell) :
    (a.withValue e).IsPlain :=
  List.forall_mem_append.mpr ⟨ha, List.forall_mem_singleton.mpr he⟩

theorem additive_isPlain : Additive IsPlain where
  mark _ _ := List.forall_mem_nil _
  value _ _ ha := ha.withValue (.atom (.literal _))
  argument _ _ _ _ ha :=
    List.forall_mem_append.mpr ⟨ha, List.forall_mem_singleton.mpr (.atom (.literal _))⟩
  unit _ ha :=
    List.forall_mem_append.mpr ⟨ha, List.forall_mem_singleton.mpr (.atom (.staticField _ _))⟩

end AnnotationUse

namespace Target

variable {Q : AnnotationUse → Prop}

theorem forall_annotationFor {α : Type} {value : Option α} {make : α → AnnotationUse}
    (h : ∀ v, Q (make v)) : ∀ a ∈ annotationFor value make, Q a := by
  cases value with
  | none => exact List.forall_mem_nil _
  | some v => exact List.forall_mem_singleton.mpr (h v)

theorem withOptional_of {α : Type} {a : AnnotationUse} {value : Option α}
    {add : AnnotationUse → α → AnnotationUse} (ha : Q a) (hadd : ∀ b, Q b → ∀ v, Q (add b v)) :
    Q (AnnotationUse.withOptional a value add) := by
  cases value with
  | none => exact ha
  | some v => exact hadd a ha v

theorem forall_testAnnotations (hQ : AnnotationUse.Additive Q) (framework : Framework)
    (info : TestInfo) : ∀ a ∈ testAnnotations framework info, Q a := by
  cases framework with
  | junit5 =>
      refine List.forall_mem_append.mpr ⟨List.forall_mem_append.mpr
        ⟨List.forall_mem_cons.mpr ⟨hQ.mark _ (by decide), ?_⟩, ?_⟩, ?_⟩
      · exact forall_annotationFor fun name => hQ.value _ _ (hQ.mark _ (by decide))
      · exact forall_annotationFor fun n =>
          hQ.unit _ (hQ.argument _ _ _ (.long _) (hQ.mark _ (by decide)))
      · exact forall_annotationFor fun reason => hQ.value _ _ (hQ.mark _ (by decide))
  | junit4 =>
      refine List.forall_mem_cons.mpr ⟨?_, ?_⟩
      · exact withOptional_of (hQ.mark _ (by decide)) fun b hb n => hQ.argument _ _ _ (.long _) hb
      · exact forall_annotationFor fun reason => hQ.value _ _ (hQ.mark _ (by decide))
  | testng =>
      refine List.forall_mem_singleton.mpr ?_
      apply withOptional_of
      · apply withOptional_of
        · exact withOptional_of (hQ.mark _ (by decide)) fun b hb text =>
            hQ.argument _ _ _ (.str _) hb
        · exact fun b hb n => hQ.argument _ _ _ (.long _) hb
      · exact fun b hb _ => hQ.argument _ _ _ (.bool _) hb
  | mocha | unittest | pytest | goTesting => exact List.forall_mem_nil _

/-- The annotations of methods are markers with arguments of the frameworks. -/
theorem forall_methodAnnotations (hQ : AnnotationUse.Additive Q) (framework : Framework)
    (m : Method) : ∀ a ∈ methodAnnotations framework m, Q a := by
  simp only [methodAnnotations]
  cases m.kind with
  | test info => exact forall_testAnnotations hQ framework info
  | errorReport e =>
      cases framework with
      | junit4 | junit5 | testng =>
          exact List.forall_mem_singleton.mpr (hQ.mark _ (by decide))
      | _ => exact List.forall_mem_nil _
  | parameterized e provider =>
      cases framework with
      | junit5 =>
          exact List.forall_mem_cons.mpr ⟨hQ.mark _ (by decide),
            List.forall_mem_singleton.mpr (hQ.value _ _ (hQ.mark _ (by decide)))⟩
      | testng =>
          exact List.forall_mem_singleton.mpr (hQ.argument _ _ _ (.str _) (hQ.mark _ (by decide)))
      | _ => exact List.forall_mem_nil _
  | dataProvider =>
      cases framework with
      | testng => exact List.forall_mem_singleton.mpr (hQ.mark _ (by decide))
      | _ => exact List.forall_mem_nil _
  | helper h => exact List.forall_mem_nil _

/-- The annotations of methods have atoms as their arguments. -/
theorem isPlain_methodAnnotations (framework : Framework) (m : Method) :
    ∀ a ∈ methodAnnotations framework m, a.IsPlain :=
  forall_methodAnnotations AnnotationUse.additive_isPlain framework m

end Target

theorem Generation.isPlain_extensionAnnotations (g : Generation) :
    ∀ a ∈ g.extensionAnnotations, a.IsPlain := by
  simp only [extensionAnnotations]
  split
  · exact List.forall_mem_singleton.mpr
      ((AnnotationUse.isPlain_marker _ _).withValue (.classOf _))
  · exact List.forall_mem_nil _

/-! ## Methods -/

namespace Target

variable {config : Config} {m : Method}

theorem Dialect.Writes.annotations {d : Dialect} {named : DataType → Prop}
    (hd : d.Writes config named) (suffix : String) {annotations : List AnnotationUse}
    (h : ∀ a ∈ annotations, a.IsPlain) : (jvmAnnotations d suffix annotations).Succeeds := by
  simp only [jvmAnnotations, succeeds_concat_iff, List.forall_mem_map]
  intro a ha
  simp only [succeeds_append_iff, succeeds_say, succeeds_ok, succeeds_newline, true_and, and_true]
  refine succeeds_ite succeeds_nothing ?_
  simp only [succeeds_append_iff, succeeds_say, true_and, and_true, succeeds_commas_iff,
    List.forall_mem_map]
  rintro ⟨name, e⟩ hargument
  have hcell : e.IsCell := h a ha _ hargument
  cases hcell with
  | atom hatom =>
      have hwritten : (d.expr e).Succeeds := hd.atom hatom
      cases name <;> cases hatom <;> simpa using hwritten
  | classOf owner => cases name <;> simp

/-- The body of a built method is written when there are names for its arrays. -/
theorem Dialect.Writes.body {d : Dialect} {named : DataType → Prop} (hd : d.Writes config named)
    (hmocks : config.staticMocking ≠ .off → config.language.supportsMocking = true)
    (hm : m.IsBuilt config) (hnamed : ∀ t ∈ Stmt.arrayTypesOf m.body, named t) :
    (d.stmts m.body).Succeeds :=
  Dialect.succeeds_stmts_iff.mpr fun s hs => hd.built hmocks (hm.body s hs) fun t ht =>
    hnamed t (Stmt.mem_arrayTypesOf_iff.mpr ⟨s, hs, ht⟩)

theorem MethodForms.method_eq_whole {f : MethodForms} (h : ∀ k, m.kind ≠ .helper k) :
    f.method m = f.whole m := by
  cases hkind : m.kind with
  | helper k => exact absurd hkind (h k)
  | _ => simp only [method, hkind]

theorem MethodForms.succeeds_method {f : MethodForms}
    (hhelper : ∀ h, m.kind = .helper h → (f.helper h).Succeeds)
    (hwhole : (∀ h, m.kind ≠ .helper h) → (f.whole m).Succeeds) : (f.method m).Succeeds := by
  by_cases h : ∃ k, m.kind = .helper k
  · obtain ⟨k, hkind⟩ := h
    simp only [method, hkind]
    exact hhelper k hkind
  · have hnone : ∀ k, m.kind ≠ .helper k := not_exists.mp h
    rw [method_eq_whole hnone]
    exact hwhole hnone

theorem succeeds_documentedAbove_iff {d : Dialect} {opening closing : Method → Rendering} :
    (documentedAbove d opening closing m).Succeeds ↔
      (opening m).Succeeds ∧ (d.stmts m.body).Succeeds ∧ (closing m).Succeeds := by
  have hdocumentation : Rendering.Succeeds
      (if m.documentation.isEmpty then nothing else .ok (d.documentation m.documentation)) :=
    succeeds_ite succeeds_nothing (succeeds_ok _)
  simp only [documentedAbove, succeeds_append_iff, hdocumentation, true_and, and_assoc]

theorem succeeds_lines (lines : List String) : (concat (lines.map line)).Succeeds := by simp

section

variable (s : Surroundings)
  (hmocks : config.staticMocking ≠ .off → config.language.supportsMocking = true)
  (hm : m.IsBuilt config)

theorem Java.succeeds_parameter (p : Parameter) : (Java.parameter (Java.dialect s) p).Succeeds := by
  simp only [Java.parameter, succeeds_append_iff]
  exact ⟨⟨succeeds_ok _, succeeds_say _⟩, Dialect.succeeds_reference _ _⟩

theorem Kotlin.succeeds_parameter (p : Parameter) : (Kotlin.parameter s p).Succeeds := by
  simp only [Kotlin.parameter, succeeds_append_iff, succeeds_piece, succeeds_say, true_and]
  split <;> exact succeeds_ok _

@[simp] theorem Kotlin.succeeds_onOwnLines_iff {r : Rendering} :
    (Kotlin.onOwnLines r).Succeeds ↔ r.Succeeds := by
  simp [Kotlin.onOwnLines]

include hm in
/-- The tables of Python are those of pytest. -/
theorem Python.succeeds_decorators (hlanguage : config.language = .python)
    (hframework : s.settings.framework = config.framework) :
    (Python.decorators s (Python.dialect s) m).Succeeds := by
  simp only [decorators]
  cases hkind : m.kind with
  | test info =>
      refine succeeds_append_iff.mpr ⟨?_, ?_⟩
      · cases info.disabled with
        | none => exact succeeds_nothing
        | some reason => exact succeeds_ite (by simp [succeeds_pytest]) (by simp)
      · cases info.timeoutMillis with
        | none => exact succeeds_nothing
        | some n => exact succeeds_ite (by simp [succeeds_pytest]) (succeeds_ok _)
  | parameterized e provider =>
      have htables := hm.tables (by simp [Method.isTabular, hkind])
      simp only [Config.HasTables, hlanguage, Language.supportsParameterized] at htables
      have hpytest : isPytest s = true := by rwa [isPytest, hframework]
      simp [hpytest, succeeds_pytest]
  | errorReport e => exact succeeds_nothing
  | dataProvider => exact succeeds_nothing
  | helper h => exact succeeds_nothing

include hmocks hm

theorem Java.succeeds_method (hlanguage : config.language = .java) :
    ((Java.methods s).method m).Succeeds := by
  have hd := dialect_writes s hlanguage
  have hannotations := hd.annotations ".class"
    (isPlain_methodAnnotations s.settings.framework m)
  have hparameters : ∀ p ∈ m.parameters, (parameter (dialect s) p).Succeeds :=
    fun p _ => succeeds_parameter s p
  refine MethodForms.succeeds_method (fun h _ => succeeds_lines _) fun _ => ?_
  refine succeeds_documentedAbove_iff.mpr ⟨?_, hd.body hmocks hm fun _ _ => trivial, ?_⟩
  · simp only [opening, succeeds_append_iff, hannotations, true_and]
    refine ⟨?_, succeeds_ok _⟩
    split
    · simpa [dialect] using hparameters
    · simpa using hparameters
  · simp [closing]

theorem Kotlin.succeeds_method (hlanguage : config.language = .kotlin) :
    ((Kotlin.methods s).method m).Succeeds := by
  have hd := dialect_writes s hlanguage
  have hannotations := hd.annotations "::class"
    (isPlain_methodAnnotations s.settings.framework m)
  have hparameters : ∀ p ∈ m.parameters, (parameter s p).Succeeds :=
    fun p _ => succeeds_parameter s p
  refine MethodForms.succeeds_method (fun h _ => succeeds_lines _) fun _ => ?_
  refine succeeds_documentedAbove_iff.mpr ⟨?_, hd.body hmocks hm fun _ _ => trivial, ?_⟩
  · simp only [opening, succeeds_append_iff, hannotations, true_and]
    refine ⟨?_, succeeds_ok _⟩
    split <;> simpa using hparameters
  · simp [Java.closing]

/-- A script in JavaScript has no tables and no helpers, and a built method is neither. -/
theorem JavaScript.succeeds_method (hlanguage : config.language = .javascript) :
    ((JavaScript.methods s).method m).Succeeds := by
  have hd := dialect_writes hlanguage
  have hnohelper := hm.kind_ne_helper (Or.inl hlanguage)
  have hnotable := hm.isTabular_eq_false (Or.inl hlanguage)
  refine MethodForms.succeeds_method (fun h hkind => absurd hkind (hnohelper h)) fun _ => ?_
  refine succeeds_documentedAbove_iff.mpr ⟨?_, hd.body hmocks hm fun _ _ => trivial, ?_⟩
  · simp only [opening]
    cases hkind : m.kind with
    | test info =>
        simp only [succeeds_append_iff]
        constructor
        · split <;> simp [register]
        · split <;> simp
    | errorReport e => simp [register]
    | parameterized e provider => simp [Method.isTabular, hkind] at hnotable
    | dataProvider => simp [Method.isTabular, hkind] at hnotable
    | helper h => exact absurd hkind (hnohelper h)
  · simp only [closing, succeeds_append_iff, succeeds_ok, true_and]
    split <;> exact succeeds_line _

/-- The helpers that Python supports are those that it has lines for. -/
theorem Python.succeeds_method (hlanguage : config.language = .python)
    (hframework : s.settings.framework = config.framework) :
    ((Python.methods s).method m).Succeeds := by
  have hd := dialect_writes s hlanguage
  have hbody := hd.body hmocks hm fun _ _ => trivial
  have hblock : ((dialect s).blockOf m.body).Succeeds :=
    Dialect.succeeds_blockOf (Dialect.succeeds_stmts_iff.mp hbody)
  refine MethodForms.succeeds_method (fun h hkind => ?_) fun _ => ?_
  · have hsupported := hm.helper h hkind
    rw [hlanguage] at hsupported
    simp only [methods]
    cases h <;> first | exact succeeds_lines _ | cases hsupported
  · simp only [methods, succeeds_append_iff]
    refine ⟨⟨?_, ?_⟩, ?_⟩
    · simp only [opening, succeeds_append_iff, succeeds_commas_iff, List.forall_mem_append,
        List.forall_mem_map]
      have hdecorators := succeeds_decorators s hm hlanguage hframework
      refine ⟨⟨⟨⟨hdecorators, succeeds_say _⟩, ?_, fun p _ => Dialect.succeeds_reference _ _⟩,
        succeeds_line _⟩, succeeds_ok _⟩
      split <;> simp
    · split
      · exact succeeds_suite hblock.content
      · exact succeeds_append_iff.mpr ⟨succeeds_ok _, hbody⟩
    · simp [closing]

end

/-! ## Files -/

theorem forall_methods_iff {P : Method → Prop} (c : TestClass) :
    (∀ m ∈ (c.regions ++ [c.statics]).flatMap Region.methods, P m) ↔ ∀ m ∈ c.methods, P m := by
  simp only [TestClass.methods, List.flatMap_append, List.flatMap_singleton]

/-- A comment, if there is one. -/
theorem succeeds_documentation (lines : List String) (write : List String → Doc) :
    Rendering.Succeeds (if lines.isEmpty then nothing else .ok (write lines)) :=
  succeeds_ite succeeds_nothing (succeeds_ok _)

section

variable {s : Surroundings} {f : SourceFile}

theorem Java.succeeds_importGroup (lines : List String) : (importGroup lines).Succeeds :=
  succeeds_ite succeeds_nothing (by simp)

theorem Java.succeeds_file
    (hannotations : (jvmAnnotations (dialect s) ".class" f.testClass.annotations).Succeeds)
    (hmethods : ∀ m ∈ f.testClass.methods, ((methods s).method m).Succeeds) :
    (file s f).Succeeds := by
  have hregions := (MethodForms.succeeds_regions_iff _).mpr ((forall_methods_iff _).mpr hmethods)
  have hdocumentation := succeeds_documentation f.testClass.documentation (dialect s).documentation
  have himports := succeeds_importGroup
  simp only [file, succeeds_append_iff]
  refine ⟨⟨⟨⟨⟨⟨⟨⟨⟨⟨?_, himports _⟩, himports _⟩, hdocumentation⟩, hannotations⟩,
    succeeds_say _⟩, ?_⟩, ?_⟩, succeeds_line _⟩, succeeds_nest_iff.mpr hregions⟩, succeeds_line _⟩
  · split <;> simp
  · split <;> simp
  · exact succeeds_ite succeeds_nothing (by simp)

theorem Kotlin.succeeds_body {forms : MethodForms} {c : TestClass}
    (hmethods : ∀ m ∈ c.methods, (forms.method m).Succeeds) : (body forms c).Succeeds := by
  rw [TestClass.methods, List.forall_mem_append] at hmethods
  have hregions := (MethodForms.succeeds_regions_iff _).mpr hmethods.1
  have hstatics := (MethodForms.succeeds_region_iff _).mpr hmethods.2
  simp only [body]
  split
  · refine (MethodForms.succeeds_regions_iff _).mpr ?_
    rw [forall_methods_iff, TestClass.methods, List.forall_mem_append]
    exact hmethods
  · refine succeeds_append_iff.mpr ⟨hregions, succeeds_ite succeeds_nothing ?_⟩
    simp only [succeeds_append_iff, succeeds_nest_iff, succeeds_line, hstatics, and_true]
    exact succeeds_ite succeeds_nothing succeeds_newline

theorem Kotlin.succeeds_file
    (hannotations : (jvmAnnotations (dialect s) "::class" f.testClass.annotations).Succeeds)
    (hmethods : ∀ m ∈ f.testClass.methods, ((methods s).method m).Succeeds) :
    (file s f).Succeeds := by
  have hbody := succeeds_nest_iff.mpr (succeeds_body hmethods)
  have hdocumentation := succeeds_documentation f.testClass.documentation (dialect s).documentation
  simp only [file, succeeds_append_iff]
  refine ⟨⟨⟨⟨⟨⟨⟨⟨?_, Java.succeeds_importGroup _⟩, hdocumentation⟩, hannotations⟩,
    succeeds_say _⟩, ?_⟩, succeeds_line _⟩, hbody⟩, succeeds_line _⟩
  · split <;> simp
  · refine succeeds_ite succeeds_nothing ?_
    simp only [succeeds_append_iff, succeeds_say, true_and, succeeds_commas_iff,
      List.forall_mem_append, List.forall_mem_map]
    exact ⟨by simp, fun i _ => succeeds_ok _⟩

theorem JavaScript.succeeds_file
    (hmethods : ∀ m ∈ f.testClass.methods, ((methods s).method m).Succeeds) :
    (file s f).Succeeds := by
  have hregions := (MethodForms.succeeds_regions_iff _).mpr ((forall_methods_iff _).mpr hmethods)
  have hdocumentation := succeeds_documentation f.testClass.documentation dialect.documentation
  simp only [file, succeeds_append_iff]
  refine ⟨⟨⟨⟨?_, hdocumentation⟩, succeeds_line _⟩, succeeds_nest_iff.mpr hregions⟩,
    succeeds_line _⟩
  exact succeeds_ite succeeds_nothing (by simp)

theorem Python.succeeds_testClass {forms : MethodForms} {c : TestClass}
    (hmethods : ∀ m ∈ c.regions.flatMap Region.methods, (forms.method m).Succeeds) :
    (testClass forms c).Succeeds := by
  have hregions := (MethodForms.succeeds_regions_iff _).mpr hmethods
  simp only [testClass, succeeds_append_iff, succeeds_nest_iff]
  refine ⟨⟨succeeds_say _, ?_⟩, ?_, hregions⟩
  · split <;> simp
  · split
    · exact succeeds_append_iff.mpr ⟨succeeds_ok _, succeeds_ite succeeds_newline succeeds_nothing⟩
    · exact succeeds_ite succeeds_nothing (succeeds_line _)

theorem Python.succeeds_file
    (hmethods : ∀ m ∈ f.testClass.methods, ((methods s).method m).Succeeds) :
    (file s f).Succeeds := by
  rw [TestClass.methods, List.forall_mem_append] at hmethods
  have hclass := succeeds_testClass hmethods.1
  have hstatics := (MethodForms.succeeds_region_iff _).mpr hmethods.2
  simp only [file]
  split
  · next e herror =>
    have hrendered : Rendering.Succeeds (.error e) := by
      rw [← herror]
      exact succeeds_ite succeeds_nothing (succeeds_append_iff.mpr ⟨succeeds_ok _, hstatics⟩)
    exact absurd hrendered (not_succeeds_error e)
  · exact succeeds_append_iff.mpr ⟨succeeds_ok _, hclass⟩

end

end Target

/-! ## Generations -/

/-- A valid configuration mocks static methods only where there are mocks. -/
theorem Config.supportsMocking_of_validate {config : Config} (h : config.validate = .ok ())
    (hstatic : config.staticMocking ≠ .off) : config.language.supportsMocking = true := by
  have hmockito : config.staticMocking = .mockito := by
    cases hmocking : config.staticMocking with
    | off => exact absurd hmocking hstatic
    | mockito => rfl
  by_contra hmocks
  have hfault : config.staticMocking = .mockito ∧ config.language.supportsMocking = false :=
    ⟨hmockito, Bool.eq_false_iff.mpr hmocks⟩
  simp only [validate, if_pos hfault, if_neg (not_not.mpr (framework_mem_of_validate h))] at h
  cases h

namespace Generator

variable {gen : Generator} {sets : List TestSet} {className : Option String} {c : Construction}

theorem generate_eq_error (hc : (gen.base.derive className true).construct sets = .ok c)
    {cause : Unsupported} (hdoc : Target.fileDoc c.generation.settings c.file = .error cause) :
    gen.generate sets className = .error (.unsupported cause) := by
  have hcode : Target.renderFile c.generation.settings c.file = .error (.unsupported cause) := by
    simp only [Target.renderFile, hdoc, Target.textOf]
  unfold generate
  rw [hc]
  dsimp only [bind, Except.bind]
  rw [hcode]

/-- A generation succeeds exactly when the file of its construction is written. -/
theorem generate_succeeds_iff (hc : (gen.base.derive className true).construct sets = .ok c) :
    (∃ out, gen.generate sets className = .ok out) ↔
      (Target.fileDoc c.generation.settings c.file).Succeeds := by
  cases hdoc : Target.fileDoc c.generation.settings c.file with
  | error cause =>
      rw [generate_eq_error hc hdoc]
      simp
  | ok d =>
      have hcode : Target.renderFile c.generation.settings c.file = .ok (d.toText
          (Target.Surroundings.ofFile c.generation.settings c.file).methodForms.dialect.tab) := by
        simp only [Target.renderFile, hdoc, Target.textOf]
      unfold generate
      rw [hc]
      dsimp only [bind, Except.bind]
      rw [hcode]
      simp only [succeeds_ok, iff_true]
      exact ⟨_, rfl⟩

/-- A valid configuration has a generator, whose constructions succeed. -/
theorem exists_construct_of_validate {config : Config} (hvalid : config.validate = .ok ())
    (cut : ClassName) (sets : List TestSet) (className : Option String) :
    ∃ gen c, new cut config = .ok gen ∧ (gen.base.derive className true).config = config ∧
      (gen.base.derive className true).construct sets = .ok c ∧
      c.Follows (gen.base.derive className true) sets := by
  have hnew : new cut config = .ok ⟨.new cut config⟩ := by simp only [new, hvalid]
  obtain ⟨c, hc, hfollows⟩ :=
    ((Generation.new cut config).derive className true).construct_follows sets
  exact ⟨_, c, hnew, rfl, hc, hfollows⟩

end Generator

/-- The file of a construction is written outside Go, with any settings of its language; Python
writes its tests for the framework that they were built for. -/
theorem Construction.Follows.succeeds_fileDoc_with {c : Construction} {g : Generation}
    {sets : List TestSet} (h : c.Follows g sets)
    (hmocks : g.config.staticMocking ≠ .off → g.config.language.supportsMocking = true)
    (hgo : g.config.language ≠ .go) {settings : Target.Settings}
    (hsettings : settings.language = g.config.language)
    (hframework : g.config.language = .python → settings.framework = g.config.framework) :
    (Target.fileDoc settings c.file).Succeeds := by
  have hbuilt := h.built
  have hplain : ∀ a ∈ c.file.testClass.annotations, a.IsPlain := by
    rw [h.testClass_eq]
    exact c.generation.isPlain_extensionAnnotations
  simp only [Target.fileDoc, hsettings]
  cases hlanguage : g.config.language with
  | java =>
      refine Target.Java.succeeds_file ?_ fun m hm =>
        Target.Java.succeeds_method _ hmocks (hbuilt m hm) hlanguage
      exact (Target.Java.dialect_writes _ hlanguage).annotations _ hplain
  | kotlin =>
      refine Target.Kotlin.succeeds_file ?_ fun m hm =>
        Target.Kotlin.succeeds_method _ hmocks (hbuilt m hm) hlanguage
      exact (Target.Kotlin.dialect_writes _ hlanguage).annotations _ hplain
  | javascript =>
      exact Target.JavaScript.succeeds_file fun m hm =>
        Target.JavaScript.succeeds_method _ hmocks (hbuilt m hm) hlanguage
  | python =>
      exact Target.Python.succeeds_file fun m hm =>
        Target.Python.succeeds_method _ hmocks (hbuilt m hm) hlanguage (hframework hlanguage)
  | go => exact absurd hlanguage hgo

/-- The file of a construction is written outside Go. -/
theorem Construction.Follows.succeeds_fileDoc {c : Construction} {g : Generation}
    {sets : List TestSet} (h : c.Follows g sets)
    (hmocks : g.config.staticMocking ≠ .off → g.config.language.supportsMocking = true)
    (hgo : g.config.language ≠ .go) : (Target.fileDoc c.generation.settings c.file).Succeeds :=
  h.succeeds_fileDoc_with hmocks hgo h.language_eq fun _ =>
    congrArg Config.framework h.config_eq

/-- Outside Go, a valid configuration constructs and writes a file for all test sets, and gives its
text with what the construction recorded. -/
theorem Generator.exists_doc_of_validate {config : Config} (hvalid : config.validate = .ok ())
    (hgo : config.language ≠ .go) (cut : ClassName) (sets : List TestSet)
    (className : Option String) :
    ∃ c d, ((Generation.new cut config).derive className true).construct sets = .ok c ∧
      c.Follows ((Generation.new cut config).derive className true) sets ∧
      Target.fileDoc c.generation.settings c.file = .ok d ∧
      ∃ gen, new cut config = .ok gen ∧ gen.base = .new cut config ∧
        gen.generate sets className = .ok
          { code := d.toText
              (Target.Surroundings.ofFile c.generation.settings c.file).methodForms.dialect.tab
            helperClass := HelperClass.ofGeneration? c.generation
            report := c.report
            mocks := c.generation.usage.mocks
            moduleExports := c.generation.moduleExports } := by
  have hnew : new cut config = .ok ⟨.new cut config⟩ := by simp only [new, hvalid]
  obtain ⟨c, hc, hfollows⟩ :=
    ((Generation.new cut config).derive className true).construct_follows sets
  obtain ⟨d, hdoc⟩ := hfollows.succeeds_fileDoc (Config.supportsMocking_of_validate hvalid) hgo
  have hcode : Target.renderFile c.generation.settings c.file = .ok (d.toText
      (Target.Surroundings.ofFile c.generation.settings c.file).methodForms.dialect.tab) := by
    simp only [Target.renderFile, hdoc, Target.textOf]
  refine ⟨c, d, hc, hfollows, hdoc, _, hnew, rfl, ?_⟩
  unfold generate
  rw [hc]
  dsimp only [bind, Except.bind]
  rw [hcode]
  rfl

/-- Outside Go, a valid configuration gives tests for every class and all test sets. -/
theorem generation_succeeds_outside_go {config : Config} (hvalid : config.validate = .ok ())
    (hlanguage : config.language ≠ .go) (cut : ClassName) (sets : List TestSet)
    (className : Option String) :
    ∃ gen c out, Generator.new cut config = .ok gen ∧
      (gen.base.derive className true).construct sets = .ok c ∧
      gen.generate sets className = .ok out := by
  obtain ⟨gen, c, hnew, hconfig, hc, hfollows⟩ :=
    Generator.exists_construct_of_validate hvalid cut sets className
  have hmocks := Config.supportsMocking_of_validate hvalid
  rw [← hconfig] at hmocks hlanguage
  have hdoc := hfollows.succeeds_fileDoc hmocks hlanguage
  obtain ⟨out, hout⟩ := (Generator.generate_succeeds_iff hc).mpr hdoc
  exact ⟨gen, c, out, hnew, hc, hout⟩

/-- Tables in Python. -/
def pytestTables : Config :=
  { Config.forLanguage .python with framework := .pytest, parameterization := .oneTable }

/-- A run with a mock of an order, and a run that did not end. -/
def orderRuns : List TestSet :=
  let order : ClassName := ⟨"shop", "Order"⟩
  [⟨⟨⟨"shop", "Orders"⟩, "ship", [⟨"order", .ofClass order⟩], .void, .staticMethod⟩,
    [.ofArguments [.mock order []] .completed, .ofArguments [.null] (.timeout 50)], [], .empty⟩]

/-- Tests are generated for a mock that Python does not have and a run that fits no table. -/
theorem generation_succeeds_outside_go_orderRuns :
    pytestTables.validate = .ok () ∧ pytestTables.language ≠ .go ∧
      ∃ gen c out, Generator.new ⟨"shop", "Orders"⟩ pytestTables = .ok gen ∧
        (gen.base.derive none true).construct orderRuns = .ok c ∧
        gen.generate orderRuns none = .ok out :=
  ⟨rfl, by decide, generation_succeeds_outside_go rfl (by decide) _ _ _⟩

end TestWriter
