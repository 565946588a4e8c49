import TestWriter.Proofs.ImportCoverage

/-!
# Short names on the JVM

A class of the JVM is written by its short name when it is near or imported.  A name belongs to the
first class mentioned by it, and that class is imported; but near classes take no part in this, and
some imports are added for other things.  Main statement: of two classes with one short name that
are both written by it, one is near or is imported beside its name.
-/

namespace TestWriter

open Layout

/-- A class of a package is known by its qualified name, unless its own name holds a point. -/
theorem ClassName.parse_qualifiedName {c : ClassName} (hpackage : c.isGlobal = false)
    (hname : '.' ∉ c.name.toList) : parse c.qualifiedName = c := by
  have hpath : c.qualifiedName.toList = c.package.toList ++ '.' :: c.name.toList := by
    simp [qualifiedName, hpackage]
  simp only [parse]
  rw [hpath, Text.splitLast?_append c.package.toList hname]
  simp

/-- The qualified name of a class is imported without the name being given to the class: for mocked
static methods, for a function of Kotlin, or for a class whose qualified name is the same, which
takes a point in a name. -/
inductive Generation.ImportsBeside (g : Generation) (mentions : List Mention) (c : ClassName) : Prop
  | staticMocks (h : .staticMocks ∈ mentions) (hpath : c.qualifiedName = "org.mockito.MockedStatic")
  | function (module : ClassName) (name : String) (h : .function module name ∈ mentions)
    (hlanguage : g.language = .kotlin) (hpath : c.qualifiedName = module.package ++ "." ++ name)
  | namesake (k : ClassName) (hne : k ≠ c) (hpath : c.qualifiedName = k.qualifiedName)
    (hpoint : '.' ∈ c.name.toList ∨ '.' ∈ k.name.toList)

namespace Generation

variable {g : Generation} {t : TestClass} {mentions : List Mention} {c k : ClassName}

/-- A name belongs to one class. -/
theorem Owns.unique (h : g.Owns mentions c) (hk : g.Owns mentions k) (hname : c.name = k.name) :
    c = k := by
  simp only [Owns] at h hk
  rw [hname, hk] at h
  exact (Option.some_inj.mp h).symm

/-- A class that is reached by its short name is near, owns the name or is imported beside it. -/
theorem reaches_cases (hjvm : g.language.isJvm = true)
    (hframework : g.config.framework ∈ g.language.frameworks)
    (h : g.Reaches (g.importsOf t) c) :
    g.IsNear c ∨ g.Owns (g.mentionsOfClass t) c ∨ g.ImportsBeside (g.mentionsOfClass t) c := by
  rcases h with hnear | ⟨binding, hi⟩
  · exact Or.inl hnear
  · cases hglobal : c.isGlobal with
    | true => exact Or.inl (Or.inl hglobal)
    | false =>
        refine Or.inr ?_
        rcases regular_mem_importsOf_cases hjvm hframework hi with ⟨k, howns, hpath⟩ | ⟨h, hpath⟩ |
          ⟨module, name, h, hlanguage, hpath⟩
        · by_cases hne : k = c
          · exact Or.inl (hne ▸ howns)
          · refine Or.inr (.namesake k hne hpath ?_)
            by_contra hpoint
            rw [not_or] at hpoint
            have hk := ClassName.parse_qualifiedName howns.isGlobal_eq_false hpoint.2
            have hc := ClassName.parse_qualifiedName hglobal hpoint.1
            rw [hpath, hk] at hc
            exact hne hc
        · exact Or.inr (.staticMocks h hpath)
        · exact Or.inr (.function module name h hlanguage hpath)

/-- Of two classes with one short name that are both reached by it, one is near or imported beside
the name. -/
theorem near_or_beside_of_clash (hjvm : g.language.isJvm = true)
    (hframework : g.config.framework ∈ g.language.frameworks) (hne : c ≠ k)
    (hname : c.name = k.name) (hc : g.Reaches (g.importsOf t) c)
    (hk : g.Reaches (g.importsOf t) k) :
    ∃ far, (far = c ∨ far = k) ∧
      (g.IsNear far ∨ g.ImportsBeside (g.mentionsOfClass t) far) := by
  rcases reaches_cases hjvm hframework hc with hnear | howns | hbeside
  · exact ⟨c, Or.inl rfl, Or.inl hnear⟩
  · rcases reaches_cases hjvm hframework hk with hnear | howns' | hbeside
    · exact ⟨k, Or.inr rfl, Or.inl hnear⟩
    · exact absurd (howns.unique howns' hname) hne
    · exact ⟨k, Or.inr rfl, Or.inr hbeside⟩
  · exact ⟨c, Or.inl rfl, Or.inr hbeside⟩

end Generation

/-! ## Generated texts -/

/-- A piece that names a class names it as its surroundings say. -/
def Target.Surroundings.Names (s : Surroundings) (implicitPackage : String) (role : Role)
    (text : String) : Prop :=
  match role with
  | .ofClass c => Text.ComesFrom text (s.className implicitPackage c)
  | _ => True

theorem Target.Surroundings.Names.line {s : Surroundings} {implicitPackage : String} {role : Role}
    {text : String} (h : s.Names implicitPackage role text) {part : List Char}
    (hpart : part ∈ Text.lineParts text.toList) :
    s.Names implicitPackage role (String.ofList part) := by
  cases role with
  | ofClass c => exact Text.ComesFrom.line h hpart
  | _ => trivial

/-- The demand that a class is named as its surroundings say. -/
def Target.Surroundings.naming (s : Surroundings) (implicitPackage : String) : Demand :=
  .ofPieces (s.Names implicitPackage) (fun _ => trivial) (fun _ _ => trivial)
    fun _ _ h _ hpart => h.line hpart

theorem Target.Surroundings.jvmNames_naming (s : Surroundings) (l : Language)
    (implicitPackage : String) :
    JvmNames (s.naming implicitPackage) (fun _ => True) s l implicitPackage where
  remarks := Demand.takesRemarks_ofPieces (fun _ => trivial) l
  className _ := Demand.holds_ofPieces.mpr (Or.inl rfl)
  staticMember _ _ _ _ := Demand.holds_ofPieces.mpr trivial
  assertion _ _ := Demand.holds_ofPieces.mpr trivial
  mocking _ _ _ := Demand.holds_ofPieces.mpr trivial
  helper _ _ _ := Demand.holds_ofPieces.mpr trivial

/-- A file of the JVM names every class as its surroundings say. -/
theorem Target.fileDoc_obeys_naming {settings : Settings} (hjvm : settings.language.isJvm = true)
    (f : SourceFile) :
    (fileDoc settings f).Obeys
      ((Surroundings.ofFile settings f).naming settings.language.implicitPackage) := by
  have hnames := (Surroundings.ofFile settings f).jvmNames_naming settings.language
    settings.language.implicitPackage
  cases hlanguage : settings.language with
  | java =>
      rw [hlanguage] at hnames
      simp only [fileDoc, hlanguage]
      exact Java.obeys_file hnames (fun _ _ => trivial) fun _ _ _ _ => trivial
  | kotlin =>
      rw [hlanguage] at hnames
      simp only [fileDoc, hlanguage]
      exact Kotlin.obeys_file hnames (fun _ _ _ _ => Demand.holds_ofPieces.mpr trivial)
        (fun _ _ => trivial) fun _ _ _ _ => trivial
  | _ =>
      rw [hlanguage] at hjvm
      cases hjvm

/-- A generated text of the JVM names every class as its surroundings say, and of two classes with
one short name that are both written by it, one is near or imported beside the name. -/
theorem clashing_short_name_is_near_or_beside {cut : ClassName} {config : Config} {gen : Generator}
    {sets : List TestSet} {className : Option String} {out : GeneratedTests}
    (hnew : Generator.new cut config = .ok gen) (hjvm : config.language.isJvm = true)
    (hout : gen.generate sets className = .ok out) :
    ∃ c d, (gen.base.derive className true).construct sets = .ok c ∧
      Target.fileDoc c.generation.settings c.file = .ok d ∧
      out.code = d.toText
        (Target.Surroundings.ofFile c.generation.settings c.file).methodForms.dialect.tab ∧
      (∀ k s, .text (.ofClass k) s ∈ d → Text.ComesFrom s
        ((Target.Surroundings.ofFile c.generation.settings c.file).className
          config.language.implicitPackage k)) ∧
      ∀ k k' : ClassName, k ≠ k' → k.name = k'.name →
        (Target.Surroundings.ofFile c.generation.settings c.file).isShort
          config.language.implicitPackage k = true →
        (Target.Surroundings.ofFile c.generation.settings c.file).isShort
          config.language.implicitPackage k' = true →
        ∃ far, (far = k ∨ far = k') ∧ (c.generation.IsNear far ∨
          c.generation.ImportsBeside (c.generation.mentionsOfClass c.file.testClass) far) := by
  obtain ⟨c, d, hconstruct, hfollows, hdoc, hcode⟩ := Generator.exists_doc_of_generate_ok hout
  obtain ⟨rfl, hvalid⟩ := Generator.eq_of_new_ok hnew
  have hlanguage : c.generation.language = config.language := hfollows.language_eq
  refine ⟨c, d, hconstruct, hdoc, hcode, ?_, ?_⟩
  · intro k s hmem
    have hjvm' : c.generation.settings.language.isJvm = true :=
      (congrArg Language.isJvm hlanguage).trans hjvm
    have hnamed := Target.fileDoc_obeys_naming hjvm' c.file d hdoc (.ofClass k) s hmem
    rwa [show c.generation.settings.language = config.language from hlanguage] at hnamed
  · intro k k' hne hname hk hk'
    have hframework : c.generation.config.framework ∈ c.generation.language.frameworks := by
      rw [hlanguage, hfollows.config_eq]
      exact Config.framework_mem_of_validate hvalid
    rw [← hlanguage, hfollows.file_eq,
      Generation.isShort_iff_reaches hfollows.testClass_package] at hk hk'
    exact Generation.near_or_beside_of_clash ((congrArg Language.isJvm hlanguage).trans hjvm)
      hframework hne hname hk hk'

/-- Java with helpers in a class of their own. -/
def javaWithHelperClass : Config :=
  { Config.forLanguage .java with separateHelperClass := true }

/-- A run that takes an object of a class `Test` of the package under test. -/
def ownTestClass : List TestSet :=
  let test : ClassName := ⟨"exam", "Test"⟩
  [⟨⟨⟨"exam", "Exam"⟩, "grade", [⟨"test", .ofClass test⟩], .void, .staticMethod⟩,
    [.ofArguments [.composite test [] []] .completed], [], .empty⟩]

/-- The annotation of the test and the class of the package are both written as `Test`. -/
theorem clashing_short_name_is_near_or_beside_ownTestClass :
    ∃ gen out, Generator.new ⟨"exam", "Exam"⟩ javaWithHelperClass = .ok gen ∧
      javaWithHelperClass.language.isJvm = true ∧ gen.generate ownTestClass none = .ok out ∧
      ∃ c d, (gen.base.derive none true).construct ownTestClass = .ok c ∧
        Target.fileDoc c.generation.settings c.file = .ok d ∧
        .text (.ofClass ⟨"exam", "Test"⟩) "Test" ∈ d ∧
        .text (.ofClass ⟨"org.junit.jupiter.api", "Test"⟩) "Test" ∈ d ∧
        (Target.Surroundings.ofFile c.generation.settings c.file).isShort "java.lang"
          ⟨"exam", "Test"⟩ = true ∧
        (Target.Surroundings.ofFile c.generation.settings c.file).isShort "java.lang"
          ⟨"org.junit.jupiter.api", "Test"⟩ = true ∧
        ∃ far : ClassName, (far = ⟨"exam", "Test"⟩ ∨ far = ⟨"org.junit.jupiter.api", "Test"⟩) ∧
          (c.generation.IsNear far ∨
            c.generation.ImportsBeside (c.generation.mentionsOfClass c.file.testClass) far) := by
  have hnew : Generator.new ⟨"exam", "Exam"⟩ javaWithHelperClass =
      .ok ⟨.new ⟨"exam", "Exam"⟩ javaWithHelperClass⟩ := rfl
  have hok : ((⟨.new ⟨"exam", "Exam"⟩ javaWithHelperClass⟩ : Generator).generate ownTestClass
      none).isOk = true := by decide +kernel
  obtain ⟨out, hout⟩ := exists_of_isOk hok
  obtain ⟨c, d, hc, hd, -, -, hclash⟩ :=
    clashing_short_name_is_near_or_beside hnew (by decide) hout
  have hrun : (((Generation.new ⟨"exam", "Exam"⟩ javaWithHelperClass).derive none
      true).construct ownTestClass).toOption.any (fun c =>
        (Target.fileDoc c.generation.settings c.file).toOption.any fun d =>
          .text (.ofClass ⟨"exam", "Test"⟩) "Test" ∈ d ∧
          .text (.ofClass ⟨"org.junit.jupiter.api", "Test"⟩) "Test" ∈ d ∧
          (Target.Surroundings.ofFile c.generation.settings c.file).isShort "java.lang"
            ⟨"exam", "Test"⟩ = true ∧
          (Target.Surroundings.ofFile c.generation.settings c.file).isShort "java.lang"
            ⟨"org.junit.jupiter.api", "Test"⟩ = true) = true := by
    decide +kernel
  obtain ⟨c', d', hc', hd', hcheck⟩ := Generation.exists_doc_of_check hrun
  obtain rfl : c = c' := Except.ok.inj (hc.symm.trans hc')
  obtain rfl : d = d' := Except.ok.inj (hd.symm.trans hd')
  obtain ⟨hown, hannotation, hshort, hshort'⟩ := of_decide_eq_true hcheck
  exact ⟨_, out, hnew, by decide, hout, c, d, hc, hd, hown, hannotation, hshort, hshort',
    hclash _ _ (by decide) rfl hshort hshort'⟩

end TestWriter
