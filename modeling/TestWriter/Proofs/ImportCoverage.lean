import TestWriter.Generator
import TestWriter.Proofs.BuiltCode
import TestWriter.Proofs.GoPieces
import TestWriter.Proofs.JvmPieces
import TestWriter.Proofs.ScriptPieces
import TestWriter.Proofs.Successes
import TestWriter.Target.Render

/-!
# Imports cover a text

The imports of a file are collected from what its class mentions, and its text is written by the
target.  Main statement: the imports of a file provide what a generated text names without its
package, in any of the languages, but for static members that stand without a class and functions of
Kotlin that stand in another package.
-/

namespace TestWriter

open Layout

/-! ## Lines of a name -/

/-- A piece of text is a text, or a line of it. -/
def Text.ComesFrom (piece whole : String) : Prop :=
  piece = whole ∨ piece.toList ∈ lineParts whole.toList

theorem Text.ComesFrom.line {piece whole : String} {part : List Char}
    (h : ComesFrom piece whole) (hpart : part ∈ lineParts piece.toList) :
    ComesFrom (String.ofList part) whole := by
  refine Or.inr ?_
  rw [String.toList_ofList]
  rcases h with rfl | h
  · exact hpart
  · rw [lineParts_of_mem h, List.mem_singleton] at hpart
    rwa [hpart]

/-- The source of a function of a package is the package. -/
theorem Import.source_of_package (package : String) {name : String} (binding : Option String)
    (h : '.' ∉ name.toList) : (regular (package ++ "." ++ name) binding).source = package := by
  have hpath : (package ++ "." ++ name).toList = package.toList ++ '.' :: name.toList := by
    simp
  simp only [source]
  rw [hpath, Text.splitLast?_append package.toList h]
  simp

/-- A module has a variable when it is imported as a whole. -/
theorem Target.Surroundings.isSome_moduleVariable?_iff (s : Surroundings) (path : String) :
    (s.moduleVariable? path).isSome = true ↔
      ∃ binding, Import.regular path binding ∈ s.imports := by
  obtain ⟨settings, package, imports, classKind⟩ := s
  induction imports using List.reverseRecOn with
  | nil => simp [moduleVariable?]
  | append_singleton rest i ih =>
      simp only [moduleVariable?, List.foldl_append, List.foldl_cons, List.foldl_nil,
        List.mem_append, List.mem_singleton] at ih ⊢
      cases i with
      | member owner name => simpa using ih
      | regular p binding =>
          dsimp only
          split
          · next hp => simp [hp]
          · next hp => simpa [Ne.symm hp] using ih

/-! ## What imports provide -/

/-- The package whose classes and functions the JVM language reaches everywhere. -/
def Language.implicitPackage : Language → String
  | .kotlin => "kotlin"
  | _ => "java.lang"

/-- A class of the JVM is near: it has no package, or its package needs no import. -/
def Generation.IsNear (g : Generation) (c : ClassName) : Prop :=
  c.isGlobal = true ∨ c.package = g.language.implicitPackage ∨ c.package = g.testPackage

/-- A class of the JVM is in reach of its short name: it is near or imported. -/
def Generation.Reaches (g : Generation) (imports : List Import) (c : ClassName) : Prop :=
  g.IsNear c ∨ ∃ binding, Import.regular c.qualifiedName binding ∈ imports

/-- A package is in reach of a file in Go: it is imported or that of the file, or there is none. -/
def Generation.ReachesPackage (g : Generation) (imports : List Import) (package : String) : Prop :=
  package = "" ∨ package = g.testPackage ∨ ∃ binding, Import.regular package binding ∈ imports

/-- The imports of a file provide what a piece of its text names.  A static member that stands
without its class needs an import of its own on the JVM, where no class without a package has any;
scripts import no static members, and Java imports no functions. -/
def Generation.Provides (g : Generation) (imports : List Import) : Role → String → Prop
  | .ofClass c, s =>
    match g.language with
    | .java | .kotlin =>
      Text.ComesFrom s c.qualifiedName ∨ Text.ComesFrom s c.name ∧ g.Reaches imports c
    | .python | .javascript => c.isGlobal = true ∨ Import.member c.package c.name ∈ imports
    | .go => g.ReachesPackage imports c.package
  | .function module name, _ =>
    match g.language with
    | .java => False
    | .kotlin =>
      module.package = "kotlin" ∨ module.package = g.testPackage ∨
        ∃ binding, Import.regular (ClassName.mk module.package name).qualifiedName binding ∈ imports
    | .python | .javascript =>
      module.isGlobal = true ∨ Import.member module.package name ∈ imports
    | .go => g.ReachesPackage imports module.package
  | .staticMember owner name, _ =>
    match g.language with
    | .java | .kotlin => owner.isGlobal = false ∧ Import.member owner.qualifiedName name ∈ imports
    | .python | .javascript => False
    | .go => g.ReachesPackage imports owner.package
  | .member owner name, _ => Import.member owner name ∈ imports
  | .helper h, _ =>
    g.config.inlinesHelpers = true ∨
      Import.member helperClassName.qualifiedName (h.nameIn g.language) ∈ imports
  | .module path, _ => ∃ binding, Import.regular path binding ∈ imports
  | .plain, _ | .remark, _ | .identifier _, _ => True

/-- A piece names a member of no package where the language does not look for it: on the JVM a
static member without its class, and in Kotlin a function beside a test that has a package. -/
def Generation.IsStray (g : Generation) : Role → Prop
  | .staticMember owner _ => g.language.isJvm = true ∧ owner.isGlobal = true
  | .function module _ =>
    g.language = .kotlin ∧ module.isGlobal = true ∧ g.testPackage ≠ ""
  | _ => False

/-- A piece names the owner of what is called, or what is called as a member of its owner. -/
inductive Layout.Role.NamesOwner (owner : ClassName) (name : String) : Role → Prop
  | ofClass : NamesOwner owner name (.ofClass owner)
  | module : NamesOwner owner name (.module owner.package)
  | function : NamesOwner owner name (.function owner name)
  | staticMember : NamesOwner owner name (.staticMember owner name)

/-- A line of a name is provided when the name is. -/
theorem Generation.Provides.line {g : Generation} {imports : List Import} {role : Role} {s : String}
    (h : g.Provides imports role s) {part : List Char} (hpart : part ∈ Text.lineParts s.toList) :
    g.Provides imports role (String.ofList part) := by
  cases role with
  | ofClass c =>
      simp only [Provides] at h ⊢
      split at h
      · exact h.imp (fun h => h.line hpart) fun h => ⟨h.1.line hpart, h.2⟩
      · exact h.imp (fun h => h.line hpart) fun h => ⟨h.1.line hpart, h.2⟩
      all_goals exact h
  | _ => exact h

/-- The demand that imports provide all that a text names, but for stray pieces. -/
def Generation.coverage (g : Generation) (imports : List Import) : Demand :=
  .ofPieces (fun role s => g.Provides imports role s ↔ ¬g.IsStray role)
    (fun _ => iff_of_true trivial not_false) (fun _ _ => iff_of_true trivial not_false) <| by
      intro role s h part hpart
      cases role with
      | ofClass c => exact iff_of_true ((h.mpr not_false).line hpart) not_false
      | _ => exact h

section

variable {g : Generation} {imports : List Import} {role : Role} {s : String}

theorem Generation.holds_coverage :
    (g.coverage imports).holds role s ↔ (g.Provides imports role s ↔ ¬g.IsStray role) :=
  Demand.holds_ofPieces

theorem Generation.Provides.holds_coverage (h : g.Provides imports role s)
    (hstray : ¬g.IsStray role) : (g.coverage imports).holds role s :=
  Generation.holds_coverage.mpr (iff_of_true h hstray)

end

theorem Generation.takesRemarks_coverage (g : Generation) (imports : List Import) (l : Language) :
    (g.coverage imports).TakesRemarks l :=
  Demand.takesRemarks_ofPieces (fun _ => iff_of_true trivial not_false) l

/-! ## Imports of mentions -/

namespace Generation

variable {g : Generation} {t : TestClass} {mentions : List Mention} {c k : ClassName}

/-- What the framework needs is imported; only the JVM has packages in reach. -/
theorem importsOf_of_framework {i : Import} (hi : i ∈ g.config.framework.imports)
    (hreach : g.inReach i = false) : i ∈ g.importsOf t :=
  mem_importsOf_iff.mpr ⟨mem_importsInOrder_iff.mpr (Or.inl hi), fun _ => hreach⟩

theorem mem_mentionsOfClass_of_method {m : Method} {x : Mention} (hm : m ∈ t.methods)
    (hx : x ∈ m.mentions) : x ∈ g.mentionsOfClass t :=
  List.mem_append_right _ (List.mem_flatMap.mpr ⟨m, hm, List.mem_append_right _ hx⟩)

theorem mem_mentionsOfClass_of_annotation {x : Mention}
    (hx : x ∈ t.annotations.flatMap AnnotationUse.mentions) : x ∈ g.mentionsOfClass t :=
  List.mem_append_left _ (List.mem_append_left _ hx)

theorem mem_mentionsOfClass_of_jvmMethod {m : Method} {x : Mention}
    (hjvm : g.language.isJvm = true) (hm : m ∈ t.methods)
    (hx : x ∈ Target.jvmMentions g.config.framework m) : x ∈ g.mentionsOfClass t := by
  refine List.mem_append_right _ (List.mem_flatMap.mpr ⟨m, hm, ?_⟩)
  rw [mentionsOfMethod, if_pos hjvm]
  exact hx

/-- Helpers that stand in a class of their own are imported. -/
theorem provides_helper {h : Helper} (s : String)
    (hx : Mention.helper h ∈ g.mentionsOfClass t) :
    g.Provides (g.importsOf t) (.helper h) s := by
  cases hinline : g.config.inlinesHelpers with
  | true => exact Or.inl hinline
  | false =>
      refine Or.inr (member_mem_importsOf hx ?_)
      simp [importsOfMention, helperClass?, hinline]

theorem package_ofFile (hid : t.id.package = g.testPackage) :
    (Target.Surroundings.ofFile g.settings (g.fileOf t)).package = g.testPackage := by
  simp only [Target.Surroundings.ofFile, fileOf, hid]
  split
  · next hempty => exact (String.isEmpty_iff.mp hempty).symm
  · rfl

/-! ## The JVM -/

theorem framework_of_jvm (hjvm : g.language.isJvm = true)
    (hframework : g.config.framework ∈ g.language.frameworks) :
    g.config.framework = .junit5 ∨ g.config.framework = .junit4 ∨
      g.config.framework = .testng := by
  cases hlanguage : g.language with
  | java | kotlin =>
      rw [hlanguage] at hframework
      simpa only [Language.frameworks, List.mem_cons, List.not_mem_nil, or_false] using hframework
  | _ =>
      rw [hlanguage] at hjvm
      cases hjvm

theorem imports_eq_nil_of_jvm (hjvm : g.language.isJvm = true)
    (hframework : g.config.framework ∈ g.language.frameworks) :
    g.config.framework.imports = [] := by
  rcases framework_of_jvm hjvm hframework with h | h | h <;> rw [h] <;> rfl

/-- The name of a class belongs to it. -/
def Owns (g : Generation) (mentions : List Mention) (c : ClassName) : Prop :=
  Mention.ownerOfName? g.language mentions c.name = some c

/-- What owns a name has a package. -/
theorem Owns.isGlobal_eq_false (h : g.Owns mentions c) : c.isGlobal = false := by
  obtain ⟨x, -, hx⟩ := List.exists_of_findSome?_eq_some h
  have hshort := (Option.filter_eq_some_iff.mp hx).1
  cases x with
  | ofClass owner | typeClass owner | function owner name =>
      simp only [Mention.shortClass?] at hshort
      split at hshort <;> simp_all
  | _ => cases hshort

/-- An import by the short name of a class is that of the class that owns its name. -/
theorem owns_of_importsOfClass (hjvm : g.language.isJvm = true) {path : String}
    {binding : Option String} (h : Import.regular path binding ∈ g.importsOfClass mentions k) :
    g.Owns mentions k ∧ path = k.qualifiedName := by
  have himports : g.importsOfClass mentions k = if k.isGlobal then [] else
      if Mention.ownerOfName? g.language mentions k.name = some k then
        [.regular k.qualifiedName none] else [] := by
    simp only [importsOfClass]
    cases hlanguage : g.language with
    | java | kotlin => rfl
    | _ =>
        rw [hlanguage] at hjvm
        cases hjvm
  rw [himports] at h
  split at h
  · cases h
  · split at h
    · next howner =>
      cases List.mem_singleton.mp h
      exact ⟨howner, rfl⟩
    · cases h

/-- What is imported by a regular import for a mention on the JVM. -/
theorem importsOfMention_cases (hjvm : g.language.isJvm = true) {path : String}
    {binding : Option String} {x : Mention} (hx : x ∈ mentions)
    (h : Import.regular path binding ∈ g.importsOfMention mentions x) :
    (∃ k, g.Owns mentions k ∧ path = k.qualifiedName) ∨
      (.staticMocks ∈ mentions ∧ path = "org.mockito.MockedStatic") ∨
      ∃ module name, .function module name ∈ mentions ∧ g.language = .kotlin ∧
        path = module.package ++ "." ++ name := by
  cases x with
  | ofClass k => exact Or.inl ⟨k, owns_of_importsOfClass hjvm h⟩
  | typeClass k =>
      have h' : Import.regular path binding ∈ g.importsOfClass mentions k := by
        simp only [importsOfMention] at h
        split at h
        · cases h
        · cases h
        · exact h
      exact Or.inl ⟨k, owns_of_importsOfClass hjvm h'⟩
  | function module name =>
      simp only [importsOfMention, importsOfFunction] at h
      split at h
      · cases h
      · cases hlanguage : g.language with
        | java =>
            rw [hlanguage] at h
            exact Or.inl ⟨module, owns_of_importsOfClass hjvm h⟩
        | kotlin =>
            rw [hlanguage] at h
            cases List.mem_singleton.mp h
            exact Or.inr (Or.inr ⟨module, name, hx, rfl, rfl⟩)
        | _ =>
            rw [hlanguage] at hjvm
            cases hjvm
  | staticMocks =>
      simp only [importsOfMention, if_pos hjvm, List.mem_singleton] at h
      cases h
      exact Or.inr (Or.inl ⟨hx, rfl⟩)
  | helper _ | assertion _ | mocking _ =>
      simp only [importsOfMention] at h
      split at h <;> simp at h
  | nonFinite =>
      have hgo : g.language ≠ .go := by
        rintro hgo
        rw [hgo] at hjvm
        cases hjvm
      simp [importsOfMention, hgo] at h

/-- What a regular import of a file of the JVM is for. -/
theorem regular_mem_importsOf_cases (hjvm : g.language.isJvm = true)
    (hframework : g.config.framework ∈ g.language.frameworks) {path : String}
    {binding : Option String} (h : Import.regular path binding ∈ g.importsOf t) :
    (∃ k, g.Owns (g.mentionsOfClass t) k ∧ path = k.qualifiedName) ∨
      (.staticMocks ∈ g.mentionsOfClass t ∧ path = "org.mockito.MockedStatic") ∨
      ∃ module name, .function module name ∈ g.mentionsOfClass t ∧ g.language = .kotlin ∧
        path = module.package ++ "." ++ name := by
  have himport := mem_importsInOrder_iff.mp (mem_importsOf_iff.mp h).1
  rw [imports_eq_nil_of_jvm hjvm hframework] at himport
  obtain ⟨x, hx, hmention⟩ := himport.resolve_left List.not_mem_nil
  exact importsOfMention_cases hjvm hx hmention

/-- A path that is imported on the JVM holds a point. -/
theorem point_mem_of_mem_importsOf (hjvm : g.language.isJvm = true)
    (hframework : g.config.framework ∈ g.language.frameworks) {path : String}
    {binding : Option String} (h : Import.regular path binding ∈ g.importsOf t) :
    '.' ∈ path.toList := by
  rcases regular_mem_importsOf_cases hjvm hframework h with ⟨k, howns, rfl⟩ | ⟨-, rfl⟩ |
    ⟨module, name, -, -, rfl⟩
  · simp [ClassName.qualifiedName, howns.isGlobal_eq_false]
  · decide
  · simp

theorem importsPath_ofFile (path : String) :
    (Target.Surroundings.ofFile g.settings (g.fileOf t)).importsPath path = true ↔
      ∃ binding, Import.regular path binding ∈ g.importsOf t := by
  simp only [Target.Surroundings.importsPath, List.any_eq_true]
  constructor
  · rintro ⟨i, hi, hpath⟩
    cases i with
    | regular p binding => exact ⟨binding, of_decide_eq_true hpath ▸ hi⟩
    | member owner name => cases hpath
  · rintro ⟨binding, hi⟩
    exact ⟨_, hi, decide_eq_true rfl⟩

/-- A class is written by its short name when the file reaches it. -/
theorem isShort_iff_reaches (hid : t.id.package = g.testPackage) (c : ClassName) :
    (Target.Surroundings.ofFile g.settings (g.fileOf t)).isShort g.language.implicitPackage c =
      true ↔ g.Reaches (g.importsOf t) c := by
  simp only [Target.Surroundings.isShort, package_ofFile hid, Bool.or_eq_true, decide_eq_true_eq,
    importsPath_ofFile, Reaches, IsNear, or_assoc]

/-- The names of the JVM are provided: a short name by its package or its import, a member by its
import. -/
theorem jvmNames (hid : t.id.package = g.testPackage)
    (hframework : g.config.framework ∈ g.language.frameworks)
    (hjvm : g.language.isJvm = true) :
    Target.JvmNames (g.coverage (g.importsOf t)) (· ∈ g.mentionsOfClass t)
      (.ofFile g.settings (g.fileOf t)) g.language g.language.implicitPackage where
  remarks := takesRemarks_coverage g _ _
  className c := by
    have hprovides : ∀ s, (Text.ComesFrom s c.qualifiedName ∨
        Text.ComesFrom s c.name ∧ g.Reaches (g.importsOf t) c) →
        g.Provides (g.importsOf t) (.ofClass c) s := by
      intro s hs
      simp only [Provides]
      split <;> simp_all [Language.isJvm]
    refine (hprovides _ ?_).holds_coverage not_false
    simp only [Target.Surroundings.className]
    split
    · next hshort => exact Or.inr ⟨Or.inl rfl, (isShort_iff_reaches hid c).mp hshort⟩
    · exact Or.inl (Or.inl rfl)
  staticMember owner name text hglobal := by
    have hprovides : ¬g.Provides (g.importsOf t) (.staticMember owner name) text := by
      simp only [Provides]
      split <;> simp_all [Language.isJvm]
    exact holds_coverage.mpr (iff_of_false hprovides (not_not_intro ⟨hjvm, hglobal⟩))
  assertion name hx := by
    refine Provides.holds_coverage (member_mem_importsOf hx ?_) not_false
    have hclass : ∃ owner, g.config.framework.assertionsClass? = some owner := by
      rcases framework_of_jvm hjvm hframework with h | h | h <;> rw [h] <;> exact ⟨_, rfl⟩
    obtain ⟨owner, howner⟩ := hclass
    simp [importsOfMention, settings, Target.Surroundings.ofFile, howner, hjvm]
  mocking name text hx := by
    refine Provides.holds_coverage (member_mem_importsOf hx ?_) not_false
    have hlibrary : g.config.mockLibrary = .mockito := by cases g.config.mockLibrary; rfl
    simp [importsOfMention, hjvm, hlibrary]
  helper _ text hx := (provides_helper text hx).holds_coverage not_false

/-- A function whose name holds no point is imported or in reach, unless it has no package and the
test has one. -/
theorem holds_function_of_kotlin (hlanguage : g.language = .kotlin)
    (hframework : g.config.framework ∈ g.language.frameworks) {module : ClassName} {name : String}
    (s : String) (hx : Mention.function module name ∈ g.mentionsOfClass t)
    (hname : '.' ∉ name.toList) : (g.coverage (g.importsOf t)).holds (.function module name) s := by
  have hjvm : g.language.isJvm = true := by rw [hlanguage]; rfl
  refine holds_coverage.mpr ?_
  simp only [Provides, IsStray, hlanguage, true_and]
  cases hglobal : module.isGlobal with
  | true =>
      have hpackage : module.package = "" := String.isEmpty_iff.mp hglobal
      have hpath : (ClassName.mk "" name).qualifiedName = name := rfl
      have hnone : ¬∃ binding, Import.regular name binding ∈ g.importsOf t := fun ⟨_, hi⟩ =>
        hname (point_mem_of_mem_importsOf hjvm hframework hi)
      have hkotlin : "" ≠ "kotlin" := by decide
      rw [hpackage, hpath, or_iff_right hkotlin, or_iff_left hnone]
      simp only [true_and, ne_eq, not_not]
      exact eq_comm
  | false =>
      refine iff_of_true ?_ (by simp)
      have hpath : (ClassName.mk module.package name).qualifiedName =
          module.package ++ "." ++ name := if_neg (Bool.eq_false_iff.mp hglobal)
      have hi : Import.regular (module.package ++ "." ++ name) none ∈
          g.importsOfMention (g.mentionsOfClass t) (.function module name) := by
        simp [importsOfMention, importsOfFunction, hlanguage, hglobal]
      rw [hpath]
      rcases importsOf_of_mention hx hi with hmem | hreach
      · exact Or.inr (Or.inr ⟨none, hmem⟩)
      · simp only [inReach, hlanguage, Import.source_of_package _ _ hname, Bool.or_eq_true,
          decide_eq_true_eq] at hreach
        exact hreach.imp_right Or.inl

/-! ## Python and JavaScript -/

/-- In a script nothing is in reach of its own accord. -/
theorem importsOf_of_script (hlanguage : g.language.isJvm = false) {x : Mention} {i : Import}
    (hx : x ∈ g.mentionsOfClass t)
    (hi : i ∈ g.importsOfMention (g.mentionsOfClass t) x) : i ∈ g.importsOf t := by
  refine (importsOf_of_mention hx hi).resolve_right ?_
  cases i with
  | member owner name => exact Bool.false_ne_true
  | regular path binding =>
      simp only [inReach]
      split <;> simp_all [Language.isJvm]

/-- Outside of the JVM nothing is stray. -/
theorem not_isStray_of_script (hlanguage : g.language.isJvm = false) (role : Role) :
    ¬g.IsStray role := by
  cases role with
  | staticMember owner name => simp [IsStray, hlanguage]
  | function module name =>
      rintro ⟨hkotlin, -⟩
      rw [hkotlin] at hlanguage
      cases hlanguage
  | _ => exact not_false

/-- A class or a function that a script names is imported, unless it has no package. -/
theorem provides_of_script (hlanguage : g.language = .python ∨ g.language = .javascript) :
    (∀ c s, Mention.ofClass c ∈ g.mentionsOfClass t → g.Provides (g.importsOf t) (.ofClass c) s) ∧
    ∀ module name s, Mention.function module name ∈ g.mentionsOfClass t →
      g.Provides (g.importsOf t) (.function module name) s := by
  constructor
  · intro c s hx
    have himport : c.isGlobal = true ∨ Import.member c.package c.name ∈ g.importsOf t := by
      refine or_iff_not_imp_left.mpr fun hglobal => member_mem_importsOf hx ?_
      rcases hlanguage with h | h <;> simp [importsOfMention, importsOfClass, h, hglobal]
    rcases hlanguage with h | h <;> simpa only [Provides, h] using himport
  · intro module name s hx
    have himport : module.isGlobal = true ∨ Import.member module.package name ∈ g.importsOf t := by
      refine or_iff_not_imp_left.mpr fun hglobal => member_mem_importsOf hx ?_
      rcases hlanguage with h | h <;> simp [importsOfMention, importsOfFunction, h, hglobal]
    rcases hlanguage with h | h <;> simpa only [Provides, h] using himport

/-- A module that the framework needs is imported outside of the JVM. -/
theorem provides_module_of_framework (hlanguage : g.language.isJvm = false) {path : String}
    (bound : Option String) (hi : Import.regular path bound ∈ g.config.framework.imports) :
    ∃ binding, Import.regular path binding ∈ g.importsOf t := by
  refine ⟨bound, importsOf_of_framework hi ?_⟩
  simp only [inReach]
  split <;> simp_all [Language.isJvm]

theorem scriptNames_of_javaScript (hlanguage : g.language = .javascript) :
    Target.ScriptNames (g.coverage (g.importsOf t)) (· ∈ g.mentionsOfClass t) .javascript
      Target.JavaScript.className where
  remarks := takesRemarks_coverage g _ _
  ofClass c hx :=
    Doc.obeys_text (((provides_of_script (Or.inr hlanguage)).1 c _ hx).holds_coverage not_false)
  function module name s hx :=
    ((provides_of_script (Or.inr hlanguage)).2 module name s hx).holds_coverage
      (not_isStray_of_script (by rw [hlanguage]; rfl) _)
  helper _ s hx := (provides_helper s hx).holds_coverage not_false

theorem scriptNames_of_python (hlanguage : g.language = .python) :
    Target.ScriptNames (g.coverage (g.importsOf t)) (· ∈ g.mentionsOfClass t) .python
      (Target.Python.className (.ofFile g.settings (g.fileOf t))) where
  remarks := takesRemarks_coverage g _ _
  ofClass c hx := by
    have hclass : Doc.Obeys (g.coverage (g.importsOf t)) [.text (.ofClass c) c.name] :=
      Doc.obeys_text
        (((provides_of_script (Or.inl hlanguage)).1 c c.name hx).holds_coverage not_false)
    simp only [Target.Python.className]
    split
    · exact hclass
    · split
      · next binding hbinding =>
        have hmodule := (Target.Surroundings.isSome_moduleVariable?_iff _ c.package).mp
          (by rw [hbinding]; rfl)
        exact Doc.obeys_cons (Doc.obeys_text (Provides.holds_coverage hmodule not_false))
          (Doc.obeys_cons (Doc.obeys_plain _) (Doc.obeys_plain _))
      · exact hclass
  function module name s hx :=
    ((provides_of_script (Or.inl hlanguage)).2 module name s hx).holds_coverage
      (not_isStray_of_script (by rw [hlanguage]; rfl) _)
  helper _ s hx := (provides_helper s hx).holds_coverage not_false

/-- The module of the framework of a test in Python is imported as a whole. -/
theorem provides_module_of_python (hlanguage : g.language = .python) {path : String}
    (hpath : g.config.framework.imports = [.regular path none]) :
    ∃ binding, Import.regular path binding ∈ g.importsOf t := by
  refine provides_module_of_framework (by rw [hlanguage]; rfl) none ?_
  rw [hpath]
  exact List.mem_singleton_self _

/-- The superclass of a test class in Python is named behind its module. -/
theorem obeys_superclass_of_python (hlanguage : g.language = .python) :
    ∀ superclass ∈ g.superclass?, Doc.Obeys (g.coverage (g.importsOf t))
      (Target.Python.className (.ofFile g.settings (g.fileOf t)) superclass) := by
  intro superclass hsuperclass
  simp only [superclass?] at hsuperclass
  split at hsuperclass
  · next hunittest =>
    cases hsuperclass
    have hmodule : ∃ binding, Import.regular "unittest" binding ∈ g.importsOf t :=
      provides_module_of_python hlanguage (by rw [hunittest]; rfl)
    obtain ⟨bound, hbound⟩ := Option.isSome_iff_exists.mp
      ((Target.Surroundings.isSome_moduleVariable?_iff
        (.ofFile g.settings (g.fileOf t)) "unittest").mpr hmodule)
    simp only [Target.Python.className, hbound]
    split
    · next hglobal => simp [ClassName.isGlobal] at hglobal
    · exact Doc.obeys_cons (Doc.obeys_text (Provides.holds_coverage hmodule not_false))
        (Doc.obeys_cons (Doc.obeys_plain _) (Doc.obeys_plain _))
  · cases hsuperclass

/-! ## Go -/

theorem isJvm_of_go (h : g.language = .go) : g.language.isJvm = false := by
  rw [h]
  rfl

/-- A package that a class or a function is mentioned of is in reach. -/
theorem reachesPackage_of_mention (hlanguage : g.language = .go)
    (hx : Mention.ofClass c ∈ g.mentionsOfClass t ∨ Mention.typeClass c ∈ g.mentionsOfClass t ∨
      ∃ name, Mention.function c name ∈ g.mentionsOfClass t) :
    g.ReachesPackage (g.importsOf t) c.package := by
  refine or_iff_not_imp_left.mpr fun hpackage => or_iff_not_imp_left.mpr fun hforeign => ?_
  have hi : Import.regular c.package none ∈ g.importsOfClass (g.mentionsOfClass t) c := by
    simp [importsOfClass, ClassName.isGlobal, hlanguage, hpackage, hforeign]
  refine ⟨none, ?_⟩
  rcases hx with hx | hx | ⟨name, hx⟩
  · exact importsOf_of_script (isJvm_of_go hlanguage) hx hi
  · refine importsOf_of_script (isJvm_of_go hlanguage) hx ?_
    simpa only [importsOfMention, hlanguage] using hi
  · refine importsOf_of_script (isJvm_of_go hlanguage) hx ?_
    simpa [importsOfMention, importsOfFunction, ClassName.isGlobal, hlanguage, hpackage] using hi

/-- The packages that code in Go puts in front of names are imported. -/
theorem goNames (hid : t.id.package = g.testPackage)
    (hframework : g.config.framework = .goTesting) (hlanguage : g.language = .go) :
    Target.Go.Names (g.coverage (g.importsOf t)) (· ∈ g.mentionsOfClass t)
      (.ofFile g.settings (g.fileOf t)) where
  remarks := takesRemarks_coverage g _ _
  ofClass c hx := by
    have hreaches := reachesPackage_of_mention hlanguage (hx.imp_right Or.inl)
    refine Provides.holds_coverage ?_ not_false
    simpa only [Provides, hlanguage] using hreaches
  function module name hx := by
    have hreaches := reachesPackage_of_mention hlanguage (Or.inr (Or.inr ⟨name, hx⟩))
    refine Provides.holds_coverage ?_ (not_isStray_of_script (isJvm_of_go hlanguage) _)
    simpa only [Provides, hlanguage] using hreaches
  staticMember owner name hx := by
    have hreaches := reachesPackage_of_mention hlanguage (Or.inl hx)
    refine Provides.holds_coverage ?_ (not_isStray_of_script (isJvm_of_go hlanguage) _)
    simpa only [Provides, hlanguage] using hreaches
  helper _ s hx := (provides_helper s hx).holds_coverage not_false
  qualifier c hx := by
    simp only [Target.Go.qualifier, package_ofFile hid]
    split
    · exact Doc.obeys_nil
    · next hforeign =>
      simp only [Bool.or_eq_true, String.isEmpty_iff, decide_eq_true_eq, not_or] at hforeign
      have himport := ((reachesPackage_of_mention hlanguage hx).resolve_left
        hforeign.1).resolve_left hforeign.2
      exact Doc.obeys_cons (Doc.obeys_text (Provides.holds_coverage himport not_false))
        (Doc.obeys_plain _)
  math hx := by
    refine Provides.holds_coverage
      ⟨none, importsOf_of_script (isJvm_of_go hlanguage) hx ?_⟩ not_false
    simp [importsOfMention, hlanguage]
  assert _ _ := by
    refine Provides.holds_coverage
      (provides_module_of_framework (isJvm_of_go hlanguage) none ?_) not_false
    simp [hframework, Framework.imports]
  testing := by
    refine Provides.holds_coverage
      (provides_module_of_framework (isJvm_of_go hlanguage) none ?_) not_false
    simp [hframework, Framework.imports]

/-! ## Files -/

/-- The imports of a file provide what it names without its package, but for stray pieces. -/
theorem fileDoc_obeys (hid : t.id.package = g.testPackage)
    (hframework : g.config.framework ∈ g.language.frameworks)
    (hsuperclass : t.superclass = g.superclass?)
    (hnames : ∀ module name, Mention.function module name ∈ g.mentionsOfClass t →
      '.' ∉ name.toList)
    (hfinite : ∀ m ∈ t.methods, ∀ l ∈ Stmt.bareLiteralsOf m.body, l.isNonFinite = false) :
    (Target.fileDoc g.settings (g.fileOf t)).Obeys (g.coverage (g.importsOf t)) := by
  have hmethods : ∀ m ∈ t.methods, ∀ x ∈ m.mentions, x ∈ g.mentionsOfClass t :=
    fun m hm x hx => mem_mentionsOfClass_of_method hm hx
  have hannotations : ∀ x ∈ t.annotations.flatMap AnnotationUse.mentions,
      x ∈ g.mentionsOfClass t := fun x hx => mem_mentionsOfClass_of_annotation hx
  have hjvmMethods : g.language.isJvm = true → ∀ m ∈ t.methods,
      ∀ x ∈ Target.jvmMentions g.config.framework m, x ∈ g.mentionsOfClass t :=
    fun hjvm m hm x hx => mem_mentionsOfClass_of_jvmMethod hjvm hm hx
  cases hlanguage : g.language with
  | java =>
      have hjvm : g.language.isJvm = true := by rw [hlanguage]; rfl
      have hjvmNames := jvmNames hid hframework hjvm
      simp only [Target.fileDoc, settings, hlanguage, Target.formsOf] at hjvmNames ⊢
      exact Target.Java.obeys_file hjvmNames hannotations (hjvmMethods hjvm)
  | kotlin =>
      have hjvm : g.language.isJvm = true := by rw [hlanguage]; rfl
      have hjvmNames := jvmNames hid hframework hjvm
      simp only [Target.fileDoc, settings, hlanguage, Target.formsOf] at hjvmNames ⊢
      exact Target.Kotlin.obeys_file hjvmNames
        (fun module name s hx =>
          holds_function_of_kotlin hlanguage hframework s hx (hnames module name hx))
        hannotations (hjvmMethods hjvm)
  | javascript =>
      rw [hlanguage] at hframework
      have hmocha : g.config.framework = .mocha := by
        simpa [Language.frameworks] using hframework
      have hassert : ∃ binding, Import.regular "assert" binding ∈ g.importsOf t := by
        refine provides_module_of_framework (by rw [hlanguage]; rfl) (some "assert") ?_
        simp [hmocha, Framework.imports]
      simp only [Target.fileDoc, settings, hlanguage, Target.formsOf]
      exact Target.JavaScript.obeys_file (scriptNames_of_javaScript hlanguage)
        (Provides.holds_coverage hassert not_false) hmethods
  | python =>
      rw [hlanguage] at hframework
      have hnames := scriptNames_of_python (t := t) hlanguage
      have hsuper := obeys_superclass_of_python (t := t) hlanguage
      rw [← hsuperclass] at hsuper
      have hpytest : g.config.framework = .pytest →
          ∃ binding, Import.regular "pytest" binding ∈ g.importsOf t :=
        fun h => provides_module_of_python hlanguage (by rw [h]; rfl)
      have hunittest : g.config.framework ≠ .pytest →
          ∃ binding, Import.regular "unittest" binding ∈ g.importsOf t := by
        intro h
        have hother : g.config.framework = .unittest := by
          simp only [Language.frameworks, List.mem_cons, List.not_mem_nil, or_false] at hframework
          exact hframework.resolve_right h
        exact provides_module_of_python hlanguage (by rw [hother]; rfl)
      simp only [Target.fileDoc, settings, hlanguage, Target.formsOf] at hnames hsuper ⊢
      exact Target.Python.obeys_file hnames
        (fun h => Provides.holds_coverage (hpytest (of_decide_eq_true h)) not_false)
        (fun h => Provides.holds_coverage (hunittest (of_decide_eq_false h)) not_false) hsuper
        hmethods
  | go =>
      rw [hlanguage] at hframework
      have hgo : g.config.framework = .goTesting := by
        simpa [Language.frameworks] using hframework
      have hgoNames := goNames hid hgo hlanguage
      simp only [Target.fileDoc, settings, hlanguage, Target.formsOf] at hgoNames ⊢
      exact Target.Go.obeys_file hgoNames hmethods hfinite

end Generation

/-! ## Calls of static members and functions -/

namespace Target

section

variable {s : Surroundings} {owner : ClassName} {name : String}

/-- What is written says whose member or function it calls. -/
def ShowsOwner (owner : ClassName) (name : String) (r : Rendering) : Prop :=
  ∃ role text, role.NamesOwner owner name ∧ r.Shows (.text role text)

theorem showsOwner_left {a : Rendering} (b : Rendering) (h : ShowsOwner owner name a) :
    ShowsOwner owner name (a ++ b) := by
  obtain ⟨role, text, hrole, hshows⟩ := h
  exact ⟨role, text, hrole, Rendering.shows_left hshows⟩

theorem showsOwner_right (a : Rendering) {b : Rendering} (h : ShowsOwner owner name b) :
    ShowsOwner owner name (a ++ b) := by
  obtain ⟨role, text, hrole, hshows⟩ := h
  exact ⟨role, text, hrole, Rendering.shows_right hshows⟩

theorem showsOwner_of_mem {role : Role} {text : String} {d : Doc}
    (hrole : role.NamesOwner owner name) (h : .text role text ∈ d) :
    ShowsOwner owner name (.ok d) :=
  ⟨role, text, hrole, Rendering.shows_ok h⟩

theorem showsOwner_piece {role : Role} (text : String) (hrole : role.NamesOwner owner name) :
    ShowsOwner owner name (Rendering.piece role text) :=
  showsOwner_of_mem hrole (List.mem_singleton_self _)

/-- A call by a name shows what the name does. -/
theorem showsOwner_call {a : Rendering} (arguments : List Rendering)
    (h : ShowsOwner owner name a) :
    ShowsOwner owner name
      (a ++ Rendering.say "(" ++ Rendering.commas arguments ++ Rendering.say ")") :=
  showsOwner_left _ (showsOwner_left _ (showsOwner_left _ h))

/-- A call on a class shows what the name of the class does. -/
theorem showsOwner_callOn {a : Rendering} (call : Rendering) (h : ShowsOwner owner name a) :
    ShowsOwner owner name (a ++ Rendering.say "." ++ call) :=
  showsOwner_left _ (showsOwner_left _ h)

theorem Java.showsOwner_callStatic (arguments : List Rendering) :
    ShowsOwner owner name (callStatic s owner name arguments) := by
  unfold callStatic
  split
  · exact showsOwner_call _ (showsOwner_piece _ .staticMember)
  · exact showsOwner_callOn _ (showsOwner_piece _ .ofClass)

theorem Python.showsOwner_className : ShowsOwner owner name (.ok (className s owner)) := by
  simp only [className]
  split
  · exact showsOwner_piece _ .ofClass
  · split
    · exact showsOwner_of_mem .module List.mem_cons_self
    · exact showsOwner_piece _ .ofClass

/-- A call of a static member names its class, the module of its class or itself. -/
theorem Surroundings.showsOwner_callStatic (s : Surroundings) (arguments : List Rendering) :
    ShowsOwner owner name (s.methodForms.dialect.callStatic owner name arguments) := by
  unfold methodForms
  cases s.settings.language with
  | java => exact Java.showsOwner_callStatic arguments
  | kotlin =>
      simp only [formsOf, Kotlin.forms, Kotlin.methods, Kotlin.dialect]
      split
      · exact showsOwner_call _ (showsOwner_piece _ .staticMember)
      · exact showsOwner_callOn _ (showsOwner_piece _ .ofClass)
  | javascript => exact showsOwner_callOn _ (showsOwner_piece _ .ofClass)
  | python => exact showsOwner_callOn _ Python.showsOwner_className
  | go => exact showsOwner_call _ (showsOwner_right _ (showsOwner_piece _ .staticMember))

/-- A call of a function names it; Java calls it as a member of its module. -/
theorem Surroundings.showsOwner_callModule (s : Surroundings) (arguments : List Rendering) :
    ShowsOwner owner name (s.methodForms.dialect.callModule owner name arguments) := by
  unfold methodForms
  cases s.settings.language with
  | java => exact Java.showsOwner_callStatic arguments
  | go => exact showsOwner_call _ (showsOwner_right _ (showsOwner_piece _ .function))
  | _ => exact showsOwner_call _ (showsOwner_piece _ .function)

end

end Target

/-! ## Generated texts -/

namespace Target

variable {module : ClassName} {name : String}

theorem function_not_mem_testAnnotations (framework : Framework) (info : TestInfo) :
    Mention.function module name ∉
      (testAnnotations framework info).flatMap AnnotationUse.mentions := by
  obtain ⟨_, _, displayName, timeout, disabled⟩ := info
  cases framework <;> cases displayName <;> cases timeout <;> cases disabled <;>
    simp [testAnnotations, annotationFor, AnnotationUse.withOptional, AnnotationUse.marker,
      AnnotationUse.withValue, AnnotationUse.withArgument, AnnotationUse.mentions, Expr.mentions,
      Expr.str, millis, Literal.isNonFinite]

/-- Annotations name classes, and functions of no module. -/
theorem function_not_mem_methodAnnotations (framework : Framework) (m : Method) :
    Mention.function module name ∉
      (methodAnnotations framework m).flatMap AnnotationUse.mentions := by
  simp only [methodAnnotations]
  cases m.kind with
  | test info => exact function_not_mem_testAnnotations framework info
  | errorReport e =>
      cases framework <;>
        simp [annotationFor, Framework.testAnnotation?, AnnotationUse.mentions]
  | parameterized e provider =>
      cases framework <;>
        simp [AnnotationUse.marker, AnnotationUse.withValue, AnnotationUse.withArgument,
          AnnotationUse.mentions, Expr.mentions, Expr.str, Literal.isNonFinite]
  | dataProvider =>
      cases framework <;> simp [AnnotationUse.marker, AnnotationUse.mentions]
  | helper h => exact List.not_mem_nil

end Target

theorem DataType.function_not_mem_mentions {module : ClassName} {name : String} (t : DataType) :
    Mention.function module name ∉ t.mentions := by
  induction t with
  | array element ih => exact ih
  | ofClass c => simp [DataType.mentions]
  | _ => exact List.not_mem_nil

/-- A function that a method names is named in its body. -/
theorem Method.function_mem_body {m : Method} {module : ClassName} {name : String}
    (h : Mention.function module name ∈ m.mentions) :
    Mention.function module name ∈ Stmt.mentionsOf m.body := by
  unfold Method.mentions at h
  split at h
  · cases h
  · simp only [List.mem_append, parameterMentions, List.mem_flatMap] at h
    rcases h with (⟨p, -, h⟩ | h) | h
    · exact absurd h p.type.function_not_mem_mentions
    · exact absurd h m.returnType.function_not_mem_mentions
    · exact h

namespace Construction.Follows

variable {c : Construction} {g : Generation} {sets : List TestSet}

theorem language_eq (h : c.Follows g sets) : c.generation.language = g.language :=
  congrArg Config.language h.config_eq

theorem testClass_package (h : c.Follows g sets) :
    c.file.testClass.id.package = c.generation.testPackage := by
  rw [h.testClass_eq]
  rfl

theorem testClass_superclass (h : c.Follows g sets) :
    c.file.testClass.superclass = c.generation.superclass? := by
  rw [h.testClass_eq]
  rfl

theorem imports_eq (h : c.Follows g sets) :
    c.file.imports = c.generation.importsOf c.file.testClass :=
  congrArg SourceFile.imports h.file_eq

/-- The functions that a class names are those under test, or have no package and no point in their
names. -/
theorem function_named (h : c.Follows g sets) {module : ClassName} {name : String}
    (hx : Mention.function module name ∈ c.generation.mentionsOfClass c.file.testClass) :
    module.isGlobal = true ∧ '.' ∉ name.toList ∨ ∃ set ∈ sets, set.executable.name = name := by
  have hannotations : Mention.function module name ∉
      c.file.testClass.annotations.flatMap AnnotationUse.mentions := by
    rw [h.testClass_eq]
    simp only [Generation.testClass, Generation.extensionAnnotations]
    split <;> simp [AnnotationUse.mentions, AnnotationUse.marker, AnnotationUse.withValue,
      Expr.mentions]
  simp only [Generation.mentionsOfClass, List.mem_append, List.mem_flatMap] at hx
  rcases hx with (hx | hx) | ⟨m, hm, hx⟩
  · exact absurd (List.mem_flatMap.mpr hx) hannotations
  · split at hx
    · obtain ⟨owner, -, howner⟩ := List.mem_map.mp hx
      cases howner
    · cases hx
  · simp only [Generation.mentionsOfMethod, List.mem_append] at hx
    rcases hx with hx | hx
    · split at hx
      · exact absurd hx (Target.function_not_mem_methodAnnotations _ m)
      · cases hx
    · rcases (h.methods m hm).named module name (Method.function_mem_body hx) with
        hplain | ⟨e, he, rfl⟩
      · exact Or.inl hplain
      · obtain ⟨set, hset, rfl⟩ := h.executables m hm e he
        exact Or.inr ⟨set, hset, rfl⟩

end Construction.Follows

/-- The framework of a valid configuration is one of its language. -/
theorem Config.framework_mem_of_validate {config : Config} (h : config.validate = .ok ()) :
    config.framework ∈ config.language.frameworks := by
  by_contra hmem
  simp only [validate, if_pos hmem] at h
  cases h

theorem Generator.eq_of_new_ok {cut : ClassName} {config : Config} {gen : Generator}
    (h : new cut config = .ok gen) : gen = ⟨.new cut config⟩ ∧ config.validate = .ok () := by
  unfold new at h
  split at h
  · next hvalid =>
    cases h
    exact ⟨rfl, hvalid⟩
  · cases h

/-- The code of a generation is the text of the file that it constructs. -/
theorem Generator.exists_doc_of_generate_ok {gen : Generator} {sets : List TestSet}
    {className : Option String} {out : GeneratedTests}
    (h : gen.generate sets className = .ok out) :
    ∃ c d, (gen.base.derive className true).construct sets = .ok c ∧
      c.Follows (gen.base.derive className true) sets ∧
      Target.fileDoc c.generation.settings c.file = .ok d ∧
      out.code = d.toText
        (Target.Surroundings.ofFile c.generation.settings c.file).methodForms.dialect.tab := by
  obtain ⟨c, hconstruct, hfollows⟩ := (gen.base.derive className true).construct_follows sets
  refine ⟨c, ?_⟩
  unfold generate at h
  rw [hconstruct] at h
  cases hdoc : Target.fileDoc c.generation.settings c.file with
  | error cause =>
      have hcode : Target.renderFile c.generation.settings c.file =
          .error (.unsupported cause) := by
        simp only [Target.renderFile, hdoc, Target.textOf]
      dsimp only [bind, Except.bind] at h
      rw [hcode] at h
      cases h
  | ok d =>
      have hcode : Target.renderFile c.generation.settings c.file = .ok (d.toText
          (Target.Surroundings.ofFile c.generation.settings c.file).methodForms.dialect.tab) := by
        simp only [Target.renderFile, hdoc, Target.textOf]
      dsimp only [bind, Except.bind] at h
      rw [hcode] at h
      cases h
      exact ⟨d, hconstruct, hfollows, rfl, rfl⟩

/-- Whatever a generated text names without its package is provided by the imports of its file
unless it is stray; calls of static members and functions say whose they are; and a file in Go that
holds a number that is infinite or a NaN imports `math`. -/
theorem generated_text_is_provided_iff {cut : ClassName} {config : Config} {gen : Generator}
    {sets : List TestSet} {className : Option String} {out : GeneratedTests}
    (hnew : Generator.new cut config = .ok gen)
    (hnames : ∀ set ∈ sets, '.' ∉ set.executable.name.toList)
    (hout : gen.generate sets className = .ok out) :
    ∃ c d, (gen.base.derive className true).construct sets = .ok c ∧
      let dialect := (Target.Surroundings.ofFile c.generation.settings c.file).methodForms.dialect
      Target.fileDoc c.generation.settings c.file = .ok d ∧ out.code = d.toText dialect.tab ∧
      (∀ role s, .text role s ∈ d →
        (c.generation.Provides c.file.imports role s ↔ ¬c.generation.IsStray role)) ∧
      (∀ owner name arguments,
        Target.ShowsOwner owner name (dialect.callStatic owner name arguments) ∧
          Target.ShowsOwner owner name (dialect.callModule owner name arguments)) ∧
      (config.language = .go → ∀ m ∈ c.file.testClass.methods, .nonFinite ∈ m.mentions →
        ∃ binding, Import.regular "math" binding ∈ c.file.imports) := by
  obtain ⟨c, d, hconstruct, hfollows, hdoc, hcode⟩ := Generator.exists_doc_of_generate_ok hout
  obtain ⟨rfl, hvalid⟩ := Generator.eq_of_new_ok hnew
  refine ⟨c, d, hconstruct, hdoc, hcode, ?_, fun owner name arguments => ?_, ?_⟩
  · have hframework : c.generation.config.framework ∈ c.generation.language.frameworks := by
      rw [hfollows.language_eq, hfollows.config_eq]
      exact Config.framework_mem_of_validate hvalid
    have hpoint : ∀ module name,
        Mention.function module name ∈ c.generation.mentionsOfClass c.file.testClass →
        '.' ∉ name.toList := by
      intro module name hx
      rcases hfollows.function_named hx with ⟨-, hname⟩ | ⟨set, hset, rfl⟩
      · exact hname
      · exact hnames set hset
    have hfile := Generation.fileDoc_obeys hfollows.testClass_package hframework
      hfollows.testClass_superclass hpoint (fun m hm => (hfollows.methods m hm).finite)
    rw [← hfollows.file_eq, ← hfollows.imports_eq] at hfile
    exact hfile d hdoc
  · exact ⟨Target.Surroundings.showsOwner_callStatic _ arguments,
      Target.Surroundings.showsOwner_callModule _ arguments⟩
  · intro hgo m hm hmention
    have hlanguage : c.generation.language = .go := hfollows.language_eq.trans hgo
    rw [hfollows.imports_eq]
    refine ⟨none, Generation.importsOf_of_script (Generation.isJvm_of_go hlanguage)
      (Generation.mem_mentionsOfClass_of_method hm hmention) ?_⟩
    simp [Generation.importsOfMention, hlanguage]

/-- Kotlin with helpers in a class of their own. -/
def kotlinWithHelperClass : Config :=
  { Config.forLanguage .kotlin with separateHelperClass := true }

/-- Runs of a function and of a static method of `Util`, which has no package. -/
def looseMembers : List TestSet :=
  [⟨⟨.global "Util", "f", [], .void, .function⟩, [.ofArguments [] .completed], [], .empty⟩,
   ⟨⟨.global "Util", "g", [], .void, .staticMethod⟩, [.ofArguments [] .completed], [], .empty⟩]

theorem exists_of_isOk {ε α : Type} {x : Except ε α} (h : x.isOk = true) : ∃ a, x = .ok a := by
  cases x with
  | error e => cases h
  | ok a => exact ⟨a, rfl⟩

/-- What is computed for a construction and its document holds of them. -/
theorem Generation.exists_doc_of_check {g : Generation} {sets : List TestSet}
    {check : Construction → Doc → Bool}
    (h : ((g.construct sets).toOption.any fun c =>
      (Target.fileDoc c.generation.settings c.file).toOption.any (check c)) = true) :
    ∃ c d, g.construct sets = .ok c ∧ Target.fileDoc c.generation.settings c.file = .ok d ∧
      check c d = true := by
  cases hc : g.construct sets with
  | error e =>
      rw [hc] at h
      cases h
  | ok c =>
      rw [hc] at h
      simp only [Except.toOption, Option.any_some] at h
      cases hd : Target.fileDoc c.generation.settings c.file with
      | error cause =>
          rw [hd] at h
          cases h
      | ok d =>
          rw [hd] at h
          exact ⟨c, d, rfl, hd, h⟩

/-- Both members are called by their names alone in package `shop`, and nothing provides them. -/
theorem generated_text_is_provided_iff_looseMembers :
    ∃ gen out, Generator.new ⟨"shop", "Cart"⟩ kotlinWithHelperClass = .ok gen ∧
      (∀ set ∈ looseMembers, '.' ∉ set.executable.name.toList) ∧
      gen.generate looseMembers none = .ok out ∧
      ∃ c d, (gen.base.derive none true).construct looseMembers = .ok c ∧
        Target.fileDoc c.generation.settings c.file = .ok d ∧
        (.text (.function (.global "Util") "f") "f" ∈ d ∧
          ¬c.generation.Provides c.file.imports (.function (.global "Util") "f") "f") ∧
        .text (.staticMember (.global "Util") "g") "g" ∈ d ∧
          ¬c.generation.Provides c.file.imports (.staticMember (.global "Util") "g") "g" := by
  have hnew : Generator.new ⟨"shop", "Cart"⟩ kotlinWithHelperClass =
      .ok ⟨.new ⟨"shop", "Cart"⟩ kotlinWithHelperClass⟩ := rfl
  have hnames : ∀ set ∈ looseMembers, '.' ∉ set.executable.name.toList := by decide
  have hok : ((⟨.new ⟨"shop", "Cart"⟩ kotlinWithHelperClass⟩ : Generator).generate looseMembers
      none).isOk = true := by decide +kernel
  have hrun : (((Generation.new ⟨"shop", "Cart"⟩ kotlinWithHelperClass).derive none
      true).construct looseMembers).toOption.any (fun c =>
        (Target.fileDoc c.generation.settings c.file).toOption.any fun d =>
          .text (.function (.global "Util") "f") "f" ∈ d ∧
            .text (.staticMember (.global "Util") "g") "g" ∈ d ∧
            c.generation.language = .kotlin ∧ c.generation.testPackage = "shop") = true := by
    decide +kernel
  obtain ⟨out, hout⟩ := exists_of_isOk hok
  obtain ⟨c, d, hc, hd, -, hpieces, -⟩ := generated_text_is_provided_iff hnew hnames hout
  obtain ⟨c', d', hc', hd', hcheck⟩ := Generation.exists_doc_of_check hrun
  obtain rfl : c' = c := Except.ok.inj (hc'.symm.trans hc)
  obtain rfl : d' = d := Except.ok.inj (hd'.symm.trans hd)
  obtain ⟨hfunction, hstatic, hlanguage, hpackage⟩ := of_decide_eq_true hcheck
  refine ⟨_, out, hnew, hnames, hout, c', d', hc, hd, ⟨hfunction, fun h => ?_⟩, hstatic,
    fun h => ?_⟩
  · exact (hpieces _ _ hfunction).mp h ⟨hlanguage, rfl, by rw [hpackage]; decide⟩
  · exact (hpieces _ _ hstatic).mp h ⟨by rw [hlanguage]; rfl, rfl⟩

end TestWriter
