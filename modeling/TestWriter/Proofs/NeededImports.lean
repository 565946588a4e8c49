import TestWriter.Proofs.BoundNames
import TestWriter.Proofs.ImportOptimization
import TestWriter.Proofs.ShownNames

/-!
# Needed imports

In Java and JavaScript an import stands for something that the code below it names.  Main
statement: every import of a generated file but that of the assertions of JavaScript is referred to
by its short name in the class below the imports, and the names that are to be exported by a module
under test are those that its line of imports takes from it.
-/

namespace TestWriter

open Layout

/-! ## Short names of imports -/

namespace Import

/-- The name by which code refers to what is imported. -/
def shortName : Import → String
  | .regular path _ =>
    match Text.splitLast? '.' path.toList with
    | some (_, name) => String.ofList name
    | none => path
  | .member _ name => name

/-- A piece of a text with a role stands for what an import brings into reach. -/
def IsFor (language : Language) : Import → Role → Prop
  | .regular path _, .ofClass c => path = c.qualifiedName
  | .member owner name, .ofClass c =>
    language.isScript = true ∧ owner = c.package ∧ name = c.name
  | .member owner name, .function module function =>
    language.isScript = true ∧ owner = module.package ∧ name = function
  | .member owner name, .member owner' name' => owner = owner' ∧ name = name'
  | .member owner name, .helper h =>
    owner = helperClassName.qualifiedName ∧ name = h.nameIn language
  | _, _ => False

/-- A document refers by its short name to what is imported. -/
def IsReferredTo (language : Language) (i : Import) (d : Doc) : Prop :=
  ∃ role, i.IsFor language role ∧ .text role i.shortName ∈ d

/-- The short name of an imported class is that of the class. -/
theorem shortName_of_class {c : ClassName} (hpackage : c.isGlobal = false) (hname : c.IsSimple)
    (binding : Option String) : (regular c.qualifiedName binding).shortName = c.name := by
  have hpath : c.qualifiedName.toList = c.package.toList ++ '.' :: c.name.toList := by
    simp [ClassName.qualifiedName, hpackage]
  simp only [shortName]
  rw [hpath, Text.splitLast?_append c.package.toList hname]
  exact String.ofList_toList

end Import

/-! ## Classes that show the names of their methods -/

/-- A piece of a document stands in its text. -/
theorem Layout.Doc.isInfix_toText {d : Doc} {role : Role} {s : String} (h : .text role s ∈ d)
    (tab : String) : s.toList <:+: (d.toText tab).toList := by
  obtain ⟨before, after, rfl⟩ := List.append_of_mem h
  have hwrite : ∀ c : Cursor, s.toList <:+: (c.write tab s).text.toList := by
    intro c
    simp only [Cursor.write]
    split
    · next hempty =>
      rw [String.isEmpty_iff.mp hempty]
      exact List.nil_infix
    · split <;> simp only [String.toList_append] <;> exact (List.suffix_append _ _).isInfix
  rw [toText, Cursor.run_append]
  show _ <:+: ((((Cursor.start.run tab before).write tab s).run tab after).text).toList
  rw [Cursor.text_run, String.toList_append]
  exact (hwrite _).trans (List.prefix_append _ _).isInfix

namespace Target

open Rendering

variable {step : Step}

/-- Annotations show the names that are wanted for what they mention. -/
theorem shows_jvmAnnotations {d : Dialect} {wanted : Mention → Step → Prop}
    (hd : d.ShowsNames wanted)
    (hname : ∀ c, wanted (.ofClass c) step → Rendering.Shows (.ok (d.className c)) step)
    (suffix : String) {annotations : List AnnotationUse} {a : AnnotationUse}
    (ha : a ∈ annotations) (hplain : a.IsPlain) {x : Mention} (hx : x ∈ a.mentions)
    (hwanted : wanted x step) : (jvmAnnotations d suffix annotations).Shows step := by
  refine shows_concat (List.mem_map_of_mem ha) (shows_left ?_)
  rcases List.mem_cons.mp hx with rfl | hx
  · exact shows_left (shows_right (hname a.owner hwanted))
  · obtain ⟨⟨name, e⟩, hargument, hx⟩ := List.mem_flatMap.mp hx
    have hnonempty : ¬a.arguments.isEmpty = true := by
      rw [List.isEmpty_iff]
      exact List.ne_nil_of_mem hargument
    rw [if_neg hnonempty]
    refine shows_right (shows_left (shows_right (shows_commas (List.mem_map_of_mem hargument) ?_)))
    have he : e.IsCell := hplain _ hargument
    cases he with
    | atom hatom =>
        have hshows := hd.atom hatom hx hwanted
        cases name with
        | none => cases hatom <;> exact hshows
        | some name => cases hatom <;> exact shows_right hshows
    | classOf owner =>
        cases List.mem_singleton.mp hx
        have hshows := hname owner hwanted
        cases name with
        | none => exact shows_left hshows
        | some name => exact shows_right (shows_left hshows)

namespace Java

variable {s : Surroundings} {m : Method} {x : Mention}

/-- A method shows the names of what its annotations mention. -/
theorem shows_method_of_annotation (hkind : ∀ h, m.kind ≠ .helper h)
    (hx : x ∈ (methodAnnotations s.settings.framework m).flatMap AnnotationUse.mentions)
    (hstep : step? s x = some step) : ((methods s).method m).Shows step := by
  obtain ⟨a, ha, hx⟩ := List.mem_flatMap.mp hx
  rw [MethodForms.method_eq_whole hkind]
  refine shows_left (shows_left (shows_right (shows_left (shows_left ?_))))
  exact shows_jvmAnnotations (showsNames s) (fun c => shows_className) ".class" ha
    (isPlain_methodAnnotations _ _ a ha) hx hstep

/-- A method of the forms shows the names of what its code mentions. -/
theorem shows_method_of_code {config : Config} (hm : m.IsBuilt config)
    (hresult : m.returnType.mentions = []) (hkind : ∀ h, m.kind ≠ .helper h)
    (hx : x ∈ m.codeMentions) (hstep : step? s x = some step) :
    ((methods s).method m).Shows step := by
  rw [MethodForms.method_eq_whole hkind]
  rw [Method.codeMentions, hresult, List.append_nil] at hx
  rcases List.mem_append.mp hx with hx | hx
  · obtain ⟨p, hp, hx⟩ := List.mem_flatMap.mp hx
    have hparameter : (parameter (dialect s) p).Shows step :=
      shows_left (shows_left (shows_typeName ⟨x, hx, hstep⟩))
    have hparameters :=
      shows_commas (List.mem_map_of_mem (f := parameter (dialect s)) hp) hparameter
    refine shows_left (shows_left (shows_right (shows_left (shows_right ?_))))
    split <;> exact shows_right (shows_left (shows_right hparameters))
  · obtain ⟨y, hy, hx⟩ := Stmt.mem_mentionsOf_iff.mp hx
    exact shows_left (shows_right
      (Dialect.shows_stmts hy ((showsNames s).built (hm.body y hy) hx hstep)))

theorem shows_classDoc_of_annotation {c : TestClass} {a : AnnotationUse} (ha : a ∈ c.annotations)
    (hplain : a.IsPlain) (hx : x ∈ a.mentions) (hstep : step? s x = some step) :
    (classDoc s c).Shows step := by
  iterate 6 apply shows_left
  exact shows_right (shows_jvmAnnotations (showsNames s) (fun c => shows_className) ".class" ha
    hplain hx hstep)

theorem shows_classDoc_of_method {c : TestClass} (hm : m ∈ c.methods)
    (h : ((methods s).method m).Shows step) : (classDoc s c).Shows step :=
  shows_left (shows_right (shows_nest ((MethodForms.holds_class hm).shows h)))

/-- A class that a mention writes by its short name is named by the mention. -/
theorem of_shortClass? (s : Surroundings) {x : Mention} {k : ClassName}
    (h : x.shortClass? .java = some k) :
    k ∈ x.classes ∧ step? s x = some (.text (.ofClass k) (s.className "java.lang" k)) := by
  cases x with
  | ofClass owner | typeClass owner =>
      simp only [Mention.shortClass?] at h
      split at h
      · cases h
      · next hglobal =>
        cases h
        exact ⟨List.mem_singleton_self _, if_neg hglobal⟩
  | function owner name =>
      simp only [Mention.shortClass?] at h
      split at h
      · next hglobal =>
        cases h
        refine ⟨List.mem_singleton_self _, if_neg ?_⟩
        simpa using hglobal.2
      · cases h
  | _ => cases h

theorem shows_classDoc_of_supertype {c : TestClass} {k : ClassName}
    (hk : k ∈ c.superclass.toList ++ c.interfaces) (hstep : step? s (.ofClass k) = some step) :
    (classDoc s c).Shows step := by
  rcases List.mem_append.mp hk with hk | hk
  · simp only [classDoc, Option.mem_toList.mp hk]
    iterate 4 apply shows_left
    exact shows_right (shows_right (shows_className hstep))
  · have hnonempty : ¬c.interfaces.isEmpty = true := by
      rw [List.isEmpty_iff]
      exact List.ne_nil_of_mem hk
    simp only [classDoc, if_neg hnonempty]
    iterate 3 apply shows_left
    exact shows_right (shows_right (shows_commas (List.mem_map_of_mem hk) (shows_className hstep)))

end Java

namespace JavaScript

/-- A built method shows the members of modules that it mentions. -/
theorem shows_method {config : Config} (hlanguage : config.language = .javascript)
    {s : Surroundings} {m : Method} (hm : m.IsBuilt config) {x : Mention} (hx : x ∈ m.mentions)
    {step : Step} (hstep : step? x = some step) : ((methods s).method m).Shows step := by
  have hplain := hm.plain (hm.isTabular_eq_false (Or.inl hlanguage))
  obtain ⟨y, hy, hx⟩ := Stmt.mem_mentionsOf_iff.mp (Method.mem_body_of_mem_mentions hplain hx)
  rw [MethodForms.method_eq_whole (hm.kind_ne_helper (Or.inl hlanguage))]
  exact shows_left (shows_right (Dialect.shows_stmts hy (showsNames.built (hm.body y hy) hx hstep)))

/-- A member that a mention takes is written for it. -/
theorem exists_step_of_taken? {x : Mention} {module name : String}
    (h : x.taken? = some (module, name)) :
    ∃ role, (Import.member module name).IsFor .javascript role ∧
      step? x = some (.text role name) := by
  cases x with
  | ofClass c =>
      simp only [Mention.taken?] at h
      split at h
      · cases h
      · next hglobal =>
        cases h
        exact ⟨.ofClass c, ⟨rfl, rfl, rfl⟩, if_neg hglobal⟩
  | function owner name =>
      simp only [Mention.taken?] at h
      split at h
      · cases h
      · next hglobal =>
        cases h
        exact ⟨.function owner _, ⟨rfl, rfl, rfl⟩, if_neg hglobal⟩
  | _ => cases h

theorem shows_suiteDoc {s : Surroundings} {c : TestClass} {m : Method} (hm : m ∈ c.methods)
    {step : Step} (h : ((methods s).method m).Shows step) : (suiteDoc s c).Shows step :=
  shows_left (shows_right (shows_nest ((MethodForms.holds_class hm).shows h)))

end JavaScript

end Target

/-- What a method mentions is mentioned by its code. -/
theorem Method.mem_codeMentions {m : Method} {x : Mention} (hx : x ∈ m.mentions) :
    x ∈ m.codeMentions := by
  simp only [mentions] at hx
  split at hx
  · cases hx
  · exact hx

/-- No method returns objects of a class. -/
theorem Method.ComesFrom.mentions_returnType {config : Config} {sets : List TestSet} {m : Method}
    (h : m.ComesFrom config sets) : m.returnType.mentions = [] := by
  cases h with
  | test hplain hset hrun hwrites =>
      obtain ⟨g, g', -, htest⟩ := hwrites
      obtain ⟨body, d, name, names, -, rfl, -⟩ := Execution.eq_of_toTest_ok htest
      rfl
  | table htables hset hconfig htable | provider htables hset hconfig htable =>
      obtain ⟨names, providerBody, d, testBody, d', providerName, testName, names', -, -, rfl, -⟩ :=
        TestSet.eq_of_toTable_ok htable
      rfl
  | listing hset hlists =>
      obtain ⟨name, errors, rfl⟩ := hlists
      rfl
  | helper h => rfl

/-! ## Imports that are referred to -/

/-- A class with a package that owns its name is mentioned. -/
theorem Generation.Owns.exists_mention {g : Generation} {mentions : List Mention} {c : ClassName}
    (h : g.Owns mentions c) : ∃ x ∈ mentions, x.shortClass? g.language = some c := by
  obtain ⟨x, hx, hshort⟩ := List.exists_of_findSome?_eq_some h
  exact ⟨x, hx, (Option.filter_eq_some_iff.mp hshort).1⟩

/-- A class mentions classes of a kind only, when its parts do. -/
theorem Generation.namesOnly_mentionsOfClass {P : ClassName → Prop} {g : Generation} {t : TestClass}
    (h : Target.ClassNamesIn P g.config.framework t) : NamesOnly P (g.mentionsOfClass t) := by
  refine NamesOnly.append (h.annotations.append ?_) ?_
  · split
    · intro x hx k hk
      obtain ⟨owner, howner, rfl⟩ := List.mem_map.mp hx
      obtain rfl := List.mem_singleton.mp hk
      exact (List.mem_append.mp howner).elim (fun hk => h.superclass k (Option.mem_toList.mp hk))
        (h.interfaces k)
    · exact NamesOnly.nil
  · intro x hx
    obtain ⟨m, hm, hx⟩ := List.mem_flatMap.mp hx
    obtain ⟨hannotations, hcode⟩ := h.methods m hm
    rcases List.mem_append.mp hx with hx | hx
    · split at hx
      · exact hannotations x hx
      · cases hx
    · exact hcode x (m.mem_codeMentions hx)

/-- A static import is that of a member that Java writes for a mention. -/
theorem Generation.exists_step_of_member_java {g : Generation} (hlanguage : g.language = .java)
    {s : Target.Surroundings} (hframework : s.settings.framework = g.config.framework)
    {mentions : List Mention} {x : Mention} {owner name : String}
    (h : Import.member owner name ∈ g.importsOfMention mentions x) :
    ∃ role, (Import.member owner name).IsFor .java role ∧
      Target.Java.step? s x = some (.text role name) := by
  have hclass : ∀ k, Import.member owner name ∉ g.importsOfClass mentions k := by
    intro k hk
    simp only [importsOfClass, hlanguage] at hk
    split at hk
    · cases hk
    · split at hk
      · cases List.mem_singleton.mp hk
      · cases hk
  have hjvm : g.language.isJvm = true := congrArg Language.isJvm hlanguage
  cases x with
  | helper k =>
      simp only [importsOfMention, helperClass?] at h
      cases hinline : g.config.inlinesHelpers with
      | true => simp [hinline] at h
      | false =>
          simp only [hinline, hlanguage, Bool.false_eq_true, if_false, List.mem_singleton] at h
          cases h
          exact ⟨.helper k, ⟨rfl, rfl⟩, rfl⟩
  | assertion part =>
      cases hassertions : g.config.framework.assertionsClass? with
      | none => simp [importsOfMention, hassertions] at h
      | some framework =>
          simp only [importsOfMention, hassertions, hjvm, if_true, List.mem_singleton] at h
          cases h
          refine ⟨.member owner name, ⟨rfl, rfl⟩, ?_⟩
          simp [Target.Java.step?, hframework, hassertions]
  | mocking part =>
      simp only [importsOfMention, hjvm, if_true, List.mem_singleton] at h
      cases h
      have hlibrary : g.config.mockLibrary = .mockito := by cases g.config.mockLibrary; rfl
      exact ⟨.member g.config.mockLibrary.facade name, ⟨rfl, rfl⟩, by rw [hlibrary]; rfl⟩
  | ofClass k => exact absurd h (hclass k)
  | typeClass k =>
      simp only [importsOfMention, hlanguage] at h
      exact absurd h (hclass k)
  | function module part =>
      simp only [importsOfMention, importsOfFunction, hlanguage] at h
      split at h
      · cases h
      · exact absurd h (hclass module)
  | staticMocks => simp [importsOfMention, hjvm] at h
  | nonFinite => simp [importsOfMention, hlanguage] at h

namespace Construction.Follows

variable {c : Construction} {g : Generation} {sets : List TestSet}

/-- A class that is imported is written by its short name. -/
theorem className_of_mem_imports (h : c.Follows g sets) {k : ClassName} {binding : Option String}
    (hk : .regular k.qualifiedName binding ∈ c.file.imports) (implicitPackage : String) :
    (Target.Surroundings.ofFile c.generation.settings c.file).className implicitPackage k =
      k.name := by
  rw [h.imports_eq] at hk
  have hpath := (Generation.importsPath_ofFile k.qualifiedName).mpr ⟨binding, hk⟩
  rw [← h.file_eq] at hpath
  simp [Target.Surroundings.className, Target.Surroundings.isShort, hpath]

section Java

variable (h : c.Follows g sets) (hc : g.construct sets = .ok c)
  (hlanguage : g.config.language = .java)

include h hc hlanguage

/-- A class in Java shows the names of everything that it mentions. -/
theorem shows_of_java {s : Target.Surroundings}
    (hframework : s.settings.framework = c.generation.config.framework) {x : Mention}
    (hx : x ∈ c.generation.mentionsOfClass c.file.testClass) {step : Step}
    (hstep : Target.Java.step? s x = some step) :
    (Target.Java.classDoc s c.file.testClass).Shows step := by
  have hjvm : c.generation.language.isJvm = true := by
    rw [h.language_eq]
    exact congrArg Language.isJvm hlanguage
  have hplain : ∀ a ∈ c.file.testClass.annotations, a.IsPlain := by
    rw [h.testClass_eq]
    exact c.generation.isPlain_extensionAnnotations
  rcases List.mem_append.mp hx with hx | hx
  · rcases List.mem_append.mp hx with hx | hx
    · obtain ⟨a, ha, hx⟩ := List.mem_flatMap.mp hx
      exact Target.Java.shows_classDoc_of_annotation ha (hplain a ha) hx hstep
    · rw [if_pos hjvm] at hx
      obtain ⟨k, hk, rfl⟩ := List.mem_map.mp hx
      exact Target.Java.shows_classDoc_of_supertype hk hstep
  · obtain ⟨m, hm, hx⟩ := List.mem_flatMap.mp hx
    refine Target.Java.shows_classDoc_of_method hm ?_
    rw [Generation.mentionsOfMethod, if_pos hjvm, ← hframework] at hx
    have hkind : ∀ k, m.kind ≠ .helper k := by
      intro k hkind
      simp [Target.methodAnnotations, Method.mentions, hkind] at hx
    rcases List.mem_append.mp hx with hx | hx
    · exact Target.Java.shows_method_of_annotation hkind hx hstep
    · refine Target.Java.shows_method_of_code (h.built m hm) ?_ hkind (m.mem_codeMentions hx) hstep
      exact (Generation.construct_comesFrom hc m hm).mentions_returnType

/-- A class in Java refers to all imports of its file. -/
theorem referred_of_java (hframework : g.config.framework ∈ g.config.language.frameworks)
    (hsets : ∀ set ∈ sets, ∀ k ∈ set.classes, k.IsSimple) {i : Import} (hi : i ∈ c.file.imports)
    {below : Doc}
    (hbelow : Target.Java.classDoc (.ofFile c.generation.settings c.file) c.file.testClass =
      .ok below) : i.IsReferredTo .java below := by
  have hlanguage' : c.generation.language = .java := h.language_eq.trans hlanguage
  have hjvm : c.generation.language.isJvm = true := congrArg Language.isJvm hlanguage'
  have hnames : NamesOnly ClassName.IsSimple (c.generation.mentionsOfClass c.file.testClass) :=
    Generation.namesOnly_mentionsOfClass (h.classNamesIn hc (congrArg Language.isJvm hlanguage)
      hframework hsets _)
  have hshows : ∀ {x : Mention} {step : Step},
      x ∈ c.generation.mentionsOfClass c.file.testClass →
      Target.Java.step? (.ofFile c.generation.settings c.file) x = some step → step ∈ below :=
    fun hx hstep => h.shows_of_java hc hlanguage rfl hx hstep below hbelow
  have hasks : i ∈ c.generation.importsOf c.file.testClass := h.imports_eq ▸ hi
  have himport := Generation.mem_importsInOrder_iff.mp (Generation.mem_importsOf_iff.mp hasks).1
  rw [Generation.imports_eq_nil_of_jvm hjvm (by
    rw [h.language_eq, h.config_eq]
    exact hframework)] at himport
  obtain ⟨x, hx, hasked⟩ := himport.resolve_left List.not_mem_nil
  cases i with
  | regular path binding =>
      rcases Generation.importsOfMention_cases hjvm hx hasked with ⟨k, howns, rfl⟩ |
        ⟨hmocks, rfl⟩ | ⟨module, name, -, hkotlin, -⟩
      -- Some mention writes the name that the class owns; it need not be the one that asked.
      · obtain ⟨y, hy, hshort⟩ := howns.exists_mention
        obtain ⟨hmentioned, hstep⟩ :=
          Target.Java.of_shortClass? (.ofFile c.generation.settings c.file) (hlanguage' ▸ hshort)
        have hglobal := howns.isGlobal_eq_false
        have hsimple : k.IsSimple :=
          (hnames y hy k hmentioned).resolve_left (Bool.eq_false_iff.mp hglobal)
        refine ⟨.ofClass k, rfl, ?_⟩
        rw [Import.shortName_of_class hglobal hsimple, ← h.className_of_mem_imports hi "java.lang"]
        exact hshows hy hstep
      · have hstep : .text (.ofClass ⟨"org.mockito", "MockedStatic"⟩)
            (Target.Surroundings.className (.ofFile c.generation.settings c.file) "java.lang"
              ⟨"org.mockito", "MockedStatic"⟩) ∈ below := hshows hmocks rfl
        rw [h.className_of_mem_imports (k := ⟨"org.mockito", "MockedStatic"⟩) hi] at hstep
        have hpath : "org.mockito.MockedStatic" =
            ClassName.qualifiedName ⟨"org.mockito", "MockedStatic"⟩ := by decide
        exact ⟨.ofClass ⟨"org.mockito", "MockedStatic"⟩, hpath, hstep⟩
      · rw [hlanguage'] at hkotlin
        cases hkotlin
  | member owner name =>
      obtain ⟨role, hrole, hstep⟩ :=
        Generation.exists_step_of_member_java hlanguage' (s := .ofFile c.generation.settings c.file)
          rfl hasked
      exact ⟨role, hrole, hshows hx hstep⟩

end Java

/-- A suite in JavaScript refers to all imports of its file but that of the assertions. -/
theorem referred_of_javaScript (h : c.Follows g sets)
    (hlanguage : g.config.language = .javascript)
    (hframework : g.config.framework ∈ g.config.language.frameworks) {i : Import}
    (hi : i ∈ c.file.imports) {s : Target.Surroundings} {below : Doc}
    (hbelow : Target.JavaScript.suiteDoc s c.file.testClass = .ok below) :
    i = .regular "assert" (some "assert") ∨ i.IsReferredTo .javascript below := by
  have hmocha : g.config.framework = .mocha := by
    rw [hlanguage] at hframework
    exact List.mem_singleton.mp hframework
  have hscript : g.config.language.isScript = true := congrArg Language.isScript hlanguage
  have himports : g.config.framework.imports = [.regular "assert" (some "assert")] := by
    rw [hmocha]
    rfl
  refine ((h.mem_imports_iff_of_isScript hscript hframework himports).mp hi).imp_right ?_
  rintro ⟨module, name, ⟨m, hm, x, hx, htaken⟩, rfl⟩
  obtain ⟨role, hrole, hstep⟩ := Target.JavaScript.exists_step_of_taken? htaken
  exact ⟨role, hrole, Target.JavaScript.shows_suiteDoc hm
    (Target.JavaScript.shows_method hlanguage (h.built m hm) hx hstep) below hbelow⟩

end Construction.Follows

/-! ## Exports -/

/-- The name that an import takes from a module. -/
def Import.nameFrom? (module : String) : Import → Option String
  | .member owner name => if owner = module then some name else none
  | .regular .. => none

namespace Target

theorem nodup_keys_membersByOwner (imports : List Import) :
    (membersByOwner imports).keys.Nodup := by
  induction imports using List.reverseRecOn with
  | nil => exact List.nodup_nil
  | append_singleton imports i ih =>
      cases i with
      | regular path binding => rwa [membersByOwner_append_regular]
      | member owner name =>
          rw [membersByOwner_append_member, OrderedMap.keys_alter]
          exact nodup_insertLast ih owner

/-- The members of a module are the names that imports take from it, in order. -/
theorem get?_membersByOwner (imports : List Import) (module : String) :
    (membersByOwner imports).get? module =
      (some (imports.filterMap (Import.nameFrom? module))).filter fun names => !names.isEmpty := by
  -- Members are collected from the left, so the induction adds an import at the end.
  induction imports using List.reverseRecOn with
  | nil => rfl
  | append_singleton imports i ih =>
      cases i with
      | regular path binding =>
          rw [membersByOwner_append_regular, ih, List.filterMap_append,
            List.filterMap_cons_none rfl, List.filterMap_nil, List.append_nil]
      | member owner name =>
          rw [membersByOwner_append_member, OrderedMap.get?_alter, List.filterMap_append]
          by_cases hmodule : module = owner
          · subst hmodule
            have hadded :
                [Import.member module name].filterMap (Import.nameFrom? module) = [name] :=
              List.filterMap_cons_some (if_pos rfl)
            have hbefore : ((membersByOwner imports).get? module).getD [] =
                imports.filterMap (Import.nameFrom? module) := by
              rw [ih]
              cases imports.filterMap (Import.nameFrom? module) <;> rfl
            rw [if_pos rfl, hbefore, hadded, Option.filter_some_pos (by simp)]
          · have hadded : [Import.member owner name].filterMap (Import.nameFrom? module) = [] :=
              List.filterMap_cons_none (if_neg (Ne.symm hmodule))
            rw [if_neg hmodule, ih, hadded, List.append_nil]

end Target

/-- A script takes names from a module in one line, if at all: those that its imports take from it,
in order. -/
theorem Binding.members_mem_ofImports_iff {language : Language} {imports : List Import}
    {module : String} {names : List String} :
    .members module names ∈ ofImports language imports ↔
      names = imports.filterMap (Import.nameFrom? module) ∧ names ≠ [] := by
  have hline : .members module names ∈ ofImports language imports ↔
      (module, names) ∈ (Target.membersByOwner imports).entries := by
    simp only [ofImports, List.mem_append, List.mem_filterMap, List.mem_map]
    constructor
    · rintro (⟨i, -, hi⟩ | ⟨e, he, heq⟩)
      · cases i <;> cases hi
      · cases heq
        exact he
    · exact fun h => Or.inr ⟨_, h, rfl⟩
  rw [hline, OrderedMap.mem_entries_iff (Target.nodup_keys_membersByOwner imports),
    Target.get?_membersByOwner, Option.filter_eq_some_iff, Option.some_inj]
  constructor
  · rintro ⟨rfl, hne⟩
    exact ⟨rfl, by simpa using hne⟩
  · rintro ⟨rfl, hne⟩
    exact ⟨rfl, by simpa using hne⟩

/-- The names to be exported are those that the imports of the file take from the module under
test. -/
theorem Generation.moduleExports_of_construct {g : Generation} {sets : List TestSet}
    {c : Construction} (hc : g.construct sets = .ok c)
    (hlanguage : c.generation.language = .javascript) :
    c.generation.moduleExports =
      c.file.imports.filterMap (Import.nameFrom? c.generation.classUnderTest.package) := by
  have himports : c.generation.imports = c.file.imports := by
    simp only [construct] at hc
    split at hc
    · cases hc
      rfl
    · cases hc
  rw [moduleExports, if_pos hlanguage, himports]
  refine List.filterMap_congr fun i _ => ?_
  cases i <;> rfl

theorem Import.eq_of_nameFrom? {i : Import} {module name : String}
    (h : i.nameFrom? module = some name) : i = .member module name := by
  cases i with
  | regular path binding => cases h
  | member owner part =>
      simp only [nameFrom?] at h
      split at h
      · next howner =>
        cases h
        rw [howner]
      · cases h

/-- Different imports take different names from a module. -/
theorem Import.nodup_names {imports : List Import} (h : imports.Nodup) (module : String) :
    (imports.filterMap (Import.nameFrom? module)).Nodup :=
  h.filterMap fun _ _ _ hi hj => (eq_of_nameFrom? hi).trans (eq_of_nameFrom? hj).symm

/-! ## Generated texts -/

/-- In Java and JavaScript a generated text has its imports above its class, and the document of the
class, which ends that of the file, refers by its short name to everything that is imported but the
module of assertions of JavaScript.  The names that a module under test in JavaScript has to export
are different, and they are those that one line of imports takes from it, in order of import;
without such names there is no such line. -/
theorem imports_are_referred_to {config : Config} (hvalid : config.validate = .ok ())
    (hlanguage : config.language = .java ∨ config.language = .javascript) (cut : ClassName)
    {sets : List TestSet} (hsets : ∀ set ∈ sets, ∀ k ∈ set.classes, k.IsSimple)
    (className : Option String) :
    ∃ gen c out head below, Generator.new cut config = .ok gen ∧
      (gen.base.derive className true).construct sets = .ok c ∧
      gen.generate sets className = .ok out ∧
      Target.fileDoc c.generation.settings c.file = .ok (head ++ below) ∧
      Target.classDocOf config.language (.ofFile c.generation.settings c.file) c.file.testClass =
        .ok below ∧
      out.code = Target.packageBlock config.language c.file.package ++
        Target.importBlock config.language c.file.imports ++ below.toText "    " ∧
      (∀ i ∈ c.file.imports,
        config.language = .javascript ∧ i = .regular "assert" (some "assert") ∨
          i.IsReferredTo config.language below ∧
            i.shortName.toList <:+: (below.toText "    ").toList) ∧
      (config.language = .javascript →
        Target.importBlock config.language c.file.imports =
          textOfGroup ((Binding.ofImports .javascript c.file.imports).map
            (Binding.line .javascript)) ∧
        out.moduleExports.Nodup ∧
        out.moduleExports = c.file.imports.filterMap (Import.nameFrom? cut.package) ∧
        ∀ names, .members cut.package names ∈ Binding.ofImports .javascript c.file.imports ↔
          names = out.moduleExports ∧ names ≠ []) := by
  have hpython : config.language ≠ .python := by rcases hlanguage with h | h <;> rw [h] <;> decide
  have hgo : config.language ≠ .go := by rcases hlanguage with h | h <;> rw [h] <;> decide
  obtain ⟨c, d, hc, hfollows, hd, gen, hnew, hbase, hout⟩ :=
    Generator.exists_doc_of_validate hvalid hgo cut sets className
  have hframework := Config.framework_mem_of_validate hvalid
  have hlanguage' : c.generation.settings.language = config.language := hfollows.language_eq
  obtain ⟨above, hfile, habove⟩ := Target.exists_head_of_fileDoc (hlanguage' ▸ hpython)
    (hlanguage' ▸ hgo) c.file
  rw [hlanguage'] at hfile habove
  obtain ⟨head, below, -, hbelow, rfl⟩ := Rendering.append_eq_ok_iff.mp (hfile ▸ hd)
  obtain ⟨below', hbelow', htext⟩ := habove.toText (hfile ▸ hd)
  obtain rfl : below = below' := Except.ok.inj (hbelow.symm.trans hbelow')
  have htab : (Target.Surroundings.ofFile c.generation.settings c.file).methodForms.dialect.tab =
      "    " := by
    simp only [Target.Surroundings.methodForms, Target.Surroundings.ofFile, hlanguage']
    rcases hlanguage with h | h <;> rw [h] <;> rfl
  have hreferred : ∀ i ∈ c.file.imports,
      config.language = .javascript ∧ i = .regular "assert" (some "assert") ∨
        i.IsReferredTo config.language below := by
    intro i hi
    rcases hlanguage with h | h
    · rw [h] at hbelow ⊢
      exact Or.inr (hfollows.referred_of_java hc h hframework hsets hi hbelow)
    · rw [h] at hbelow ⊢
      exact (hfollows.referred_of_javaScript h hframework hi hbelow).imp_left fun h => ⟨rfl, h⟩
  refine ⟨gen, c, _, head, below, hnew, hbase ▸ hc, hout, hd, hbelow, ?_, ?_, ?_⟩
  · simp only [htab, htext]
  · intro i hi
    refine (hreferred i hi).imp_right fun h => ⟨h, ?_⟩
    obtain ⟨role, -, hmem⟩ := h
    exact Doc.isInfix_toText hmem _
  · intro hscript
    have hexports := Generation.moduleExports_of_construct hc (hlanguage'.trans hscript)
    have hcut : c.generation.classUnderTest = cut := hfollows.class_eq
    rw [hcut] at hexports
    have hnodup : c.file.imports.Nodup := by
      rw [hfollows.imports_eq]
      exact Generation.nodup_importsOf
    dsimp only
    rw [hexports, hscript]
    refine ⟨?_, Import.nodup_names hnodup _, rfl, fun names => Binding.members_mem_ofImports_iff⟩
    exact congrArg textOfGroup (Target.JavaScript.requireLines_eq _)

/-- The class under test is the one name that its module has to export, and the tests refer to
it. -/
theorem imports_are_referred_to_twoPoints :
    (Config.forLanguage .javascript).validate = .ok () ∧
      (∀ set ∈ [twoPoints], ∀ k ∈ set.classes, k.IsSimple) ∧
      ∃ gen c out head below,
        Generator.new ⟨"shapes", "Shapes"⟩ (.forLanguage .javascript) = .ok gen ∧
        (gen.base.derive none true).construct [twoPoints] = .ok c ∧
        gen.generate [twoPoints] none = .ok out ∧
        Target.fileDoc c.generation.settings c.file = .ok (head ++ below) ∧
        Target.JavaScript.suiteDoc (.ofFile c.generation.settings c.file) c.file.testClass =
          .ok below ∧
        out.code = Target.importBlock .javascript c.file.imports ++ below.toText "    " ∧
        (Import.member "shapes" "Shapes").IsReferredTo .javascript below ∧
        "Shapes" ∈ out.moduleExports ∧
        .members "shapes" out.moduleExports ∈ Binding.ofImports .javascript c.file.imports := by
  have hsets : ∀ set ∈ [twoPoints], ∀ k ∈ set.classes, k.IsSimple := by decide
  obtain ⟨gen, c, out, head, below, hnew, hc, hout, hd, hbelow, hcode, hreferred, hexports⟩ :=
    @imports_are_referred_to (.forLanguage .javascript) rfl (Or.inr rfl) ⟨"shapes", "Shapes"⟩
      [twoPoints] hsets none
  obtain ⟨-, -, hnames, hlines⟩ := hexports rfl
  obtain rfl : ⟨.new ⟨"shapes", "Shapes"⟩ (.forLanguage .javascript)⟩ = gen := Except.ok.inj hnew
  have hrun : ((((Generation.new ⟨"shapes", "Shapes"⟩ (.forLanguage .javascript)).derive none
      true).construct [twoPoints]).toOption.any fun c => c.file.testClass.methods.any fun m =>
        .ofClass ⟨"shapes", "Shapes"⟩ ∈ m.mentions) = true := by
    decide +kernel
  rw [hc] at hrun
  obtain ⟨m, hm, hmention⟩ := List.any_eq_true.mp hrun
  have htakes : c.file.testClass.Takes "shapes" "Shapes" :=
    ⟨m, hm, _, of_decide_eq_true hmention, rfl⟩
  obtain ⟨c', hc', hfollows⟩ := ((Generation.new ⟨"shapes", "Shapes"⟩
    (.forLanguage .javascript)).derive none true).construct_follows [twoPoints]
  obtain rfl : c = c' := Except.ok.inj (hc.symm.trans hc')
  have himport : .member "shapes" "Shapes" ∈ c.file.imports :=
    (hfollows.mem_imports_iff_of_isScript rfl (List.mem_singleton_self _) rfl).mpr
      (Or.inr ⟨_, _, htakes, rfl⟩)
  have hexported : "Shapes" ∈ out.moduleExports := by
    rw [hnames]
    exact List.mem_filterMap.mpr ⟨_, himport, rfl⟩
  refine ⟨rfl, hsets, _, c, out, head, below, rfl, hc, hout, hd, hbelow, ?_, ?_, hexported, ?_⟩
  · have hhead : Target.packageBlock (Config.forLanguage .javascript).language c.file.package =
        "" := rfl
    rw [hcode, hhead, String.empty_append]
    rfl
  · rcases hreferred _ himport with ⟨-, h⟩ | ⟨h, -⟩
    · cases h
    · exact h
  · exact (hlines _).mpr ⟨rfl, List.ne_nil_of_mem hexported⟩

end TestWriter
