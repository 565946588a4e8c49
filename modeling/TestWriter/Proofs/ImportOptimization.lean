import Mathlib.Data.Prod.Lex
import Mathlib.Data.String.Basic
import Mathlib.Order.WithBot
import TestWriter.Proofs.NameAgreement
import TestWriter.Proofs.ShortNames

/-!
# Optimized imports

Whether imports are optimized is read when they are collected, and nowhere else.  Main statement:
with and without optimization a file for the JVM is the same but for its imports, the optimized ones
are the needed ones of the others in order, and both files are written with the same text above and
below their imports.
-/

namespace TestWriter

open Layout

/-! ## Builds that do not read the switch -/

open Build

/-- The state with the optimization of imports on or off. -/
def Generation.optimizing (on : Bool) (g : Generation) : Generation :=
  { g with optimizeImports := on }

/-- The class in the making with the optimization of imports on or off. -/
def Assembly.optimizing (on : Bool) (a : Assembly) : Assembly :=
  { a with generation := a.generation.optimizing on }

/-- The construction with the optimization of imports on or off. -/
def Construction.optimizing (on : Bool) (c : Construction) : Construction :=
  let g := c.generation.optimizing on
  let imports := g.importsOf c.file.testClass
  { file := { c.file with imports := imports }
    report := c.report
    generation := { g with imports := imports } }

theorem Build.Commutes.modify {σ : Type} {f g : σ → σ} (h : ∀ s, g (f s) = f (g s)) :
    (modify g : Build σ PUnit).Commutes f :=
  fun s => congrArg (EStateM.Result.ok PUnit.unit) (h s)

/-- A build that reads and writes the record of use alone does not read the switch. -/
theorem Generation.Local.commutes_optimizing {α : Type} {m : Build Generation α} (hm : Local m)
    (on : Bool) : m.Commutes (optimizing on) := by
  intro g
  have hmoved := hm (g.optimizing on) g
  change m (g.optimizing on) = onState (fun g' => (g.optimizing on).restore g'.usage) (m g)
    at hmoved
  rw [hmoved]
  cases hrun : m g with
  | ok a g' =>
      have hg := congrArg (fun h => (h.optimizing on).restore g'.usage) (hm.restore_of_ok hrun)
      exact congrArg (EStateM.Result.ok a) hg.symm
  | error e g' =>
      have hg := congrArg (fun h => (h.optimizing on).restore g'.usage) (hm.restore_of_error hrun)
      exact congrArg (EStateM.Result.error e) hg.symm

namespace Assembly

variable {on : Bool}

theorem attempt_commutes {α : Type} {m : Build Generation α}
    (hm : m.Commutes (Generation.optimizing on)) : (attempt m).Commutes (optimizing on) := by
  intro a
  have hrun : m (a.optimizing on).generation =
      onState (Generation.optimizing on) (m a.generation) := hm a.generation
  simp only [attempt, hrun]
  cases m a.generation with
  | ok x g => rfl
  | error e g =>
      simp only [onState]
      split
      · rfl
      · have htally :
            ((g.optimizing on).restore (a.optimizing on).generation.usage).tally e.message =
              ((g.restore a.generation.usage).tally e.message).map (Generation.optimizing on) := by
          simp only [Generation.tally, Generation.currentExecutable]
          cases hcurrent : g.current <;>
            simp only [Generation.restore, Generation.optimizing, hcurrent] <;> rfl
        rw [htally]
        cases (g.restore a.generation.usage).tally e.message <;> rfl

theorem warn_commutes (a : Assembly) (warning : Option String) :
    (a.optimizing on).warn warning = (a.warn warning).optimizing on := by
  cases warning <;> rfl

theorem addRun_commutes (e : Executable) (run : Execution) :
    (addRun e run).Commutes (optimizing on) := by
  refine (Commutes.modify fun a => warn_commutes a _).bind fun _ => ?_
  have htest : (run.toTest e).Commutes (Generation.optimizing on) := fun g =>
    (run.toTestUnder_local g.config e).commutes_optimizing on g
  refine (attempt_commutes htest).bind fun test => ?_
  cases test with
  | none => exact (Commutes.pure _).bind fun _ => Commutes.pure _
  | some m =>
      exact Commutes.bind (Commutes.modify fun _ => rfl) fun _ => Commutes.pure _

theorem addRuns_commutes (e : Executable) (runs : List Execution) :
    (addRuns e runs).Commutes (optimizing on) := by
  induction runs with
  | nil => exact Commutes.pure _
  | cons run rest ih => exact (addRun_commutes e run).bind fun _ => ih.bind fun _ => Commutes.pure _

theorem addGroups_commutes (e : Executable) (groups : List Group) :
    (addGroups e groups).Commutes (optimizing on) := by
  induction groups with
  | nil => exact Commutes.pure _
  | cons group rest ih =>
      exact (addRuns_commutes e group.executions).bind fun _ => ih.bind fun _ => Commutes.pure _

theorem addTable_commutes (set : TestSet) : (addTable set).Commutes (optimizing on) := by
  refine (Commutes.modify fun a => warn_commutes a _).bind fun _ => ?_
  have htable : set.toTable.Commutes (Generation.optimizing on) := fun g =>
    (set.toTableUnder_local g.config).commutes_optimizing on g
  refine (attempt_commutes htable).bind fun table => ?_
  cases table with
  | none => exact Commutes.pure _
  | some t =>
      exact Commutes.bind (Commutes.modify fun _ => rfl) fun _ => Commutes.pure _

theorem addTests_commutes (set : TestSet) : (addTests set).Commutes (optimizing on) := by
  intro a
  have hmode : (a.optimizing on).generation.config.isParameterized =
      a.generation.config.isParameterized := rfl
  simp only [addTests, hmode]
  split
  · exact addTable_commutes set a
  · exact addGroups_commutes set.executable set.groups a

theorem addErrors_commutes (set : TestSet) : (addErrors set).Commutes (optimizing on) := by
  intro a
  have herrors : (a.optimizing on).errorsOf set = a.errorsOf set := rfl
  simp only [addErrors, herrors]
  split <;> rfl

theorem addSet_commutes (set : TestSet) : (addSet set).Commutes (optimizing on) := by
  refine Commutes.bind (Commutes.modify fun _ => rfl) fun _ => ?_
  refine (addTests_commutes set).bind fun tests => (addErrors_commutes set).bind fun errors => ?_
  exact Commutes.bind (Commutes.modify fun _ => rfl) fun _ => Commutes.pure _

theorem addSets_commutes (sets : List TestSet) : (addSets sets).Commutes (optimizing on) := by
  induction sets with
  | nil => exact Commutes.pure _
  | cons set rest ih =>
      have hcovered : (addCovered set).Commutes (optimizing on) := by
        simp only [addCovered]
        split
        · exact Commutes.pure _
        · exact addSet_commutes set
      exact hcovered.bind fun _ => ih.bind fun _ => Commutes.pure _

theorem addStatics_commutes : addStatics.Commutes (optimizing on) := fun _ => rfl

theorem addAll_commutes (sets : List TestSet) : (addAll sets).Commutes (optimizing on) :=
  (addSets_commutes sets).bind fun _ => addStatics_commutes.bind fun _ => Commutes.pure _

end Assembly

/-- A class is built alike with and without optimized imports, but for the imports. -/
theorem Generation.construct_optimizing {g : Generation} {sets : List TestSet} {c : Construction}
    (on : Bool) (hc : g.construct sets = .ok c) :
    (g.optimizing on).construct sets = .ok (c.optimizing on) := by
  have hmoved : Assembly.addAll sets (.start (g.optimizing on)) =
      onState (Assembly.optimizing on) (Assembly.addAll sets (.start g)) :=
    Assembly.addAll_commutes sets (.start g)
  simp only [construct] at hc ⊢
  rw [hmoved]
  cases hrun : Assembly.addAll sets (.start g) with
  | ok parts a =>
      rw [hrun] at hc
      cases hc
      rfl
  | error e a =>
      rw [hrun] at hc
      cases hc

/-! ## Sorted imports -/

/-- The place of an optional text in the order of texts; absence comes first. -/
def Import.place : Option String → WithBot String
  | none => ⊥
  | some text => text

/-- The place of an import in the order of imports. -/
def Import.key : Import → Bool ×ₗ String ×ₗ WithBot String
  | .regular path binding => toLex (false, toLex (path, place binding))
  | .member owner name => toLex (true, toLex (owner, place (some name)))

theorem Import.optionLt_iff (a b : Option String) : optionLt a b = true ↔ place a < place b := by
  cases a with
  | none =>
      cases b with
      | none => simp [optionLt]
      | some b => exact iff_of_true rfl (WithBot.bot_lt_coe b)
  | some a =>
      cases b with
      | none => exact iff_of_false nofun not_lt_bot
      | some b => exact decide_eq_true_iff.trans WithBot.coe_lt_coe.symm

/-- An import stands before another when its place does. -/
theorem Import.lt_iff (i j : Import) : i.lt j = true ↔ i.key < j.key := by
  have hmember : ∀ m n : String, place (some m) < place (some n) ↔ m < n :=
    fun m n => WithBot.coe_lt_coe
  cases i with
  | regular p a =>
      cases j with
      | regular q b => simp [lt, key, Prod.Lex.toLex_lt_toLex, optionLt_iff]
      | member o m => simp [lt, key, Prod.Lex.toLex_lt_toLex]
  | member o m =>
      cases j with
      | regular q b => simp [lt, key, Prod.Lex.toLex_lt_toLex]
      | member p n => simp [lt, key, Prod.Lex.toLex_lt_toLex, hmember]

/-- Sorted imports stand in order. -/
theorem Import.pairwise_sort (imports : List Import) :
    (sort imports).Pairwise fun i j => j.lt i = false := by
  have hle : ∀ i j : Import, (!lt j i) = true ↔ i.key ≤ j.key := by
    intro i j
    rw [Bool.not_eq_true', Bool.eq_false_iff, ne_eq, lt_iff, not_lt]
  have htrans : ∀ i j k : Import, (!lt j i) = true → (!lt k j) = true → (!lt k i) = true :=
    fun i j k hij hjk => (hle i k).mpr (((hle i j).mp hij).trans ((hle j k).mp hjk))
  have htotal : ∀ i j : Import, (!lt j i || !lt i j) = true := by
    intro i j
    rw [Bool.or_eq_true, hle, hle]
    exact le_total _ _
  have hsorted := List.pairwise_mergeSort htrans htotal imports
  refine hsorted.imp fun h => ?_
  rwa [Bool.not_eq_true'] at h

/-! ## Redundant imports -/

/-- A regular import is redundant when its package is in reach everywhere or is that of the
tests. -/
def Import.IsRedundant (implicitPackage testPackage : String) (i : Import) : Prop :=
  i.isMember = false ∧ (i.source = implicitPackage ∨ i.source = testPackage)

instance (implicitPackage testPackage : String) (i : Import) :
    Decidable (i.IsRedundant implicitPackage testPackage) :=
  inferInstanceAs (Decidable (_ ∧ (_ ∨ _)))

namespace Generation

variable {g : Generation} {t : TestClass}

theorem inReach_iff_of_jvm (hjvm : g.language.isJvm = true) (i : Import) :
    g.inReach i = true ↔ i.IsRedundant g.language.implicitPackage g.testPackage := by
  cases i with
  | member owner name => simp [inReach, Import.IsRedundant, Import.isMember]
  | regular path binding =>
      cases hlanguage : g.language with
      | java | kotlin =>
          simp [inReach, hlanguage, Import.IsRedundant, Import.isMember, Language.implicitPackage]
      | _ =>
          rw [hlanguage] at hjvm
          cases hjvm

/-- Optimized imports are those of the others that are not redundant, in order. -/
theorem importsOf_optimizing (hjvm : g.language.isJvm = true) (t : TestClass) :
    ((g.optimizing true).importsOf t).Perm (((g.optimizing false).importsOf t).filter fun i =>
        ¬i.IsRedundant g.language.implicitPackage g.testPackage) ∧
      ((g.optimizing true).importsOf t).Pairwise fun i j => j.lt i = false := by
  have hfilter : ((g.importsInOrder t).filter fun i => !g.inReach i) =
      (g.importsInOrder t).filter fun i =>
        ¬i.IsRedundant g.language.implicitPackage g.testPackage := by
    refine List.filter_congr fun i _ => ?_
    rw [Bool.eq_iff_iff, Bool.not_eq_true', Bool.eq_false_iff, ne_eq, inReach_iff_of_jvm hjvm i,
      decide_eq_true_iff]
  have hoptimized : (g.optimizing true).importsOf t =
      Import.sort ((g.importsInOrder t).filter fun i => !g.inReach i) := rfl
  have hothers : (g.optimizing false).importsOf t = g.importsInOrder t := rfl
  rw [hoptimized, hothers, hfilter]
  exact ⟨List.mergeSort_perm _ _, Import.pairwise_sort _⟩

theorem mem_importsOf_optimizing_iff (hjvm : g.language.isJvm = true) {i : Import} :
    i ∈ (g.optimizing true).importsOf t ↔ i ∈ (g.optimizing false).importsOf t ∧
      ¬i.IsRedundant g.language.implicitPackage g.testPackage := by
  rw [(importsOf_optimizing hjvm t).1.mem_iff, List.mem_filter, decide_eq_true_iff]

/-- A class with a simple name that is in reach by a redundant import is near. -/
theorem isNear_of_isRedundant {c : ClassName} (hsimple : c.IsSimple) {binding : Option String}
    (h : (Import.regular c.qualifiedName binding).IsRedundant g.language.implicitPackage
      g.testPackage) : g.IsNear c := by
  cases hglobal : c.isGlobal with
  | true => exact Or.inl hglobal
  | false =>
      have hsource := h.2
      simp only [ClassName.qualifiedName, hglobal, Bool.false_eq_true, if_false,
        Import.source_of_package _ _ hsimple] at hsource
      exact Or.inr hsource

/-- The redundant imports bring no class with a simple name into reach. -/
theorem reaches_optimizing_iff (hjvm : g.language.isJvm = true) {c : ClassName}
    (hsimple : c.IsSimple) :
    g.Reaches ((g.optimizing false).importsOf t) c ↔
      g.Reaches ((g.optimizing true).importsOf t) c := by
  constructor
  · rintro (hnear | ⟨binding, hi⟩)
    · exact Or.inl hnear
    · by_cases hredundant : (Import.regular c.qualifiedName binding).IsRedundant
          g.language.implicitPackage g.testPackage
      · exact Or.inl (isNear_of_isRedundant hsimple hredundant)
      · exact Or.inr ⟨binding, (mem_importsOf_optimizing_iff hjvm).mpr ⟨hi, hredundant⟩⟩
  · rintro (hnear | ⟨binding, hi⟩)
    · exact Or.inl hnear
    · exact Or.inr ⟨binding, ((mem_importsOf_optimizing_iff hjvm).mp hi).1⟩

/-- Without the redundant imports every class with a simple name is named as with them. -/
theorem namesAlike_optimizing (hjvm : g.language.isJvm = true) (hid : t.id.package = g.testPackage)
    (settings : Target.Settings) :
    (Target.Surroundings.ofFile settings ((g.optimizing false).fileOf t)).NamesAlike
      ((g.optimizing true).importsOf t) g.language.implicitPackage ClassName.IsSimple := by
  intro c hc
  have hplain := isShort_iff_reaches (g := g.optimizing false) (t := t) hid c
  have hoptimized := isShort_iff_reaches (g := g.optimizing true) (t := t) hid c
  have hreach : g.Reaches ((g.optimizing false).importsOf t) c ↔
      g.Reaches ((g.optimizing true).importsOf t) c :=
    hc.elim (fun hglobal => iff_of_true (Or.inl (Or.inl hglobal)) (Or.inl (Or.inl hglobal)))
      fun hsimple => reaches_optimizing_iff hjvm hsimple
  have hshort := Bool.eq_iff_iff.mpr (hplain.trans (hreach.trans hoptimized.symm))
  have hsame : (Target.Surroundings.ofFile settings ((g.optimizing false).fileOf t)).isShort
      g.language.implicitPackage c =
      { Target.Surroundings.ofFile settings ((g.optimizing false).fileOf t) with
        imports := (g.optimizing true).importsOf t }.isShort g.language.implicitPackage c := hshort
  simp only [Target.Surroundings.className, hsame]

end Generation

/-! ## Classes of a built file -/

theorem AnnotationUse.mentions_withValue (a : AnnotationUse) (e : Expr) :
    (a.withValue e).mentions = a.mentions ++ e.mentions := by
  simp [mentions, withValue]

theorem AnnotationUse.mentions_withArgument (a : AnnotationUse) (name : String) (e : Expr) :
    (a.withArgument name e).mentions = a.mentions ++ e.mentions := by
  simp [mentions, withArgument]

/-- Annotations of the frameworks name classes with simple names. -/
theorem AnnotationUse.additive_namesOnly :
    Additive fun a => NamesOnly ClassName.IsSimple a.mentions where
  mark _ hc := NamesOnly.nil.consClass rfl (Or.inr hc)
  value a text ha := by
    rw [mentions_withValue]
    exact ha.append (NamesOnly.literal _)
  argument a name l _ ha := by
    rw [mentions_withArgument]
    exact ha.append (NamesOnly.literal l)
  unit a ha := by
    rw [mentions_withArgument]
    exact ha.append (NamesOnly.nil.consClass rfl (Or.inr (by decide)))

theorem Generation.namesOnly_extensionAnnotations (g : Generation) :
    NamesOnly ClassName.IsSimple (g.extensionAnnotations.flatMap AnnotationUse.mentions) := by
  simp only [extensionAnnotations]
  split
  · rw [List.flatMap_singleton, AnnotationUse.mentions_withValue]
    exact (NamesOnly.nil.consClass rfl (Or.inr (by decide))).append
      (NamesOnly.nil.consClass rfl (Or.inr (by decide)))
  · exact NamesOnly.nil

/-- A class that is built for the JVM names the classes of its evidence and others with simple
names. -/
theorem Construction.Follows.classNamesIn {c : Construction} {g : Generation}
    {sets : List TestSet} (h : c.Follows g sets) (hc : g.construct sets = .ok c)
    (hjvm : g.config.language.isJvm = true)
    (hframework : g.config.framework ∈ g.config.language.frameworks)
    (hsets : ∀ set ∈ sets, ∀ k ∈ set.classes, k.IsSimple) (framework : Framework) :
    Target.ClassNamesIn ClassName.IsSimple framework c.file.testClass where
  annotations := by
    rw [h.testClass_eq]
    exact c.generation.namesOnly_extensionAnnotations
  superclass := by
    have hnone : c.file.testClass.superclass = none := by
      rw [h.testClass_superclass, Generation.superclass?, h.config_eq]
      rcases Generation.framework_of_jvm (g := g) hjvm hframework with hcase | hcase | hcase <;>
        rw [hcase] <;> rfl
    intro k hk
    rw [hnone] at hk
    cases hk
  interfaces := by
    rw [h.testClass_eq]
    exact List.forall_mem_nil _
  methods m hm := by
    refine ⟨fun x hx => ?_, Generation.namesOnly_of_construct hc hsets m hm⟩
    obtain ⟨a, ha, hx⟩ := List.mem_flatMap.mp hx
    exact Target.forall_methodAnnotations AnnotationUse.additive_namesOnly framework m a ha x hx

/-! ## Texts -/

theorem Language.ne_of_isJvm {l : Language} (h : l.isJvm = true) :
    l ≠ .python ∧ l ≠ .javascript ∧ l ≠ .go := by
  cases l with
  | java | kotlin => decide
  | _ => cases h

namespace Target

open Rendering

theorem classDocOf_congr {P : ClassName → Prop} {language : Language} {s : Surroundings}
    {imports : List Import} {c : TestClass} (hjvm : language.isJvm = true)
    (hmocks : P ⟨"org.mockito", "MockedStatic"⟩)
    (halike : s.NamesAlike imports language.implicitPackage P)
    (hc : ClassNamesIn P s.settings.framework c) :
    classDocOf language s c = classDocOf language { s with imports := imports } c := by
  cases language with
  | java => exact Java.classDoc_congr halike hmocks hc
  | kotlin => exact Kotlin.classDoc_congr halike hc
  | _ => cases hjvm

/-- With other imports that make no difference to the names of its classes, a file of the JVM has
the same text below its imports. -/
theorem renderFile_withImports {P : ClassName → Prop} {settings : Settings}
    (hjvm : settings.language.isJvm = true) (hmocks : P ⟨"org.mockito", "MockedStatic"⟩)
    {f : SourceFile} (hwritten : (fileDoc settings f).Succeeds) {imports : List Import}
    (halike :
      (Surroundings.ofFile settings f).NamesAlike imports settings.language.implicitPackage P)
    (hc : ClassNamesIn P settings.framework f.testClass) :
    ∃ below,
      renderFile settings f = .ok (packageBlock settings.language f.package ++
        importBlock settings.language f.imports ++ below) ∧
      renderFile settings { f with imports := imports } =
        .ok (packageBlock settings.language f.package ++ importBlock settings.language imports ++
          below) := by
  obtain ⟨d, hd⟩ := hwritten
  obtain ⟨hpython, -, hgo⟩ := Language.ne_of_isJvm hjvm
  obtain ⟨head, hfile, hhead⟩ := exists_head_of_fileDoc hpython hgo f
  obtain ⟨head', hfile', hhead'⟩ := exists_head_of_fileDoc hpython hgo { f with imports := imports }
  obtain ⟨below, hbelow, -⟩ := hhead.toText (hfile ▸ hd)
  have hbelow' : classDocOf settings.language (.ofFile settings { f with imports := imports })
      f.testClass = .ok below :=
    (classDocOf_congr hjvm hmocks halike hc).symm.trans hbelow
  have htab : (Surroundings.ofFile settings { f with imports := imports }).methodForms.dialect.tab =
      (Surroundings.ofFile settings f).methodForms.dialect.tab := by
    simp only [Surroundings.methodForms, Surroundings.ofFile]
    cases settings.language <;> rfl
  refine ⟨below.toText (Surroundings.ofFile settings f).methodForms.dialect.tab, ?_, ?_⟩
  · rw [renderFile, hfile]
    exact hhead.textOf hbelow _
  · rw [renderFile, hfile', htab]
    exact hhead'.textOf hbelow' _

end Target

/-- For the JVM, generation with optimized imports and assembly without them build the same file but
for its imports.  The optimized imports are those of the others that are not redundant, in order,
and with the same settings both files are written with the same text above and below their
imports. -/
theorem optimized_imports_keep_code {cut : ClassName} {config : Config}
    (hvalid : config.validate = .ok ()) (hjvm : config.language.isJvm = true)
    {sets : List TestSet} (hsets : ∀ set ∈ sets, ∀ k ∈ set.classes, k.IsSimple) :
    ∃ gen c plain out, Generator.new cut config = .ok gen ∧
      (gen.base.derive none true).construct sets = .ok c ∧
      gen.generate sets none = .ok out ∧
      Target.renderFile c.generation.settings c.file = .ok out.code ∧
      gen.assemble sets = .ok (plain, out.report) ∧
      c.file = { plain with imports := c.file.imports } ∧
      c.file.imports.Perm (plain.imports.filter fun i =>
        ¬i.IsRedundant config.language.implicitPackage (config.package.getD cut.package)) ∧
      c.file.imports.Pairwise (fun i j => j.lt i = false) ∧
      ∀ settings : Target.Settings, settings.language = config.language → ∃ below,
        Target.renderFile settings c.file =
          .ok (Target.packageBlock config.language plain.package ++
            Target.importBlock config.language c.file.imports ++ below) ∧
        Target.renderFile settings plain =
          .ok (Target.packageBlock config.language plain.package ++
            Target.importBlock config.language plain.imports ++ below) := by
  obtain ⟨hpython, -, hgo⟩ := Language.ne_of_isJvm hjvm
  have hmocks := Config.supportsMocking_of_validate hvalid
  obtain ⟨c, d, hc, hfollows, hd, ⟨base⟩, hnew, rfl, hgenerate⟩ :=
    Generator.exists_doc_of_validate hvalid hgo cut sets none
  have hframework := Config.framework_mem_of_validate hvalid
  have hplain : ((Generation.new cut config).derive none false).construct sets =
      .ok (c.optimizing false) :=
    Generation.construct_optimizing (g := (Generation.new cut config).derive none true) false hc
  have hassemble : Generator.assemble ⟨.new cut config⟩ sets =
      .ok ((c.optimizing false).file, c.report) := by
    simp only [Generator.assemble, hplain]
    rfl
  obtain ⟨c', hc', hfollows'⟩ :=
    ((Generation.new cut config).derive none false).construct_follows sets
  obtain rfl : c.optimizing false = c' := Except.ok.inj (hplain.symm.trans hc')
  have hlanguage : c.generation.language = config.language := hfollows.language_eq
  have hpackage : c.generation.testPackage = config.package.getD cut.package := by
    rw [Generation.testPackage, hfollows.config_eq, hfollows.class_eq]
    rfl
  have hoptimized : c.generation.optimizing true = c.generation := by
    have hon : c.generation.optimizeImports = true := hfollows.optimize_eq
    rw [Generation.optimizing, ← hon]
  have himports : c.file.imports = (c.generation.optimizing true).importsOf c.file.testClass := by
    rw [hoptimized]
    exact hfollows.imports_eq
  have hplainFile : (c.optimizing false).file =
      (c.generation.optimizing false).fileOf c.file.testClass := by
    have hpackage := congrArg SourceFile.package hfollows.file_eq
    simp only [Construction.optimizing, hpackage]
    rfl
  have hjvm' : c.generation.language.isJvm = true := hlanguage.symm ▸ hjvm
  obtain ⟨hperm, hsorted⟩ := Generation.importsOf_optimizing hjvm' c.file.testClass
  rw [← himports, hlanguage, hpackage] at hperm
  rw [← himports] at hsorted
  have hcode : Target.renderFile c.generation.settings c.file = .ok (d.toText
      (Target.Surroundings.ofFile c.generation.settings c.file).methodForms.dialect.tab) := by
    simp only [Target.renderFile, hd, Target.textOf]
  refine ⟨_, c, _, _, hnew, hc, hgenerate, hcode, hassemble, rfl, hperm, hsorted, ?_⟩
  intro settings hsettings
  have hwritten := hfollows'.succeeds_fileDoc_with hmocks hgo hsettings (absurd · hpython)
  have halike := Generation.namesAlike_optimizing hjvm' hfollows.testClass_package settings
  rw [← hplainFile, ← himports, hlanguage, ← hsettings] at halike
  have hnames := hfollows.classNamesIn hc hjvm hframework hsets settings.framework
  obtain ⟨below, hbelow, hbelow'⟩ := Target.renderFile_withImports
    (hsettings ▸ hjvm) (by decide) hwritten halike hnames
  rw [hsettings] at hbelow hbelow'
  exact ⟨below, hbelow', hbelow⟩

/-- A run that takes a cart of the package under test and an item of another package. -/
def cartAndItem : List TestSet :=
  let cart : ClassName := ⟨"shop", "Cart"⟩
  let item : ClassName := ⟨"stock", "Item"⟩
  [⟨⟨cart, "fits", [⟨"cart", .ofClass cart⟩, ⟨"item", .ofClass item⟩], .void, .staticMethod⟩,
    [.ofArguments [.composite cart [] [], .composite item [] []] .completed], [], .empty⟩]

/-- The cart is imported unless imports are optimized, and the item is imported either way. -/
theorem optimized_imports_keep_code_cartAndItem :
    javaWithHelperClass.validate = .ok () ∧ javaWithHelperClass.language.isJvm = true ∧
      (∀ set ∈ cartAndItem, ∀ k ∈ set.classes, k.IsSimple) ∧
      ∃ gen c plain out, Generator.new ⟨"shop", "Cart"⟩ javaWithHelperClass = .ok gen ∧
        (gen.base.derive none true).construct cartAndItem = .ok c ∧
        gen.generate cartAndItem none = .ok out ∧
        gen.assemble cartAndItem = .ok (plain, out.report) ∧
        .regular "shop.Cart" none ∈ plain.imports ∧ .regular "shop.Cart" none ∉ c.file.imports ∧
        .regular "stock.Item" none ∈ c.file.imports ∧
        ∃ below,
          out.code = "package shop;\n\n" ++ Target.importBlock .java c.file.imports ++ below ∧
          Target.renderFile c.generation.settings plain =
            .ok ("package shop;\n\n" ++ Target.importBlock .java plain.imports ++ below) := by
  have hsets : ∀ set ∈ cartAndItem, ∀ k ∈ set.classes, k.IsSimple := by decide
  have hvalid : javaWithHelperClass.validate = .ok () := rfl
  obtain ⟨gen, c, plain, out, hnew, hc, hgenerate, hcode, hassemble, hfile, hperm, -, htexts⟩ :=
    @optimized_imports_keep_code ⟨"shop", "Cart"⟩ _ hvalid rfl _ hsets
  have hrun : (Generator.assemble ⟨.new ⟨"shop", "Cart"⟩ javaWithHelperClass⟩
      cartAndItem).toOption.any (fun p => .regular "shop.Cart" none ∈ p.1.imports ∧
        .regular "stock.Item" none ∈ p.1.imports ∧ p.1.package = some "shop") = true := by
    decide +kernel
  obtain ⟨rfl, -⟩ := Generator.eq_of_new_ok hnew
  rw [hassemble] at hrun
  obtain ⟨hcart, hitem, hpackage⟩ := of_decide_eq_true hrun
  obtain ⟨c', hc', hfollows⟩ := ((Generation.new ⟨"shop", "Cart"⟩ javaWithHelperClass).derive none
    true).construct_follows cartAndItem
  obtain rfl : c = c' := Except.ok.inj (hc.symm.trans hc')
  obtain ⟨below, hoptimized, hplain⟩ := htexts c.generation.settings hfollows.language_eq
  have hhead : Target.packageBlock .java plain.package = "package shop;\n\n" := by
    rw [show plain.package = some "shop" from hpackage]
    decide
  refine ⟨rfl, rfl, hsets, _, c, plain, out, hnew, hc, hgenerate, hassemble, hcart, ?_, ?_, below,
    ?_, ?_⟩
  · intro hmem
    have hkept := (List.mem_filter.mp (hperm.mem_iff.mp hmem)).2
    exact absurd hkept (by decide)
  · exact hperm.mem_iff.mpr (List.mem_filter.mpr ⟨hitem, by decide⟩)
  · rw [← hhead]
    exact Except.ok.inj (hcode.symm.trans hoptimized)
  · rw [← hhead]
    exact hplain

end TestWriter
