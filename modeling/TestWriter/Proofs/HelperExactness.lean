import TestWriter.Proofs.HelperClosure
import TestWriter.Proofs.InStep

/-!
# The helpers of a class

The helpers on record are in step with the calls of the methods written so far.  Main statement: a
class that holds its helpers holds exactly those that its calls lead to, each of them once, and any
other class imports every helper that it calls.
-/

namespace TestWriter

namespace Generation

variable {g : Generation} {t : TestClass}

theorem mem_importsInOrder_iff {i : Import} :
    i ∈ g.importsInOrder t ↔ i ∈ g.config.framework.imports ∨
      ∃ x ∈ g.mentionsOfClass t, i ∈ g.importsOfMention (g.mentionsOfClass t) x := by
  simp only [importsInOrder, mem_foldl_insertLast, List.not_mem_nil, false_or, List.mem_append,
    List.mem_flatMap]

theorem mem_importsOf_iff {i : Import} :
    i ∈ g.importsOf t ↔
      i ∈ g.importsInOrder t ∧ (g.optimizeImports = true → g.inReach i = false) := by
  simp only [importsOf]
  split
  · next hoptimize => simp [Import.sort, List.mem_mergeSort, hoptimize]
  · next hoptimize => simp [hoptimize]

/-- What a mention asks for is imported or in reach. -/
theorem importsOf_of_mention {x : Mention} {i : Import} (hx : x ∈ g.mentionsOfClass t)
    (hi : i ∈ g.importsOfMention (g.mentionsOfClass t) x) :
    i ∈ g.importsOf t ∨ g.inReach i = true := by
  cases hreach : g.inReach i with
  | true => exact Or.inr rfl
  | false =>
      exact Or.inl (mem_importsOf_iff.mpr ⟨mem_importsInOrder_iff.mpr (Or.inr ⟨x, hx, hi⟩),
        fun _ => hreach⟩)

/-- Each member that a mention asks for is imported. -/
theorem member_mem_importsOf {x : Mention} {owner name : String} (hx : x ∈ g.mentionsOfClass t)
    (hi : Import.member owner name ∈ g.importsOfMention (g.mentionsOfClass t) x) :
    Import.member owner name ∈ g.importsOf t :=
  (importsOf_of_mention hx hi).resolve_right Bool.false_ne_true

end Generation

theorem Generation.importsOfMention_helper {g : Generation} (h : Helper) (mentions : List Mention)
    (hclass : g.config.inlinesHelpers = false) :
    Import.member "testsmith.runtime.utils.UtUtils" h.name ∈
      g.importsOfMention mentions (.helper h) := by
  have hname : h.nameIn g.language = h.name := by
    simp only [Generation.language]
    cases hlanguage : g.config.language <;>
      simp_all [Config.inlinesHelpers, Language.supportsHelperClass, Language.isJvm, Helper.nameIn]
  have howner : helperClassName.qualifiedName = "testsmith.runtime.utils.UtUtils" := by decide
  simp [importsOfMention, helperClass?, hclass, hname, howner]

theorem Method.filterMap_helper?_eq_nil {ms : List Method} (h : ∀ m ∈ ms, m.helper? = none) :
    ms.filterMap Method.helper? = [] := by
  rw [List.filterMap_eq_nil_iff]
  exact h

theorem Method.filterMap_helper?_ofHelper (helpers : List Helper) :
    (helpers.map Method.ofHelper).filterMap Method.helper? = helpers := by
  induction helpers with
  | nil => rfl
  | cons h rest ih => exact congrArg (h :: ·) ih

/-- A method that is no helper and calls one mentions it. -/
theorem Generation.helper_mem_mentionsOfClass {g : Generation} {c : TestClass} {m : Method}
    {h : Helper} (hm : m ∈ c.methods) (hplain : m.helper? = none) (hcall : Stmt.Call m.body h) :
    Mention.helper h ∈ g.mentionsOfClass c := by
  have hmentions : Mention.helper h ∈ m.mentions := by
    simp only [Method.mentions]
    split
    · next k hkind =>
      simp [Method.helper?, hkind] at hplain
    · exact List.mem_append_right _ hcall
  simp only [mentionsOfClass]
  refine List.mem_append_right _ (List.mem_flatMap.mpr ⟨m, hm, ?_⟩)
  exact List.mem_append_right _ hmentions

namespace Assembly

variable {config : Config} {a b : Assembly} {regions : List Region} {statics : Region}

theorem InStep.methods_of_addStatics {ms : List Method} (hinv : InStep config ms a)
    (h : addStatics a = .ok statics b) :
    statics.methods = a.providers ++
      if config.inlinesHelpers then
        (Helper.resolve config.language [] a.generation.usage.required).1.map Method.ofHelper
      else [] := by
  obtain ⟨hmethods, -⟩ := Assembly.methods_of_addStatics h
  rwa [hinv.emitted, Generation.language, hinv.config_eq] at hmethods

/-- The calls of a class are those on record. -/
theorem InStep.calls_testClass_iff (hinv : InStep config (regions.flatMap Region.methods) a)
    (h : addStatics a = .ok statics b) (k : Helper) :
    (b.generation.testClass regions statics).Calls k ↔ k ∈ a.generation.usage.required := by
  rw [← TestClass.uses_helper_iff]
  exact hinv.uses_testClass_iff h _

/-- Inline helpers are those that the helpers on record lead to. -/
theorem InStep.helpers_of_inline {ms : List Method} (hinv : InStep config ms a)
    (h : addStatics a = .ok statics b) (hinline : config.inlinesHelpers = true) :
    statics.methods.filterMap Method.helper? =
      (Helper.resolve config.language [] a.generation.usage.required).1 := by
  have hproviders : a.providers.filterMap Method.helper? = [] :=
    Method.filterMap_helper?_eq_nil fun m hm => hinv.noHelper m (List.mem_append_right _ hm)
  rw [hinv.methods_of_addStatics h, hinline, if_pos rfl, List.filterMap_append, hproviders,
    List.nil_append, Method.filterMap_helper?_ofHelper]

/-- A class without helpers of its own imports those on record. -/
theorem InStep.imports_of_separate (hinv : InStep config (regions.flatMap Region.methods) a)
    (h : addStatics a = .ok statics b) (hseparate : config.inlinesHelpers = false) :
    (b.generation.testClass regions statics).methods.filterMap Method.helper? = [] ∧
      ∀ k ∈ a.generation.usage.required,
        Import.member "testsmith.runtime.utils.UtUtils" k.name ∈
          b.generation.importsOf (b.generation.testClass regions statics) := by
  have hmethods := hinv.methods_of_addStatics h
  rw [hseparate, if_neg Bool.false_ne_true, List.append_nil] at hmethods
  have hall : (b.generation.testClass regions statics).methods =
      regions.flatMap Region.methods ++ a.providers := by
    rw [← hmethods]
    rfl
  refine ⟨Method.filterMap_helper?_eq_nil ?_, ?_⟩
  · intro m hm
    exact hinv.noHelper m (hall ▸ hm)
  · intro k hk
    obtain ⟨m, hm, hbody⟩ := (hinv.required k).mp hk
    have hmention := Generation.helper_mem_mentionsOfClass (g := b.generation) (hall ▸ hm)
      (hinv.noHelper m hm) hbody
    refine Generation.member_mem_importsOf hmention (Generation.importsOfMention_helper k _ ?_)
    rw [(Assembly.methods_of_addStatics h).2, hinv.config_eq]
    exact hseparate

end Assembly

/-- The helpers of a class are exact.  Every helper that the code calls is one that the language has.
A class that holds its helpers holds those that the calls lead to, each once and none besides; any
other class holds no helper and imports each one that it calls. -/
theorem helpers_are_exact (g : Generation) (customName : Option String) (optimize : Bool)
    (sets : List TestSet) :
    ∃ c, (g.derive customName optimize).construct sets = .ok c ∧
      (∀ h, c.file.testClass.Calls h → h.supported g.language = true) ∧
      (c.file.testClass.regions.flatMap Region.methods).filterMap Method.helper? = [] ∧
      (g.config.inlinesHelpers = true →
        (c.file.testClass.statics.methods.filterMap Method.helper?).Nodup ∧
        ∀ h, h ∈ c.file.testClass.statics.methods.filterMap Method.helper? ↔
          ∃ k, c.file.testClass.Calls k ∧ Helper.Reaches g.language [] k h) ∧
      (g.config.inlinesHelpers = false →
        c.file.testClass.methods.filterMap Method.helper? = [] ∧
        ∀ h, c.file.testClass.Calls h →
          Import.member "testsmith.runtime.utils.UtUtils" h.name ∈ c.file.imports) := by
  obtain ⟨regions, a, hsets, hinv⟩ := (Assembly.inStep_invariant g.config).addSets
    (Assembly.InStep.start (g.derive customName optimize) rfl rfl) sets
  rw [List.nil_append] at hinv
  obtain ⟨statics, b, hstatics, hconstruct⟩ := Generation.construct_eq hsets
  have hcalls := hinv.calls_testClass_iff hstatics
  refine ⟨_, hconstruct, ?_, ?_, ?_, ?_⟩
  · intro h hcall
    exact hinv.supported h ((hinv.required h).mp ((hcalls h).mp hcall))
  · apply Method.filterMap_helper?_eq_nil
    intro m hm
    exact hinv.noHelper m (List.mem_append_left _ hm)
  · intro hinline
    change (statics.methods.filterMap _).Nodup ∧ ∀ h, h ∈ statics.methods.filterMap _ ↔ _
    rw [hinv.helpers_of_inline hstatics hinline]
    refine ⟨Helper.nodup_resolve _ _ _, ?_⟩
    intro h
    rw [Helper.mem_resolve_iff]
    apply exists_congr
    intro k
    exact and_congr_left fun _ => (hcalls k).symm
  · intro hseparate
    obtain ⟨hnone, himports⟩ := hinv.imports_of_separate hstatics hseparate
    refine ⟨hnone, ?_⟩
    intro h hcall
    exact himports h ((hcalls h).mp hcall)

end TestWriter
