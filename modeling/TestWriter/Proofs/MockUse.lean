import TestWriter.HelperClass
import TestWriter.Proofs.HelperExactness

/-!
# The mock objects of a class

Whether mock objects are in use is recorded while the code is written, and the annotations of the
class and the helper class that it needs are settled from this record afterwards.  Main statement:
the record, the extension that creates mock objects and the kind of the helper class all agree with
the code, and test classes that share a helper class get the strongest kind that one of them needs.
-/

namespace TestWriter

/-- The annotation that has mock objects created. -/
def mockitoExtension : AnnotationUse :=
  (AnnotationUse.marker "org.junit.jupiter.api.extension" "ExtendWith").withValue
    (.classOf ⟨"org.mockito.junit.jupiter", "MockitoExtension"⟩)

/-- The code of a class creates a mock object or mocks static methods. -/
def TestClass.Mocks (c : TestClass) : Prop := c.Uses .mocks

/-- What is settled about mock objects and helper classes agrees with the code of a class. -/
structure Construction.KeepsBooks (config : Config) (c : Construction) : Prop where
  record : c.generation.usage.mocks = true ↔ c.file.testClass.Mocks
  extension : mockitoExtension ∈ c.file.testClass.annotations ↔
    c.file.testClass.Mocks ∧ config.language.isJvm = true ∧ config.framework = .junit5
  noHelperClass : HelperClass.ofGeneration? c.generation = none ↔
    config.inlinesHelpers = true ∨ ¬∃ h, c.file.testClass.Calls h
  mockingHelperClass : HelperClass.ofGeneration? c.generation = some (.withMocks config.mockLibrary) ↔
    config.inlinesHelpers = false ∧ (∃ h, c.file.testClass.Calls h) ∧ c.file.testClass.Mocks
  plainHelperClass : HelperClass.ofGeneration? c.generation = some .plain ↔
    config.inlinesHelpers = false ∧ (∃ h, c.file.testClass.Calls h) ∧ ¬c.file.testClass.Mocks

namespace HelperClass

/-- A need is the strongest of some: it is one of them, or none is, and no other offers more. -/
structure IsStrongest (needs : List (Option HelperClass)) (best : Option HelperClass) : Prop where
  mem : best ∈ needs ∨ needs = [] ∧ best = none
  strength_le : ∀ need ∈ needs, strength need ≤ strength best

theorem strength_injective {a b : Option HelperClass} (h : strength a = strength b) : a = b := by
  cases a with
  | none =>
      cases b with
      | none => rfl
      | some k => cases k <;> cases h
  | some j =>
      cases b with
      | none => cases j <;> cases h
      | some k =>
          cases j with
          | plain =>
              cases k with
              | plain => rfl
              | withMocks library => cases h
          | withMocks library =>
              cases k with
              | plain => cases h
              | withMocks library' =>
                  cases library
                  cases library'
                  rfl

/-- The stronger of two needs, the second one if they are equally strong. -/
def stronger (best need : Option HelperClass) : Option HelperClass :=
  if strength best ≤ strength need then need else best

theorem stronger_cases (best need : Option HelperClass) :
    stronger best need = best ∨ stronger best need = need := by
  simp only [stronger]
  split
  · exact Or.inr rfl
  · exact Or.inl rfl

theorem strength_stronger (best need : Option HelperClass) :
    strength (stronger best need) = max (strength best) (strength need) := by
  simp only [stronger]
  split <;> omega

theorem strength_foldl_stronger (needs : List (Option HelperClass)) (best : Option HelperClass) :
    ∀ need ∈ best :: needs, strength need ≤ strength (needs.foldl stronger best) := by
  induction needs generalizing best with
  | nil => simp
  | cons first rest ih =>
      have hfirst := ih (stronger best first) _ List.mem_cons_self
      rw [strength_stronger] at hfirst
      intro need hneed
      rw [List.foldl_cons]
      simp only [List.mem_cons] at hneed
      rcases hneed with rfl | rfl | hneed
      · omega
      · omega
      · exact ih _ need (List.mem_cons_of_mem _ hneed)

theorem foldl_stronger_mem (needs : List (Option HelperClass)) (best : Option HelperClass) :
    needs.foldl stronger best ∈ best :: needs := by
  induction needs generalizing best with
  | nil => exact List.mem_singleton.mpr rfl
  | cons first rest ih =>
      rw [List.foldl_cons]
      rcases List.mem_cons.mp (ih (stronger best first)) with hmem | hmem
      · rw [hmem]
        rcases stronger_cases best first with hsame | hsame <;> simp [hsame]
      · simp [hmem]

theorem isStrongest_combine (needs : List (Option HelperClass)) :
    IsStrongest needs (combine needs) := by
  have hle := strength_foldl_stronger needs none
  refine ⟨?_, fun need hneed => hle need (List.mem_cons_of_mem _ hneed)⟩
  rcases List.mem_cons.mp (foldl_stronger_mem needs none) with hnone | hmem
  · cases needs with
    | nil => exact Or.inr ⟨rfl, rfl⟩
    | cons first rest =>
        -- When nothing is needed, the first need is as strong as the result.
        left
        have hfirst := hle first (by simp)
        rw [hnone] at hfirst
        have hsame : combine (first :: rest) = first := by
          apply strength_injective
          change strength ((first :: rest).foldl stronger none) = _
          rw [hnone]
          exact (Nat.le_zero.mp hfirst).symm
        rw [hsame]
        exact List.mem_cons_self
  · exact Or.inl hmem

example : combine [none, some (.withMocks .mockito), some .plain] = some (.withMocks .mockito) := by
  decide

/-- There is one strongest need, whatever the order. -/
theorem combine_perm {needs needs' : List (Option HelperClass)} (h : needs.Perm needs') :
    combine needs = combine needs' := by
  obtain ⟨hmem, hle⟩ := isStrongest_combine needs
  obtain ⟨hmem', hle'⟩ := isStrongest_combine needs'
  rcases hmem with hmem | ⟨rfl, -⟩
  · rcases hmem' with hmem' | ⟨rfl, -⟩
    · apply strength_injective
      have hfirst := hle _ (h.mem_iff.mpr hmem')
      have hthen := hle' _ (h.mem_iff.mp hmem)
      omega
    · rw [h.eq_nil]
  · rw [h.symm.eq_nil]

section

variable {g : Generation}

theorem ofGeneration?_eq_none_iff :
    ofGeneration? g = none ↔ g.config.inlinesHelpers = true ∨ g.usage.required = [] := by
  cases hinline : g.config.inlinesHelpers <;> cases hrequired : g.usage.required <;>
    cases hmocks : g.usage.mocks <;> simp [ofGeneration?, hinline, hrequired, hmocks]

theorem ofGeneration?_eq_withMocks_iff {library : MockLibrary} :
    ofGeneration? g = some (.withMocks library) ↔
      g.config.inlinesHelpers = false ∧ g.usage.required ≠ [] ∧ g.usage.mocks = true := by
  cases library
  cases hinline : g.config.inlinesHelpers <;> cases hrequired : g.usage.required <;>
    cases hmocks : g.usage.mocks <;> simp [ofGeneration?, hinline, hrequired, hmocks]

theorem ofGeneration?_eq_plain_iff :
    ofGeneration? g = some .plain ↔
      g.config.inlinesHelpers = false ∧ g.usage.required ≠ [] ∧ g.usage.mocks = false := by
  cases hinline : g.config.inlinesHelpers <;> cases hrequired : g.usage.required <;>
    cases hmocks : g.usage.mocks <;> simp [ofGeneration?, hinline, hrequired, hmocks]

end

end HelperClass

theorem Generation.mockitoExtension_mem_iff {g : Generation} :
    mockitoExtension ∈ g.extensionAnnotations ↔
      g.usage.mocks = true ∧ g.language.isJvm = true ∧ g.config.framework = .junit5 := by
  have hlibrary : g.config.mockLibrary = .mockito := by
    cases g.config.mockLibrary
    rfl
  simp only [extensionAnnotations, hlibrary]
  split
  · next hall => simp_all [mockitoExtension]
  · next hall => simp_all

namespace Assembly

variable {a b : Assembly} {regions : List Region} {statics : Region}

/-- The helpers that the class holds come on record only where there is a call of a helper. -/
theorem usage_of_addStatics (h : addStatics a = .ok statics b) :
    b.generation.usage.mocks = a.generation.usage.mocks ∧
      (b.generation.usage.required = [] ↔ a.generation.usage.required = []) := by
  cases h
  refine ⟨rfl, ?_⟩
  constructor
  · intro hempty
    apply List.eq_nil_iff_forall_not_mem.mpr
    intro k hk
    apply List.not_mem_nil (a := k)
    rw [← hempty]
    exact (mem_foldl_insertLast _ _).mpr (Or.inl hk)
  · intro hempty
    simp [hempty, Helper.resolve]

theorem InStep.keepsBooks {config : Config}
    (hinv : InStep config (regions.flatMap Region.methods) a) (h : addStatics a = .ok statics b) :
    (b.finish regions statics).KeepsBooks config := by
  obtain ⟨hmocks, hrequired⟩ := usage_of_addStatics h
  have hconfig : b.generation.config = config :=
    (Assembly.methods_of_addStatics h).2.trans hinv.config_eq
  have hflag : b.generation.usage.mocks = true ↔ (b.generation.testClass regions statics).Mocks := by
    rw [hmocks]
    exact (hinv.uses_testClass_iff h .mocks).symm
  have hcalls : b.generation.usage.required ≠ [] ↔
      ∃ k, (b.generation.testClass regions statics).Calls k := by
    rw [Ne, hrequired, List.eq_nil_iff_forall_not_mem, Classical.not_forall_not]
    exact exists_congr fun k => (hinv.calls_testClass_iff h k).symm
  have hcalls' : b.generation.usage.required = [] ↔
      ¬∃ k, (b.generation.testClass regions statics).Calls k := by
    rw [← hcalls, Classical.not_not]
  have hflag' : b.generation.usage.mocks = false ↔
      ¬(b.generation.testClass regions statics).Mocks := by
    rw [← hflag, Bool.not_eq_true]
  constructor
  · exact hflag
  · change mockitoExtension ∈ b.generation.extensionAnnotations ↔ _
    rw [Generation.mockitoExtension_mem_iff, hflag, Generation.language, hconfig]
    rfl
  · rw [HelperClass.ofGeneration?_eq_none_iff]
    change b.generation.config.inlinesHelpers = true ∨ b.generation.usage.required = [] ↔ _
    rw [hconfig, hcalls']
    rfl
  · rw [HelperClass.ofGeneration?_eq_withMocks_iff]
    change b.generation.config.inlinesHelpers = false ∧ b.generation.usage.required ≠ [] ∧
      b.generation.usage.mocks = true ↔ _
    rw [hconfig, hcalls, hflag]
    rfl
  · rw [HelperClass.ofGeneration?_eq_plain_iff]
    change b.generation.config.inlinesHelpers = false ∧ b.generation.usage.required ≠ [] ∧
      b.generation.usage.mocks = false ↔ _
    rw [hconfig, hcalls, hflag']
    rfl

end Assembly

/-- The books on mock objects are exact.  A class that was built creates mock objects or mocks static
methods exactly when this is on record, it has the extension exactly when the framework needs it, it
asks for a helper class exactly when it calls a helper that it does not hold, and classes that share
a helper class get the strongest one that any of them asks for. -/
theorem mock_bookkeeping_is_exact :
    (∀ (g : Generation) (customName : Option String) (optimize : Bool) (sets : List TestSet),
      ∃ c, (g.derive customName optimize).construct sets = .ok c ∧ c.KeepsBooks g.config) ∧
    ∀ gs : List Generation,
      HelperClass.IsStrongest (gs.map HelperClass.ofGeneration?)
        (HelperClass.combine (gs.map HelperClass.ofGeneration?)) ∧
      ∀ gs', gs.Perm gs' → HelperClass.combine (gs.map HelperClass.ofGeneration?) =
        HelperClass.combine (gs'.map HelperClass.ofGeneration?) := by
  constructor
  · intro g customName optimize sets
    obtain ⟨regions, a, hsets, hinv⟩ := (Assembly.inStep_invariant g.config).addSets
      (Assembly.InStep.start (g.derive customName optimize) rfl rfl) sets
    rw [List.nil_append] at hinv
    obtain ⟨statics, b, hstatics, hconstruct⟩ := Generation.construct_eq hsets
    exact ⟨_, hconstruct, hinv.keepsBooks hstatics⟩
  · intro gs
    refine ⟨HelperClass.isStrongest_combine _, ?_⟩
    intro gs' hperm
    exact HelperClass.combine_perm (hperm.map _)

end TestWriter
