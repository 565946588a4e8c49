import Mathlib.Data.List.Forall2
import TestWriter.Proofs.Regions

/-!
# What sets contribute

Where each run has its own test, a set contributes the tests of the runs that can be written, in the
order of the runs, and then the list of its errors if there are any.  Main statement: the methods of
the regions are the contributions of the sets, one after the other.
-/

namespace TestWriter

/-- A method is the test of a run: it is built from the run in some state of a generation with the
configuration. -/
def Execution.Writes (run : Execution) (config : Config) (e : Executable) (m : Method) : Prop :=
  ∃ g g', g.config = config ∧ run.toTest e g = .ok m g'

/-- A method lists errors of an executable. -/
def Method.Lists (m : Method) (e : Executable) : Prop :=
  ∃ name errors, m = Assembly.errorListing name e errors

/-- The runs of a set that can be written as tests. -/
def TestSet.writable (set : TestSet) (config : Config) : List Execution :=
  set.executions.filter fun run => !run.fails config set.executable

theorem TestSet.writable_of_isEmpty {set : TestSet} (h : set.executions.isEmpty = true)
    (config : Config) : set.writable config = [] := by
  rw [writable, List.isEmpty_iff.mp h]
  rfl

/-- Methods are what a set contributes: the tests of its writable runs, and lists of errors. -/
def TestSet.Contributes (set : TestSet) (config : Config) (ms : List Method) : Prop :=
  ∃ tests listings, ms = tests ++ listings ∧
    List.Forall₂ (fun run m => run.Writes config set.executable m) (set.writable config) tests ∧
    ∀ m ∈ listings, m.Lists set.executable

namespace Assembly

open Region (methodsOf)

variable {a : Assembly} {config : Config} {e : Executable}

/-- Runs write the tests of those that can be written. -/
theorem addRuns_writes (hconfig : a.generation.config = config)
    (hcur : a.generation.current = some e) (runs : List Execution) :
    ∃ ms b, addRuns e runs a = .ok ms b ∧ b.generation.config = config ∧
      b.providers = a.providers ∧ List.Forall₂ (fun run m => run.Writes config e m)
        (runs.filter fun run => !run.fails config e) ms := by
  induction runs generalizing a with
  | nil => exact ⟨[], a, rfl, hconfig, rfl, .nil⟩
  | cons run rest ih =>
      obtain ⟨m, b, hrun, hb, hcur'⟩ := addRun_ok hcur run
      obtain ⟨ms, c, hrest, hc, hproviders, hall⟩ := ih (hb.trans hconfig) hcur'
      refine ⟨_, c, addRuns_cons_eq hrun hrest, hc, hproviders.trans ?_, ?_⟩
      all_goals rcases addRun_cases hcur run with ⟨ho, k, g, htest, heq⟩ | ⟨cause, ho, heq⟩
      all_goals
        rw [hrun] at heq
        cases heq
        rw [hconfig] at ho
      · exact providers_tested a _ k g
      · exact providers_counted a _ e _
      · rw [List.filter_cons_of_pos (by simp [Execution.fails, ho])]
        exact .cons ⟨_, g, hconfig, htest⟩ hall
      · rw [List.filter_cons_of_neg (by simp [Execution.fails, ho])]
        exact hall

/-- The methods in the region of a set are its contribution. -/
theorem addSet_contributes (hplain : config.isParameterized = false)
    (hconfig : a.generation.config = config) (set : TestSet) :
    ∃ r b, addSet set a = .ok r b ∧ b.generation.config = config ∧ b.providers = a.providers ∧
      set.Contributes config (r.toList.flatMap Region.methods) := by
  obtain ⟨ms, b, hruns, hb, hproviders, hall⟩ :=
    addRuns_writes (a := a.entered set.executable) hconfig rfl set.executions
  obtain ⟨items, hitems, hmethods⟩ := addGroups_groups rfl hruns
  have htests : addTests set (a.entered set.executable) = .ok items b := by
    have hfalse : (a.entered set.executable).generation.config.isParameterized = false :=
      (congrArg Config.isParameterized hconfig).trans hplain
    simp only [addTests]
    rw [hfalse]
    exact hitems
  have herrors : ∃ more c, addErrors set b = .ok more c ∧ c.generation.config = config ∧
      c.providers = b.providers ∧ ∀ m ∈ methodsOf more, m.Lists set.executable := by
    rcases addErrors_cases set b with ⟨-, heq⟩ | ⟨-, more, hlisting, heq⟩
    · exact ⟨[], b, heq, hb, rfl, List.forall_mem_nil _⟩
    · refine ⟨more, _, heq, hb, rfl, ?_⟩
      rw [hlisting]
      exact List.forall_mem_singleton.mpr ⟨_, _, rfl⟩
  obtain ⟨more, c, hmore, hc, hproviders', hlists⟩ := herrors
  obtain ⟨r, hr, hregion⟩ := addSet_eq htests hmore
  refine ⟨r, _, hr, hc, hproviders'.trans hproviders, ms, methodsOf more, ?_, hall, hlists⟩
  rw [hregion, Region.methodsOf_append, hmethods]

theorem addCovered_contributes (hplain : config.isParameterized = false)
    (hconfig : a.generation.config = config) (set : TestSet) :
    ∃ r b, addCovered set a = .ok r b ∧ b.generation.config = config ∧
      b.providers = a.providers ∧ set.Contributes config (r.toList.flatMap Region.methods) := by
  simp only [addCovered]
  split
  · next hempty =>
    refine ⟨none, a, rfl, hconfig, rfl, [], [], rfl, ?_, List.forall_mem_nil _⟩
    rw [TestSet.writable_of_isEmpty hempty]
    exact .nil
  · exact addSet_contributes hplain hconfig set

/-- The methods of the regions are the contributions of the sets, which add no data providers. -/
theorem addSets_contributes (hplain : config.isParameterized = false)
    (hconfig : a.generation.config = config) (sets : List TestSet) :
    ∃ regions b parts, addSets sets a = .ok regions b ∧ b.providers = a.providers ∧
      regions.flatMap Region.methods = parts.flatten ∧
      List.Forall₂ (fun set part => set.Contributes config part) sets parts := by
  induction sets generalizing a with
  | nil => exact ⟨[], a, [], rfl, rfl, rfl, .nil⟩
  | cons set rest ih =>
      obtain ⟨r, b, hr, hb, hproviders, hpart⟩ := addCovered_contributes hplain hconfig set
      obtain ⟨regions, c, parts, hregions, hproviders', hmethods, hparts⟩ := ih hb
      refine ⟨_, c, _ :: parts, addSets_cons_eq hr hregions, hproviders'.trans hproviders, ?_,
        .cons hpart hparts⟩
      rw [List.flatMap_append, hmethods, List.flatten_cons]

end Assembly

/-- The methods in the regions of a class are the contributions of the sets. -/
theorem Generation.construct_contributes {g : Generation}
    (hplain : g.config.isParameterized = false) (sets : List TestSet) :
    ∃ c parts, g.construct sets = .ok c ∧
      c.file.testClass.regions.flatMap Region.methods = parts.flatten ∧
      List.Forall₂ (fun set part => set.Contributes g.config part) sets parts := by
  obtain ⟨regions, a, parts, hsets, -, hmethods, hparts⟩ :=
    Assembly.addSets_contributes hplain (a := .start g) rfl sets
  obtain ⟨statics, b, -, hconstruct⟩ := construct_eq hsets
  exact ⟨_, parts, hconstruct, hmethods, hparts⟩

section

variable {α β : Type} {R : α → β → Prop} {xs : List α} {ys : List β}

theorem exists_right_of_forall₂ (h : List.Forall₂ R xs ys) {x : α} (hx : x ∈ xs) :
    ∃ y ∈ ys, R x y := by
  induction h with
  | nil => cases hx
  | cons hfirst _ ih =>
      rcases List.mem_cons.mp hx with rfl | hx
      · exact ⟨_, List.mem_cons_self, hfirst⟩
      · obtain ⟨y, hy, hR⟩ := ih hx
        exact ⟨y, List.mem_cons_of_mem _ hy, hR⟩

theorem exists_left_of_forall₂ (h : List.Forall₂ R xs ys) {y : β} (hy : y ∈ ys) :
    ∃ x ∈ xs, R x y :=
  exists_right_of_forall₂ h.flip hy

end

section

variable {config : Config} {sets : List TestSet} {parts : List (List Method)}
  (h : List.Forall₂ (fun set part => set.Contributes config part) sets parts)

include h

/-- A contributed method is the test of a writable run or lists errors. -/
theorem TestSet.cases_of_contributes {m : Method} (hm : m ∈ parts.flatten) :
    ∃ set ∈ sets, (∃ run ∈ set.writable config, run.Writes config set.executable m) ∨
      m.Lists set.executable := by
  obtain ⟨part, hpart, hm⟩ := List.mem_flatten.mp hm
  obtain ⟨set, hset, tests, listings, rfl, htests, hlistings⟩ := exists_left_of_forall₂ h hpart
  refine ⟨set, hset, ?_⟩
  rcases List.mem_append.mp hm with hm | hm
  · exact Or.inl (exists_left_of_forall₂ htests hm)
  · exact Or.inr (hlistings m hm)

/-- Every writable run has its test. -/
theorem TestSet.exists_test_of_contributes {set : TestSet} (hset : set ∈ sets) {run : Execution}
    (hrun : run ∈ set.writable config) :
    ∃ m ∈ parts.flatten, run.Writes config set.executable m := by
  obtain ⟨part, hpart, tests, listings, rfl, htests, -⟩ := exists_right_of_forall₂ h hset
  obtain ⟨m, hm, hwrites⟩ := exists_right_of_forall₂ htests hrun
  exact ⟨m, List.mem_flatten.mpr ⟨_, hpart, List.mem_append_left _ hm⟩, hwrites⟩

end

end TestWriter
