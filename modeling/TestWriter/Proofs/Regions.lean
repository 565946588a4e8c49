import TestWriter.Proofs.Groups
import TestWriter.Proofs.Recovery

/-!
# Regions of test sets

The region of a test set holds the tests of its runs in the order of the runs, whatever the groups,
or its parameterized test, and then the list of its errors.  Main statements: the groups of a set
write the tests that its runs write one after the other; what the steps of a class in the making
keep holds of the class and of all its methods after any test sets; and no test set ends the
generation.
-/

namespace TestWriter

theorem Region.methodsOf_append (items more : List RegionItem) :
    methodsOf (items ++ more) = methodsOf items ++ methodsOf more := by
  induction items with
  | nil => rfl
  | cons item rest ih =>
      cases item with
      | region r => simp only [List.cons_append, methodsOf, ih, List.append_assoc]
      | method m => simp only [List.cons_append, methodsOf, ih]

theorem Region.methodsOf_map_method (ms : List Method) :
    methodsOf (ms.map RegionItem.method) = ms := by
  induction ms with
  | nil => rfl
  | cons m rest ih => simp only [List.map_cons, methodsOf, ih]

namespace Assembly

open Region (methodsOf methodsOf_append methodsOf_map_method)

variable {a b c : Assembly} {e : Executable} {set : TestSet}

theorem methodsOf_groupItems (summary : Option ClusterNote) (tests : List Method) :
    methodsOf (groupItems summary tests) = tests := by
  simp only [groupItems]
  cases summary with
  | none => exact methodsOf_map_method tests
  | some s =>
      dsimp only
      split
      · exact methodsOf_map_method tests
      · simp only [methodsOf, Region.methods, methodsOf_map_method, List.append_nil]

/-! ## Runs -/

theorem addRuns_cons_eq {run : Execution} {rest : List Execution} {m : Option Method}
    {ms : List Method} (h : addRun e run a = .ok m b) (hrest : addRuns e rest b = .ok ms c) :
    addRuns e (run :: rest) a = .ok (m.toList ++ ms) c :=
  Build.bind_eq_ok.mpr ⟨m, b, h, Build.bind_eq_ok.mpr ⟨ms, c, hrest, rfl⟩⟩

theorem addRuns_append_eq {runs more : List Execution} {ms ns : List Method}
    (h : addRuns e runs a = .ok ms b) (hmore : addRuns e more b = .ok ns c) :
    addRuns e (runs ++ more) a = .ok (ms ++ ns) c := by
  induction runs generalizing a ms with
  | nil =>
      obtain ⟨rfl, rfl⟩ := Build.pure_eq_ok.mp h
      exact hmore
  | cons run rest ih =>
      obtain ⟨m, a', hrun, h⟩ := Build.bind_eq_ok.mp h
      obtain ⟨ks, b', hrest, h⟩ := Build.bind_eq_ok.mp h
      obtain ⟨rfl, rfl⟩ := Build.pure_eq_ok.mp h
      rw [List.append_assoc]
      exact addRuns_cons_eq hrun (ih hrest)

/-- The configuration and the executable stay the same while a run is written or counted. -/
theorem addRun_ok (hcur : a.generation.current = some e) (run : Execution) :
    ∃ m b, addRun e run a = .ok m b ∧ b.generation.config = a.generation.config ∧
      b.generation.current = some e := by
  rcases addRun_cases hcur run with ⟨-, m, g, h, heq⟩ | ⟨cause, -, heq⟩
  · have hg := Execution.restore_of_toTest_ok h
    have hconfig := congrArg Generation.config hg
    have hcurrent := congrArg Generation.current hg
    exact ⟨some m, _, heq, hconfig, hcurrent.trans hcur⟩
  · exact ⟨none, _, heq, rfl, hcur⟩

theorem addRuns_ok (hcur : a.generation.current = some e) (runs : List Execution) :
    ∃ ms b, addRuns e runs a = .ok ms b ∧ b.generation.config = a.generation.config ∧
      b.generation.current = some e := by
  induction runs generalizing a with
  | nil => exact ⟨[], a, rfl, rfl, hcur⟩
  | cons run rest ih =>
      obtain ⟨m, b, hrun, hconfig, hb⟩ := addRun_ok hcur run
      obtain ⟨ms, c, hrest, hconfig', hc⟩ := ih hb
      exact ⟨_, c, addRuns_cons_eq hrun hrest, hconfig'.trans hconfig, hc⟩

/-- Groups of runs write what their runs write one after the other. -/
theorem addGroups_of_addRuns (hcur : a.generation.current = some e) (groups : List Group)
    {ms : List Method} (h : addRuns e (groups.flatMap Group.executions) a = .ok ms b) :
    ∃ items, addGroups e groups a = .ok items b ∧ methodsOf items = ms := by
  induction groups generalizing a ms with
  | nil =>
      obtain ⟨rfl, rfl⟩ := Build.pure_eq_ok.mp h
      exact ⟨[], rfl, rfl⟩
  | cons g rest ih =>
      obtain ⟨tests, a', hg, -, hcur'⟩ := addRuns_ok hcur g.executions
      obtain ⟨ns, b', hrest, -, -⟩ := addRuns_ok hcur' (rest.flatMap Group.executions)
      have happend := addRuns_append_eq hg hrest
      rw [List.flatMap_cons, happend] at h
      injection h with hms hb
      subst hb
      obtain ⟨items, hitems, hmethods⟩ := ih hcur' hrest
      refine ⟨groupItems g.summary tests ++ items, ?_, ?_⟩
      · exact Build.bind_eq_ok.mpr ⟨tests, a', hg, Build.bind_eq_ok.mpr ⟨items, b', hitems, rfl⟩⟩
      · rw [methodsOf_append, methodsOf_groupItems, hmethods, hms]

/-- The groups of a test set write what its runs write one after the other. -/
theorem addGroups_groups (hcur : a.generation.current = some e) {ms : List Method}
    (h : addRuns e set.executions a = .ok ms b) :
    ∃ items, addGroups e set.groups a = .ok items b ∧ methodsOf items = ms :=
  addGroups_of_addRuns hcur set.groups (by rw [set.flatMap_groups]; exact h)

/-! ## Sets -/

/-- The class in the making while a set is processed. -/
def entered (a : Assembly) (e : Executable) : Assembly :=
  { a with generation := a.generation.enter e }

/-- The class in the making after a set was processed. -/
def left (a : Assembly) : Assembly := { a with generation := a.generation.leave }

/-- The class in the making after errors were listed. -/
def listed (a : Assembly) (e : Executable) (errors : ErrorCounts) : Assembly :=
  { a with
    generation := { a.generation with
      usage := { a.generation.usage with
        names := (a.generation.usage.names.errorReport e).2 } }
    report := a.report.addErrors e errors }

/-- The method that lists errors. -/
def listing (a : Assembly) (e : Executable) (errors : ErrorCounts) : Method :=
  errorListing (a.generation.usage.names.errorReport e).1 e errors

/-- The methods after errors were listed are the listing and the methods before. -/
theorem mem_listed_iff {ms : List Method} {k : Method} (a : Assembly) (e : Executable)
    (errors : ErrorCounts) : k ∈ ms ++ [a.listing e errors] ++ (a.listed e errors).providers ↔
      k ∈ ms ++ a.providers ∨ k ∈ [a.listing e errors] := by
  simp only [listed, List.mem_append]
  exact or_right_comm

/-- The errors of a set are listed if there are any. -/
theorem addErrors_cases (set : TestSet) (a : Assembly) :
    ((a.errorsOf set).isEmpty = true ∧ addErrors set a = .ok [] a) ∨
    ((a.errorsOf set).isEmpty = false ∧
      ∃ items, methodsOf items = [a.listing set.executable (a.errorsOf set)] ∧
        addErrors set a = .ok items (a.listed set.executable (a.errorsOf set))) := by
  by_cases h : (a.errorsOf set).isEmpty = true
  · exact Or.inl ⟨h, if_pos h⟩
  · exact Or.inr ⟨by simpa using h, _, rfl, if_neg h⟩

theorem addSet_eq {items more : List RegionItem}
    (h : addTests set (a.entered set.executable) = .ok items b)
    (hmore : addErrors set b = .ok more c) :
    ∃ r, addSet set a = .ok r c.left ∧
      r.toList.flatMap Region.methods = methodsOf (items ++ more) := by
  refine ⟨_, Build.bind_eq_ok.mpr ⟨(), _, rfl, Build.bind_eq_ok.mpr ⟨items, b, h,
    Build.bind_eq_ok.mpr ⟨more, c, hmore, rfl⟩⟩⟩, ?_⟩
  cases items ++ more with
  | nil => rfl
  | cons item rest => simp [Region.methods]

theorem addSets_cons_eq {rest : List TestSet} {r : Option Region} {regions : List Region}
    (h : addCovered set a = .ok r b) (hrest : addSets rest b = .ok regions c) :
    addSets (set :: rest) a = .ok (r.toList ++ regions) c :=
  Build.bind_eq_ok.mpr ⟨r, b, h, Build.bind_eq_ok.mpr ⟨regions, c, hrest, rfl⟩⟩

/-! ## Invariants -/

/-- A property of a class in the making and of the methods of its regions that every step keeps. -/
structure Invariant (I : List Method → Assembly → Prop) : Prop where
  enter : ∀ {ms a} (e : Executable), I ms a → I ms (a.entered e)
  leave : ∀ {ms a}, I ms a → I ms a.left
  tested : ∀ {ms a} {run : Execution} {e : Executable} {m g} (w : Option String), I ms a →
    a.generation.config.isParameterized = false →
    run.toTest e a.generation = .ok m g → I (ms ++ [m]) (a.tested w m g)
  tabled : ∀ {ms a} {set : TestSet} {t g} (w : Option String), I ms a →
    set.toTable a.generation = .ok t g → I (ms ++ [t.test]) (a.tabled w t g)
  counted : ∀ {ms a} {e : Executable} (w : Option String) (cause : BuildFailure), I ms a →
    a.generation.current = some e → I ms (a.counted w e cause.message)
  listed : ∀ {ms a} (e : Executable) (errors : ErrorCounts), I ms a →
    I (ms ++ [a.listing e errors]) (a.listed e errors)

namespace Invariant

variable {I : List Method → Assembly → Prop} {ms : List Method}

theorem addRun (hI : Invariant I) (hcur : a.generation.current = some e)
    (hplain : a.generation.config.isParameterized = false) (ha : I ms a) (run : Execution) :
    ∃ m b, Assembly.addRun e run a = .ok m b ∧ I (ms ++ m.toList) b := by
  rcases addRun_cases hcur run with ⟨-, m, g, h, heq⟩ | ⟨cause, -, heq⟩
  · exact ⟨some m, _, heq, hI.tested _ ha hplain h⟩
  · refine ⟨none, _, heq, ?_⟩
    rw [Option.toList_none, List.append_nil]
    exact hI.counted _ cause ha hcur

theorem addRuns (hI : Invariant I) (hcur : a.generation.current = some e)
    (hplain : a.generation.config.isParameterized = false) (ha : I ms a)
    (runs : List Execution) :
    ∃ ns b, Assembly.addRuns e runs a = .ok ns b ∧ I (ms ++ ns) b := by
  induction runs generalizing a ms with
  | nil => exact ⟨[], a, rfl, by simpa using ha⟩
  | cons run rest ih =>
      obtain ⟨m, b, hrun, hb⟩ := hI.addRun hcur hplain ha run
      obtain ⟨m', b', hrun', hconfig, hcur'⟩ := addRun_ok hcur run
      rw [hrun] at hrun'
      cases hrun'
      obtain ⟨ns, c, hrest, hc⟩ := ih hcur' (by rw [hconfig, hplain]) hb
      exact ⟨_, c, addRuns_cons_eq hrun hrest, by simpa using hc⟩

theorem addTests (hI : Invariant I) (hcur : a.generation.current = some set.executable)
    (ha : I ms a) :
    ∃ items b, Assembly.addTests set a = .ok items b ∧
      I (ms ++ methodsOf items) b := by
  simp only [Assembly.addTests]
  cases hconfig : a.generation.config.isParameterized with
  | true =>
      rw [if_pos rfl]
      rcases addTable_cases hcur with ⟨-, t, g, h, heq⟩ | ⟨cause, -, heq⟩
      · exact ⟨_, _, heq, hI.tabled _ ha h⟩
      · refine ⟨_, _, heq, ?_⟩
        rw [methodsOf, List.append_nil]
        exact hI.counted _ cause ha hcur
  | false =>
      rw [if_neg Bool.false_ne_true]
      obtain ⟨ns, b, hruns, hb⟩ := hI.addRuns hcur hconfig ha set.executions
      obtain ⟨items, hitems, hmethods⟩ := addGroups_groups hcur hruns
      exact ⟨items, b, hitems, by rw [hmethods]; exact hb⟩

theorem addErrors (hI : Invariant I) (ha : I ms a) (set : TestSet) :
    ∃ items b, Assembly.addErrors set a = .ok items b ∧ I (ms ++ methodsOf items) b := by
  rcases addErrors_cases set a with ⟨-, heq⟩ | ⟨-, items, hmethods, heq⟩
  · exact ⟨_, _, heq, by simpa [methodsOf] using ha⟩
  · refine ⟨items, _, heq, ?_⟩
    rw [hmethods]
    exact hI.listed _ _ ha

theorem addSet (hI : Invariant I) (ha : I ms a) (set : TestSet) :
    ∃ r b, Assembly.addSet set a = .ok r b ∧ I (ms ++ r.toList.flatMap Region.methods) b := by
  have hcur : (a.entered set.executable).generation.current = some set.executable := rfl
  obtain ⟨items, b, hitems, hb⟩ := hI.addTests hcur (hI.enter _ ha)
  obtain ⟨more, c, hmore, hc⟩ := hI.addErrors hb set
  obtain ⟨r, hr, hmethods⟩ := addSet_eq hitems hmore
  refine ⟨r, _, hr, ?_⟩
  rw [hmethods, methodsOf_append, ← List.append_assoc]
  exact hI.leave hc

theorem addCovered (hI : Invariant I) (ha : I ms a) (set : TestSet) :
    ∃ r b, Assembly.addCovered set a = .ok r b ∧
      I (ms ++ r.toList.flatMap Region.methods) b := by
  simp only [Assembly.addCovered]
  split
  · exact ⟨none, a, rfl, by simpa using ha⟩
  · exact hI.addSet ha set

/-- An invariant holds after any test sets, and they can be processed from every state. -/
theorem addSets (hI : Invariant I) (ha : I ms a) (sets : List TestSet) :
    ∃ regions b, Assembly.addSets sets a = .ok regions b ∧
      I (ms ++ regions.flatMap Region.methods) b := by
  induction sets generalizing a ms with
  | nil => exact ⟨[], a, rfl, by simpa using ha⟩
  | cons set rest ih =>
      obtain ⟨r, b, hr, hb⟩ := hI.addCovered ha set
      obtain ⟨regions, c, hregions, hc⟩ := ih hb
      refine ⟨_, c, addSets_cons_eq hr hregions, ?_⟩
      rw [List.flatMap_append, ← List.append_assoc]
      exact hc

end Invariant

end Assembly

/-- A construction processes the sets, writes the static methods and closes the class. -/
theorem Generation.construct_eq {g : Generation} {sets : List TestSet} {regions : List Region}
    {a : Assembly} (h : Assembly.addSets sets (.start g) = .ok regions a) :
    ∃ statics b, Assembly.addStatics a = .ok statics b ∧
      g.construct sets = .ok (b.finish regions statics) := by
  refine ⟨_, _, rfl, ?_⟩
  have hall : Assembly.addAll sets (.start g) = .ok (regions, _) _ :=
    Build.bind_eq_ok.mpr ⟨regions, a, h, Build.bind_eq_ok.mpr ⟨_, _, rfl, rfl⟩⟩
  simp only [construct]
  rw [hall]

end TestWriter
