import TestWriter.Proofs.ErrorAccounting
import TestWriter.Proofs.HelperExactness
import TestWriter.Proofs.Isolation

/-!
# A report and its class agree

A report is written beside the class, one entry at a time.  Main statements: the names in a report
are those of the tests in the class, by executable and classification and in the order in which the
class holds them; the executables in a report are those of the sets that have runs, by their first
set; and each of these sets has one region, which holds methods of its executable alone.
-/

namespace TestWriter

namespace Method

/-- The executable that the method tests or reports on. -/
def executable? (m : Method) : Option Executable :=
  match m.kind with
  | .test info => some info.executable
  | .errorReport e | .parameterized e _ => some e
  | .dataProvider | .helper _ => none

/-- Whether the method is the test of a run of an executable that is classified in a given way. -/
def isTestOf (e : Executable) (c : Classification) (m : Method) : Bool :=
  match m.kind with
  | .test info => info.executable = e && info.classification = c
  | _ => false

theorem isTestOf_eq_false {m : Method} (h : m.isRunTest = false) (e : Executable)
    (c : Classification) : m.isTestOf e c = false := by
  cases hk : m.kind <;> simp_all [isTestOf, isRunTest]

end Method

/-- The names that a report shows for an executable under a classification. -/
def Report.bucketOf (r : Report) (e : Executable) (c : Classification) : List String :=
  ((r.executables.get? e).map fun x => x.bucket c).getD []

/-- A region belongs to a set: it has the name of its executable, and holds methods, all of them for
this executable. -/
structure Region.BelongsTo (r : Region) (set : TestSet) : Prop where
  header : r.header = some ("Test suites for executable " ++ set.executable.display)
  inhabited : r.methods ≠ []
  owned : ∀ m ∈ r.methods, m.executable? = some set.executable

/-! ## What the steps write into a report -/

namespace Report

variable {r : Report} {e k : Executable} {c : Classification}

theorem bucketOf_alter {f : ReportEntry → ReportEntry} (added : List String)
    (h : ∀ x, (f x).bucket c = x.bucket c ++ added) :
    (r.alter e f).bucketOf k c = r.bucketOf k c ++ if k = e then added else [] := by
  simp only [bucketOf, alter]
  rw [OrderedMap.get?_alter]
  by_cases hk : k = e
  · subst hk
    rw [if_pos rfl, if_pos rfl, Option.map_some, Option.getD_some, h]
    cases r.executables.get? k with
    | none => cases c <;> rfl
    | some x => rfl
  · rw [if_neg hk, if_neg hk, List.append_nil]

/-- A change that keeps the names of the tests keeps those that the report shows. -/
theorem bucketOf_alter_of_same {f : ReportEntry → ReportEntry}
    (h : ∀ x, (f x).bucket c = x.bucket c) : (r.alter e f).bucketOf k c = r.bucketOf k c := by
  rw [bucketOf_alter [] fun x => (h x).trans (List.append_nil _).symm, ite_self, List.append_nil]

theorem totalTests_alter {f : ReportEntry → ReportEntry} (n : Nat)
    (h : ∀ x, (f x).testCount = x.testCount + n) :
    (r.alter e f).totalTests = r.totalTests + n := by
  change OrderedMap.sumOver _ ReportEntry.testCount = _
  apply OrderedMap.sumOver_alter
  intro old
  rw [h]
  cases old <;> rfl

theorem keys_alter (f : ReportEntry → ReportEntry) :
    (r.alter e f).executables.keys = insertLast r.executables.keys e :=
  OrderedMap.keys_alter _ _ _

theorem testCount_addTest (x : ReportEntry) (c : Classification) (name : String) :
    (x.addTest c name).testCount = x.testCount + 1 := by
  cases c <;> simp only [ReportEntry.addTest, ReportEntry.testCount, List.length_append,
    List.length_singleton] <;> omega

/-- A method adds its name where it belongs, if it is the test of a run. -/
theorem bucketOf_addMethod (r : Report) (m : Method) (k : Executable) (c : Classification) :
    (r.addMethod m).bucketOf k c =
      r.bucketOf k c ++ ([m].filter (Method.isTestOf k c)).map Method.name := by
  simp only [addMethod]
  cases hm : m.kind with
  | test info =>
      dsimp only
      rw [bucketOf_alter (if info.classification = c then [m.name] else []) (by
        intro x
        rw [ReportEntry.bucket_addTest]
        split <;> simp)]
      congr 1
      by_cases he : k = info.executable
      · subst he
        by_cases hc : info.classification = c <;> simp [Method.isTestOf, hm, hc]
      · have he' : ¬info.executable = k := fun h => he h.symm
        simp [Method.isTestOf, hm, he, he']
  | parameterized p name =>
      refine (bucketOf_alter_of_same fun x => rfl).trans ?_
      simp [Method.isTestOf, hm]
  | errorReport p => simp [Method.isTestOf, hm]
  | dataProvider => simp [Method.isTestOf, hm]
  | helper h => simp [Method.isTestOf, hm]

theorem totalTests_addMethod (r : Report) (m : Method) :
    (r.addMethod m).totalTests = r.totalTests + [m].countP Method.isRunTest := by
  simp only [addMethod]
  cases hm : m.kind with
  | test info =>
      dsimp only
      rw [totalTests_alter 1 fun x => testCount_addTest x _ _]
      simp [Method.isRunTest, hm]
  | parameterized p name =>
      refine (totalTests_alter 0 fun x => rfl).trans ?_
      simp [Method.isRunTest, hm]
  | errorReport p => simp [Method.isRunTest, hm]
  | dataProvider => simp [Method.isRunTest, hm]
  | helper h => simp [Method.isRunTest, hm]

end Report

namespace ErrorCounts

theorem isEmpty_add (errors : ErrorCounts) (message : String) (count : UInt64) :
    (errors.add message count).isEmpty = false := by
  obtain ⟨entries⟩ := errors
  cases entries with
  | nil => rfl
  | cons entry rest =>
      simp only [add, OrderedMap.isEmpty, OrderedMap.alter, OrderedMap.alterEntries]
      split <;> rfl

theorem isEmpty_merge (errors more : ErrorCounts) :
    (errors.merge more).isEmpty = (errors.isEmpty && more.isEmpty) := by
  obtain ⟨entries⟩ := more
  simp only [merge]
  induction entries generalizing errors with
  | nil => exact (Bool.and_true _).symm
  | cons entry rest ih =>
      rw [List.foldl_cons, ih, isEmpty_add, Bool.false_and]
      exact (Bool.and_false _).symm

end ErrorCounts

/-! ## The names of the tests -/

namespace Assembly

open Region (methodsOf)

variable {a b c : Assembly} {e : Executable} {ms : List Method}

/-- The report shows the tests of single runs among some methods, in their order and no others, and
the data providers are no tests. -/
structure Agrees (ms : List Method) (a : Assembly) : Prop where
  buckets : ∀ e c, a.report.bucketOf e c = (ms.filter (Method.isTestOf e c)).map Method.name
  total : a.report.totalTests = ms.countP Method.isRunTest
  providers : ∀ m ∈ a.providers, m.isRunTest = false

theorem Agrees.start (g : Generation) : Agrees [] (.start g) where
  buckets e c := by cases c <;> rfl
  total := rfl
  providers := by simp [Assembly.start]

theorem bucketOf_warn (a : Assembly) (w : Option String) (e : Executable) (c : Classification) :
    (a.warn w).report.bucketOf e c = a.report.bucketOf e c := by
  cases w <;> rfl

theorem totalTests_warn (a : Assembly) (w : Option String) :
    (a.warn w).report.totalTests = a.report.totalTests := by
  cases w <;> rfl

theorem keys_warn (a : Assembly) (w : Option String) :
    (a.warn w).report.executables.keys = a.report.executables.keys := by
  cases w <;> rfl

/-- A method that is reported stays in agreement. -/
theorem Agrees.tested (h : Agrees ms a) (w : Option String) (m : Method) (g : Generation) :
    Agrees (ms ++ [m]) (a.tested w m g) where
  buckets e c := by
    refine (Report.bucketOf_addMethod _ m e c).trans ?_
    rw [bucketOf_warn, h.buckets, List.filter_append, List.map_append]
  total := by
    refine (Report.totalTests_addMethod _ m).trans ?_
    rw [totalTests_warn, h.total, List.countP_append]
  providers := by
    rw [providers_tested]
    exact h.providers

theorem agrees_invariant : Invariant Agrees where
  enter e h := ⟨h.buckets, h.total, h.providers⟩
  leave h := ⟨h.buckets, h.total, h.providers⟩
  tested w h hplain htest := h.tested w _ _
  tabled w h htable := by
    rename_i g
    obtain ⟨buckets, total, providers⟩ := h.tested w _ g
    refine ⟨buckets, total, ?_⟩
    intro m hm
    rcases List.mem_append.mp hm with hm | hm
    · exact providers m hm
    · obtain ⟨_, providerBody, d, testBody, d', providerName, testName, _, -, -, rfl, -⟩ :=
        TestSet.eq_of_toTable_ok htable
      obtain rfl := List.mem_singleton.mp hm
      rfl
  counted w cause h hcur := by
    refine ⟨fun e c => (bucketOf_warn _ w e c).trans (h.buckets e c),
      (totalTests_warn _ w).trans h.total, ?_⟩
    rw [providers_counted]
    exact h.providers
  listed e errors h := by
    rename_i ms a
    refine ⟨?_, ?_, h.providers⟩
    · intro k c
      have hsame : (a.report.addErrors e errors).bucketOf k c = a.report.bucketOf k c :=
        Report.bucketOf_alter_of_same fun x => by cases c <;> rfl
      refine hsame.trans ((h.buckets k c).trans ?_)
      rw [List.filter_append]
      simp [listing, errorListing, Method.isTestOf]
    · have hsame : (a.report.addErrors e errors).totalTests = a.report.totalTests :=
        Report.totalTests_alter 0 fun x => rfl
      refine hsame.trans (h.total.trans ?_)
      rw [List.countP_append]
      simp [listing, errorListing, Method.isRunTest]

/-! ## The executables and the regions -/

/-- Between two classes in the making, methods of an executable were written.  The executable is in
the report if there are any, and an error of it that was counted stays counted. -/
structure Covers (e : Executable) (ms : List Method) (a b : Assembly) : Prop where
  current : b.generation.current = some e
  config : b.generation.config = a.generation.config
  owned : ∀ m ∈ ms, m.executable? = some e
  keys : b.report.executables.keys =
    if ms.isEmpty then a.report.executables.keys else insertLast a.report.executables.keys e
  kept : (a.generation.errorsFor e).isEmpty = false → (b.generation.errorsFor e).isEmpty = false

theorem Covers.refl (hcur : a.generation.current = some e) : Covers e [] a a :=
  ⟨hcur, rfl, by simp, rfl, id⟩

theorem Covers.trans {ns : List Method} (h : Covers e ms a b) (h' : Covers e ns b c) :
    Covers e (ms ++ ns) a c where
  current := h'.current
  config := h'.config.trans h.config
  owned := by
    intro m hm
    rcases List.mem_append.mp hm with hm | hm
    · exact h.owned m hm
    · exact h'.owned m hm
  keys := by
    rw [h'.keys, h.keys]
    cases ms with
    | nil => rfl
    | cons m rest =>
        cases ns with
        | nil => rw [List.append_nil]; rfl
        | cons n more => exact insertLast_self _ _
  kept := h'.kept ∘ h.kept

/-- Without a method of an executable there is an error of it. -/
def Accounts (e : Executable) (ms : List Method) (b : Assembly) : Prop :=
  ms = [] → (b.generation.errorsFor e).isEmpty = false

theorem Accounts.append {ns : List Method} (h : Accounts e ms b) (h' : Covers e ns b c) :
    Accounts e (ms ++ ns) c :=
  fun hnil => h'.kept (h (List.append_eq_nil_iff.mp hnil).1)

theorem isEmpty_errorsFor_counted (a : Assembly) (w : Option String) (e : Executable)
    (message : String) : ((a.counted w e message).generation.errorsFor e).isEmpty = false := by
  change ((a.generation.tallyAt e message).errorsFor e).isEmpty = false
  rw [Generation.errorsFor_tallyAt]
  exact ErrorCounts.isEmpty_add _ _ _

/-- A method that is reported, and that shares its executable with the set, covers it. -/
theorem covers_tested {m : Method} {g : Generation} (w : Option String)
    (hm : m.executable? = some e) (hlisting : ∀ k, m.kind ≠ .errorReport k)
    (hg : g.restore a.generation.usage = a.generation) (hcur : a.generation.current = some e) :
    Covers e [m] a (a.tested w m g) where
  current := by
    have hcurrent := congrArg Generation.current hg
    exact hcurrent.trans hcur
  config := by
    have hconfig := congrArg Generation.config hg
    exact hconfig
  owned := by simpa using hm
  keys := by
    change ((a.warn w).report.addMethod m).executables.keys = insertLast _ e
    rw [← keys_warn a w]
    simp only [Report.addMethod]
    cases hk : m.kind with
    | test info =>
        obtain rfl : info.executable = e := by simpa [Method.executable?, hk] using hm
        exact Report.keys_alter _
    | parameterized p name =>
        obtain rfl : p = e := by simpa [Method.executable?, hk] using hm
        exact Report.keys_alter _
    | errorReport p => exact absurd hk (hlisting p)
    | dataProvider => simp [Method.executable?, hk] at hm
    | helper h => simp [Method.executable?, hk] at hm
  kept h := by
    have herrors := congrArg Generation.errors hg
    change g.errors = a.generation.errors at herrors
    change (((g.errors.get? e)).getD .empty).isEmpty = false
    rw [herrors]
    exact h

theorem covers_counted (w : Option String) (message : String)
    (hcur : a.generation.current = some e) : Covers e [] a (a.counted w e message) where
  current := hcur
  config := rfl
  owned := by simp
  keys := keys_warn a w
  kept _ := isEmpty_errorsFor_counted a w e message

theorem covers_listed (errors : ErrorCounts) (hcur : a.generation.current = some e) :
    Covers e [a.listing e errors] a (a.listed e errors) where
  current := hcur
  config := rfl
  owned := by simp [listing, errorListing, Method.executable?]
  keys := Report.keys_alter _
  kept h := h

theorem addRun_covers (hcur : a.generation.current = some e) (run : Execution) :
    ∃ m b, addRun e run a = .ok m b ∧ Covers e m.toList a b ∧ Accounts e m.toList b := by
  rcases addRun_cases hcur run with ⟨-, m, g, h, heq⟩ | ⟨cause, -, heq⟩
  · have hback := Execution.restore_of_toTest_ok h
    obtain ⟨body, d, name, names, -, rfl, -⟩ := Execution.eq_of_toTest_ok h
    exact ⟨some _, _, heq, covers_tested _ rfl nofun hback hcur, nofun⟩
  · exact ⟨none, _, heq, covers_counted _ _ hcur, fun _ => isEmpty_errorsFor_counted _ _ _ _⟩

theorem addRuns_covers (hcur : a.generation.current = some e) (runs : List Execution) :
    ∃ ms b, addRuns e runs a = .ok ms b ∧ Covers e ms a b ∧ (runs ≠ [] → Accounts e ms b) := by
  induction runs generalizing a with
  | nil => exact ⟨[], a, rfl, .refl hcur, fun h => absurd rfl h⟩
  | cons run rest ih =>
      obtain ⟨m, b, hrun, hm, haccounts⟩ := addRun_covers hcur run
      obtain ⟨ms, c, hrest, hms, -⟩ := ih hm.current
      exact ⟨_, c, addRuns_cons_eq hrun hrest, hm.trans hms, fun _ => haccounts.append hms⟩

theorem addTests_covers {set : TestSet} (hcur : a.generation.current = some set.executable)
    (hcovered : set.isCovered = true) :
    ∃ items b, addTests set a = .ok items b ∧ Covers set.executable (methodsOf items) a b ∧
      Accounts set.executable (methodsOf items) b := by
  simp only [addTests]
  cases a.generation.config.isParameterized with
  | true =>
      rw [if_pos rfl]
      rcases addTable_cases hcur with ⟨-, t, g, h, heq⟩ | ⟨cause, -, heq⟩
      · have hback := TestSet.restore_of_toTable_ok h
        obtain ⟨_, providerBody, d, testBody, d', providerName, testName, _, -, -, ht, -⟩ :=
          TestSet.eq_of_toTable_ok h
        have hkind : t.test.kind = .parameterized set.executable providerName := by
          rw [ht]
          rfl
        have htest := covers_tested (m := t.test) (set.tableWarning? a.generation.config)
          (by simp [Method.executable?, hkind]) (by simp [hkind]) hback hcur
        exact ⟨_, _, heq, ⟨htest.current, htest.config, htest.owned, htest.keys, htest.kept⟩,
          fun hnone => absurd hnone (List.cons_ne_nil _ _)⟩
      · exact ⟨_, _, heq, covers_counted _ _ hcur, fun _ => isEmpty_errorsFor_counted _ _ _ _⟩
  | false =>
      rw [if_neg Bool.false_ne_true]
      obtain ⟨ms, b, hruns, hms, haccounts⟩ := addRuns_covers hcur set.executions
      obtain ⟨items, hitems, rfl⟩ := addGroups_groups hcur hruns
      have hruns : set.executions ≠ [] := by simpa [TestSet.isCovered] using hcovered
      exact ⟨items, b, hitems, hms, haccounts hruns⟩

/-- Errors that are counted for an executable are listed. -/
theorem addErrors_covers {set : TestSet} (hcur : a.generation.current = some set.executable) :
    ∃ more b, addErrors set a = .ok more b ∧ Covers set.executable (methodsOf more) a b ∧
      ((a.generation.errorsFor set.executable).isEmpty = false → methodsOf more ≠ []) := by
  rcases addErrors_cases set a with ⟨hempty, heq⟩ | ⟨-, more, hmethods, heq⟩
  · refine ⟨[], a, heq, .refl hcur, ?_⟩
    intro herrors
    have hmerge : (a.errorsOf set).isEmpty = (set.errors.isEmpty && _) :=
      ErrorCounts.isEmpty_merge set.errors (a.generation.errorsFor set.executable)
    rw [hempty, herrors, Bool.and_false] at hmerge
    cases hmerge
  · refine ⟨more, _, heq, ?_, ?_⟩
    · rw [hmethods]
      exact covers_listed _ hcur
    · rw [hmethods]
      exact fun _ => List.cons_ne_nil _ _

/-- A set that has runs gets one region, and its executable an entry. -/
theorem addSet_belongs (a : Assembly) {set : TestSet} (hcovered : set.isCovered = true) :
    ∃ r b, addSet set a = .ok (some r) b ∧ r.BelongsTo set ∧
      b.report.executables.keys = insertLast a.report.executables.keys set.executable := by
  obtain ⟨items, b, hitems, htests, haccounts⟩ :=
    addTests_covers (a := a.entered set.executable) rfl hcovered
  obtain ⟨more, c, hmore, herrors, hlisted⟩ := addErrors_covers htests.current
  have hall := htests.trans herrors
  have hinhabited : methodsOf items ++ methodsOf more ≠ [] := by
    intro hnil
    obtain ⟨hitems', hmore'⟩ := List.append_eq_nil_iff.mp hnil
    exact hlisted (haccounts hitems') hmore'
  rw [← Region.methodsOf_append] at hinhabited hall
  have hitems' : (items ++ more).isEmpty = false := by
    cases hboth : items ++ more with
    | nil => exact absurd (congrArg methodsOf hboth) hinhabited
    | cons item rest => rfl
  refine ⟨.mk (some ("Test suites for executable " ++ set.executable.display)) [] (items ++ more),
    c.left, ?_, ⟨rfl, hinhabited, hall.owned⟩, ?_⟩
  · refine Build.bind_eq_ok.mpr ⟨(), _, rfl, Build.bind_eq_ok.mpr ⟨items, b, hitems,
      Build.bind_eq_ok.mpr ⟨more, c, hmore, ?_⟩⟩⟩
    refine Build.bind_eq_ok.mpr ⟨(), _, rfl, ?_⟩
    rw [hitems', if_neg Bool.false_ne_true]
    rfl
  · refine hall.keys.trans ?_
    rw [if_neg (by simpa using hinhabited)]
    rfl

/-- The sets that have runs get a region each, and their executables an entry each. -/
theorem addSets_belong (a : Assembly) (sets : List TestSet) :
    ∃ regions b, addSets sets a = .ok regions b ∧
      List.Forall₂ Region.BelongsTo regions (sets.filter TestSet.isCovered) ∧
      b.report.executables.keys =
        ((sets.filter TestSet.isCovered).map TestSet.executable).foldl insertLast
          a.report.executables.keys := by
  induction sets generalizing a with
  | nil => exact ⟨[], a, rfl, .nil, rfl⟩
  | cons set rest ih =>
      cases hcovered : set.isCovered with
      | true =>
          obtain ⟨r, b, hr, hbelongs, hkeys⟩ := addSet_belongs a hcovered
          obtain ⟨regions, c, hregions, hrest, hkeys'⟩ := ih b
          have hset := (addCovered_of_isCovered hcovered a).trans hr
          rw [List.filter_cons_of_pos hcovered]
          refine ⟨_, c, addSets_cons_eq hset hregions, .cons hbelongs hrest, ?_⟩
          rw [hkeys', hkeys]
          rfl
      | false =>
          obtain ⟨regions, c, hregions, hrest, hkeys⟩ := ih a
          have hset := addCovered_of_not_isCovered hcovered a
          rw [List.filter_cons_of_neg (by simp [hcovered])]
          exact ⟨_, c, addSets_cons_eq hset hregions, hrest, hkeys⟩

/-- The static methods are written beside the report, and no test is among them. -/
theorem isRunTest_of_addStatics {statics : Region} (ha : Agrees ms a)
    (h : addStatics a = .ok statics b) :
    b.report = a.report ∧ ∀ m ∈ statics.methods, m.isRunTest = false := by
  refine ⟨by cases h; rfl, ?_⟩
  intro m hm
  rw [(methods_of_addStatics h).1] at hm
  rcases List.mem_append.mp hm with hm | hm
  · exact ha.providers m hm
  · split at hm
    · obtain ⟨helper, -, rfl⟩ := List.mem_map.mp hm
      rfl
    · cases hm

end Assembly

/-- A report and its class agree, for every state of generation and all test sets.  By executable and
classification, the report shows the names of the tests of the class, depth first; its executables
are those of the sets that have runs, in order of first appearance; its total is the number of tests
in the class; and the class has one region per set that has runs, in order, with methods for the
executable of this set alone. -/
theorem report_agrees_with_class (g : Generation) (sets : List TestSet) :
    ∃ c, g.construct sets = .ok c ∧
      (∀ e k, c.report.bucketOf e k =
        (c.file.testClass.methods.filter (Method.isTestOf e k)).map Method.name) ∧
      c.report.executables.keys =
        ((sets.filter TestSet.isCovered).map TestSet.executable).eraseDups ∧
      c.report.totalTests = c.file.testClass.methods.countP Method.isRunTest ∧
      List.Forall₂ Region.BelongsTo c.file.testClass.regions (sets.filter TestSet.isCovered) := by
  obtain ⟨regions, a, hsets, ha⟩ :=
    Assembly.agrees_invariant.addSets (Assembly.Agrees.start g) sets
  rw [List.nil_append] at ha
  obtain ⟨regions', a', hsets', hbelongs, hkeys⟩ := Assembly.addSets_belong (.start g) sets
  rw [hsets] at hsets'
  cases hsets'
  obtain ⟨statics, b, hstatics, hconstruct⟩ := Generation.construct_eq hsets
  obtain ⟨hreport, hnone⟩ := Assembly.isRunTest_of_addStatics ha hstatics
  refine ⟨_, hconstruct, ?_, ?_, ?_, hbelongs⟩
  · intro e k
    change b.report.bucketOf e k =
      ((regions.flatMap Region.methods ++ statics.methods).filter _).map _
    have hfilter : statics.methods.filter (Method.isTestOf e k) = [] :=
      List.filter_eq_nil_iff.mpr fun m hm => by simp [Method.isTestOf_eq_false (hnone m hm)]
    rw [hreport, ha.buckets, List.filter_append, hfilter, List.append_nil]
  · change b.report.executables.keys = _
    have hstart : (Assembly.start g).report.executables.keys = [] := rfl
    rw [hreport, hkeys, hstart, foldl_insertLast_eq, List.nil_append]
    simp
  · change b.report.totalTests =
      (regions.flatMap Region.methods ++ statics.methods).countP _
    have hcount : statics.methods.countP Method.isRunTest = 0 :=
      List.countP_eq_zero.mpr fun m hm => by simp [hnone m hm]
    rw [hreport, ha.total, List.countP_append, hcount, Nat.add_zero]

end TestWriter
