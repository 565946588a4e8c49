import TestWriter.Proofs.Origins
import TestWriter.Proofs.SkippedTests

/-!
# Warnings of a report

A warning is added before the test or the table that it speaks of is built, and it stays when the
build is given up.  Main statements: the warnings of a report are those of the runs, or of the
tables, each once; and the condition under which they describe the tests of the class, which is that
some test or table with the same displayed executable can be built.
-/

namespace TestWriter

/-! ## What warnings say -/

/-- The warning that tests of an executable are disabled. -/
def disabledWarning (display : String) : String :=
  "Some tests for " ++ display ++
    " need static mocking, which is disabled; they were generated disabled"

/-- The warning that a number of runs of an executable have no row. -/
def skippedWarning (count : Nat) (display : String) : String :=
  toString count ++ " executions of " ++ display ++
    " timed out or crashed and were left out of the parameterized test"

/-- The warnings that a set causes. -/
def TestSet.warnings (set : TestSet) (config : Config) : List String :=
  if config.isParameterized then (set.tableWarning? config).toList
  else set.executions.flatMap fun run => (run.warning? config set.executable).toList

theorem disabledWarning_eq_append (display : String) :
    disabledWarning display = "Some tests for " ++ (display ++
      " need static mocking, which is disabled; they were generated disabled") :=
  String.append_assoc

theorem disabledWarning_injective {display display' : String}
    (h : disabledWarning display = disabledWarning display') : display = display' := by
  rw [disabledWarning_eq_append, disabledWarning_eq_append] at h
  exact (String.append_left_inj _).mp ((String.append_right_inj _).mp h)

theorem Execution.eq_of_warning?_eq_some {run : Execution} {config : Config} {e : Executable}
    {w : String} (h : run.warning? config e = some w) : w = disabledWarning e.display := by
  rw [warning?] at h
  split at h
  · cases h
    rfl
  · cases h

theorem TestSet.eq_of_tableWarning?_eq_some {set : TestSet} {config : Config} {w : String}
    (h : set.tableWarning? config = some w) :
    w = skippedWarning (set.executions.length - set.rows.length) set.executable.display := by
  simp only [tableWarning?] at h
  split at h
  · cases h
    rfl
  · cases h

/-- What stands behind a number is what is left without the digits. -/
theorem dropWhile_isDigit_append (n : Nat) {rest : List Char}
    (h : rest.head?.all fun c => !c.isDigit) :
    ((toString n).toList ++ rest).dropWhile Char.isDigit = rest := by
  rw [List.dropWhile_append_of_pos fun c => isDigit_of_mem_toString]
  cases rest with
  | nil => rfl
  | cons c rest => exact List.dropWhile_cons_of_neg (by simpa using h)

theorem dropWhile_skippedWarning (n : Nat) (display : String) :
    (skippedWarning n display).toList.dropWhile Char.isDigit =
      (" executions of " ++ display ++
        " timed out or crashed and were left out of the parameterized test").toList := by
  have htext : skippedWarning n display = toString n ++ (" executions of " ++ display ++
      " timed out or crashed and were left out of the parameterized test") := by
    simp only [skippedWarning, String.append_assoc]
  have hblank : " executions of ".toList.head? = some ' ' := by decide
  rw [htext, String.toList_append]
  apply dropWhile_isDigit_append
  rw [String.append_assoc, String.toList_append, List.head?_append, hblank]
  rfl

theorem skippedWarning_injective {n n' : Nat} {display display' : String}
    (h : skippedWarning n display = skippedWarning n' display') : display = display' := by
  have hrest := congrArg (fun text => text.toList.dropWhile Char.isDigit) h
  simp only [dropWhile_skippedWarning] at hrest
  have hsame := (String.append_left_inj _).mp (String.toList_inj.mp hrest)
  exact (String.append_right_inj _).mp hsame

theorem skippedWarning_ne_disabledWarning (n : Nat) (display display' : String) :
    skippedWarning n display ≠ disabledWarning display' := by
  intro h
  have hblank : " executions of ".toList.head? = some ' ' := by decide
  have hcapital : "Some tests for ".toList.head? = some 'S' := by decide
  have hdisabled : (disabledWarning display').toList.head? = some 'S' := by
    rw [disabledWarning_eq_append, String.toList_append, List.head?_append, hcapital]
    rfl
  have hkept : (disabledWarning display').toList.dropWhile Char.isDigit =
      (disabledWarning display').toList := by
    obtain ⟨rest, hrest⟩ := List.head?_eq_some_iff.mp hdisabled
    rw [hrest]
    exact List.dropWhile_cons_of_neg (by decide)
  rw [← hkept, ← h, dropWhile_skippedWarning, String.append_assoc, String.toList_append,
    List.head?_append, hblank] at hdisabled
  cases hdisabled

/-! ## The warnings of a report -/

namespace Assembly

variable {a b : Assembly} {config : Config} {e : Executable}

theorem warnings_warn (a : Assembly) (w : Option String) :
    (a.warn w).report.warnings = w.toList.foldl insertLast a.report.warnings := by
  cases w <;> rfl

theorem warnings_tested (a : Assembly) (w : Option String) (m : Method) (g : Generation) :
    (a.tested w m g).report.warnings = w.toList.foldl insertLast a.report.warnings := by
  rw [← warnings_warn, tested]
  simp only [Report.addMethod]
  split <;> rfl

/-- A state with the same configuration and some more warnings, each of them once. -/
structure WarnsOf (ws : List String) (a b : Assembly) : Prop where
  config_eq : b.generation.config = a.generation.config
  warnings_eq : b.report.warnings = ws.foldl insertLast a.report.warnings

theorem WarnsOf.trans {ws ws' : List String} {c : Assembly} (h : WarnsOf ws a b)
    (h' : WarnsOf ws' b c) : WarnsOf (ws ++ ws') a c where
  config_eq := h'.config_eq.trans h.config_eq
  warnings_eq := by rw [h'.warnings_eq, h.warnings_eq, List.foldl_append]

/-- A run adds its warning whether or not its test is written. -/
theorem addRun_warns (hcur : a.generation.current = some e) (run : Execution) :
    ∃ m b, addRun e run a = .ok m b ∧ b.generation.current = some e ∧
      WarnsOf (run.warning? a.generation.config e).toList a b := by
  obtain ⟨m, b, hrun, hconfig, hcur'⟩ := addRun_ok hcur run
  refine ⟨m, b, hrun, hcur', hconfig, ?_⟩
  rcases addRun_cases hcur run with ⟨-, m, g, -, heq⟩ | ⟨cause, -, heq⟩
  · rw [hrun] at heq
    cases heq
    exact warnings_tested a _ m g
  · rw [hrun] at heq
    cases heq
    exact warnings_warn a _

theorem addRuns_warn (hcur : a.generation.current = some e) (runs : List Execution) :
    ∃ ms b, addRuns e runs a = .ok ms b ∧
      WarnsOf (runs.flatMap fun run => (run.warning? a.generation.config e).toList) a b := by
  induction runs generalizing a with
  | nil => exact ⟨[], a, rfl, rfl, rfl⟩
  | cons run rest ih =>
      obtain ⟨m, b, hrun, hcur', hwarns⟩ := addRun_warns hcur run
      obtain ⟨ms, c, hrest, hwarns'⟩ := ih hcur'
      refine ⟨_, c, addRuns_cons_eq hrun hrest, ?_⟩
      rw [hwarns.config_eq] at hwarns'
      exact hwarns.trans hwarns'

theorem addTable_warns {set : TestSet} (hcur : a.generation.current = some set.executable) :
    ∃ items b, addTable set a = .ok items b ∧
      WarnsOf (set.tableWarning? a.generation.config).toList a b := by
  rcases addTable_cases hcur with ⟨-, t, g, h, heq⟩ | ⟨cause, -, heq⟩
  · exact ⟨_, _, heq, TestSet.config_of_toTable_ok h, warnings_tested a _ t.test g⟩
  · exact ⟨_, _, heq, rfl, warnings_warn a _⟩

theorem addSet_warns (set : TestSet) :
    ∃ r b, addSet set a = .ok r b ∧ WarnsOf (set.warnings a.generation.config) a b := by
  have htests : ∃ items b, addTests set (a.entered set.executable) = .ok items b ∧
      WarnsOf (set.warnings a.generation.config) (a.entered set.executable) b := by
    simp only [addTests, TestSet.warnings]
    cases hmode : (a.entered set.executable).generation.config.isParameterized with
    | true =>
        have hmode' : a.generation.config.isParameterized = true := hmode
        rw [hmode', if_pos rfl, if_pos rfl]
        exact addTable_warns rfl
    | false =>
        have hmode' : a.generation.config.isParameterized = false := hmode
        obtain ⟨ms, b, hruns, hwarns⟩ :=
          addRuns_warn (a := a.entered set.executable) rfl set.executions
        obtain ⟨items, hitems, -⟩ := addGroups_groups rfl hruns
        rw [hmode', if_neg Bool.false_ne_true, if_neg Bool.false_ne_true]
        exact ⟨items, b, hitems, hwarns⟩
  obtain ⟨items, b, htests, hwarns⟩ := htests
  have herrors : ∃ more c, addErrors set b = .ok more c ∧ WarnsOf [] b c := by
    rcases addErrors_cases set b with ⟨-, heq⟩ | ⟨-, more, -, heq⟩
    · exact ⟨[], b, heq, rfl, rfl⟩
    · exact ⟨more, _, heq, rfl, rfl⟩
  obtain ⟨more, c, hmore, hkept⟩ := herrors
  obtain ⟨r, hr, -⟩ := addSet_eq htests hmore
  have hboth := hwarns.trans hkept
  rw [List.append_nil] at hboth
  exact ⟨r, _, hr, hboth.config_eq, hboth.warnings_eq⟩

theorem addCovered_warns (set : TestSet) :
    ∃ r b, addCovered set a = .ok r b ∧ WarnsOf (set.warnings a.generation.config) a b := by
  simp only [addCovered]
  split
  · next hempty =>
    have hnone : set.warnings a.generation.config = [] := by
      simp [TestSet.warnings, TestSet.tableWarning?, List.isEmpty_iff.mp hempty]
    rw [hnone]
    exact ⟨none, a, rfl, rfl, rfl⟩
  · exact addSet_warns set

theorem addSets_warn (sets : List TestSet) :
    ∃ regions b, addSets sets a = .ok regions b ∧
      WarnsOf (sets.flatMap fun set => set.warnings a.generation.config) a b := by
  induction sets generalizing a with
  | nil => exact ⟨[], a, rfl, rfl, rfl⟩
  | cons set rest ih =>
      obtain ⟨r, b, hset, hwarns⟩ := addCovered_warns (a := a) set
      obtain ⟨regions, c, hrest, hwarns'⟩ := ih (a := b)
      refine ⟨_, c, addSets_cons_eq hset hrest, ?_⟩
      rw [hwarns.config_eq] at hwarns'
      exact hwarns.trans hwarns'

end Assembly

/-- The warnings of a report are those of the sets, each once. -/
theorem Generation.construct_warnings (g : Generation) (sets : List TestSet) :
    ∃ c, g.construct sets = .ok c ∧
      c.report.warnings = (sets.flatMap fun set => set.warnings g.config).eraseDups := by
  obtain ⟨regions, a, hsets, hwarns⟩ := Assembly.addSets_warn (a := .start g) sets
  obtain ⟨statics, b, hstatics, hconstruct⟩ := construct_eq hsets
  refine ⟨_, hconstruct, ?_⟩
  have hreport : b.report = a.report := by
    cases hstatics
    rfl
  have hwarnings := hwarns.warnings_eq
  rw [foldl_insertLast_eq] at hwarnings
  simpa [Assembly.finish, hreport, Assembly.start, Report.empty] using hwarnings

/-! ## What warnings promise -/

/-- A method is the test of a run of an executable with a displayed name, and it is disabled because
static mocking is off. -/
def Method.IsDisabledTestOf (display : String) (m : Method) : Prop :=
  ∃ info, m.kind = .test info ∧ info.executable.display = display ∧
    info.disabled = some staticMockingReason

/-- A method is the parameterized test of an executable with a displayed name. -/
def Method.IsTableOf (display : String) (m : Method) : Prop :=
  ∃ e provider, m.kind = .parameterized e provider ∧ e.display = display

section

variable {config : Config} {sets : List TestSet} {display : String}

theorem disabledWarning_mem_iff :
    disabledWarning display ∈ (sets.flatMap fun set => set.warnings config).eraseDups ↔
      config.isParameterized = false ∧ ∃ set ∈ sets, set.executable.display = display ∧
        ∃ run ∈ set.executions, (run.warning? config set.executable).isSome := by
  rw [List.mem_eraseDups, List.mem_flatMap]
  constructor
  · rintro ⟨set, hset, hmem⟩
    rw [TestSet.warnings] at hmem
    split at hmem
    · have hwarning := TestSet.eq_of_tableWarning?_eq_some (Option.mem_toList.mp hmem)
      exact absurd hwarning.symm (skippedWarning_ne_disabledWarning _ _ _)
    · next hplain =>
      obtain ⟨run, hrun, hmem⟩ := List.mem_flatMap.mp hmem
      have hwarning := Option.mem_toList.mp hmem
      have hdisplay := disabledWarning_injective (Execution.eq_of_warning?_eq_some hwarning)
      exact ⟨by simpa using hplain, set, hset, hdisplay.symm, run, hrun,
        Option.isSome_of_mem hwarning⟩
  · rintro ⟨hplain, set, hset, rfl, run, hrun, hsome⟩
    obtain ⟨w, hwarning⟩ := Option.isSome_iff_exists.mp hsome
    refine ⟨set, hset, ?_⟩
    rw [TestSet.warnings, hplain, if_neg Bool.false_ne_true, List.mem_flatMap]
    refine ⟨run, hrun, ?_⟩
    rw [hwarning, Execution.eq_of_warning?_eq_some hwarning]
    exact Option.mem_toList.mpr rfl

theorem skippedWarning_mem_iff :
    (∃ n, skippedWarning n display ∈ (sets.flatMap fun set => set.warnings config).eraseDups) ↔
      config.isParameterized = true ∧ ∃ set ∈ sets, set.executable.display = display ∧
        (set.tableWarning? config).isSome := by
  simp only [List.mem_eraseDups, List.mem_flatMap]
  constructor
  · rintro ⟨n, set, hset, hmem⟩
    rw [TestSet.warnings] at hmem
    split at hmem
    · next htables =>
      have hwarning := Option.mem_toList.mp hmem
      have hdisplay := skippedWarning_injective (TestSet.eq_of_tableWarning?_eq_some hwarning)
      exact ⟨htables, set, hset, hdisplay.symm, Option.isSome_of_mem hwarning⟩
    · obtain ⟨run, hrun, hmem⟩ := List.mem_flatMap.mp hmem
      have hwarning := Execution.eq_of_warning?_eq_some (Option.mem_toList.mp hmem)
      exact absurd hwarning (skippedWarning_ne_disabledWarning _ _ _)
  · rintro ⟨htables, set, hset, rfl, hsome⟩
    obtain ⟨w, hwarning⟩ := Option.isSome_iff_exists.mp hsome
    refine ⟨set.executions.length - set.rows.length, set, hset, ?_⟩
    rw [← TestSet.eq_of_tableWarning?_eq_some hwarning, TestSet.warnings, htables, if_pos rfl]
    exact Option.mem_toList.mpr hwarning

end

theorem Execution.Writes.fails_eq_false {run : Execution} {config : Config} {e : Executable}
    {m : Method} (h : run.Writes config e m) : run.fails config e = false := by
  obtain ⟨g, g', rfl, htest⟩ := h
  have hnone : run.obstacle g.config e = none :=
    (run.toTestUnder_meets g.config e).eq_none_of_ok htest
  rw [fails, hnone]
  rfl

/-- A run that is written gives its test the reason why it is disabled. -/
theorem Execution.Writes.exists_info {run : Execution} {config : Config} {e : Executable}
    {m : Method} (h : run.Writes config e m) : ∃ info, m.kind = .test info ∧
      info.executable = e ∧ info.disabled = run.disabledReason? config := by
  obtain ⟨g, g', rfl, htest⟩ := h
  obtain ⟨body, d, name, names, -, rfl, -⟩ := Execution.eq_of_toTest_ok htest
  exact ⟨_, rfl, rfl, rfl⟩

theorem Execution.disabledReason?_eq_staticMockingReason_iff {run : Execution} {config : Config} :
    run.disabledReason? config = some staticMockingReason ↔
      run.lacksStaticMocking config = true := by
  have htimeout : timeoutReason ≠ staticMockingReason := by decide
  have hcrash : crashReason ≠ staticMockingReason := by decide
  rw [disabledReason?]
  cases run.lacksStaticMocking config with
  | true => simp
  | false =>
      cases run.outcome with
      | timeout limit => simp [htimeout]
      | crash reason => simp [hcrash]
      | success | runtimeFailure => simp

/-- A parameterized test was written for a set without an obstacle. -/
theorem Method.ComesFrom.exists_table {config : Config} {sets : List TestSet} {m : Method}
    {e : Executable} {provider : String} (h : m.ComesFrom config sets)
    (hkind : m.kind = .parameterized e provider) : config.isParameterized = true ∧
      ∃ set ∈ sets, set.executable = e ∧ set.tableObstacle config = none := by
  cases h with
  | test hplain hset hrun hwrites =>
      obtain ⟨info, htest, -⟩ := hwrites.exists_info
      rw [htest] at hkind
      cases hkind
  | table htables hset hconfig htable =>
      rename_i set t g g'
      have hnone : set.tableObstacle g.config = none :=
        (set.toTableUnder_meets g.config).eq_none_of_ok htable
      obtain ⟨_, _, _, _, _, _, _, _, -, -, rfl, -⟩ := TestSet.eq_of_toTable_ok htable
      cases hkind
      exact ⟨htables, set, hset, rfl, hconfig ▸ hnone⟩
  | provider htables hset hconfig htable =>
      obtain ⟨_, _, _, _, _, _, _, _, -, -, rfl, -⟩ := TestSet.eq_of_toTable_ok htable
      cases hkind
  | listing hset hlists =>
      obtain ⟨name, errors, rfl⟩ := hlists
      cases hkind
  | helper k => cases hkind

theorem TestSet.isCovered_of_tableObstacle {set : TestSet} {config : Config}
    (h : set.tableObstacle config = none) : set.isCovered = true := by
  cases hruns : set.executions with
  | nil =>
      simp only [tableObstacle, rows, hruns, List.filter_nil, List.isEmpty_nil, if_true] at h
      split at h <;> cases h
  | cons run rest => simp [isCovered, hruns]

section

variable {g : Generation} {sets : List TestSet} {c : Construction} {display : String}
  (hc : g.construct sets = .ok c)

include hc

theorem exists_disabledTest_iff :
    (∃ m ∈ c.file.testClass.methods, m.IsDisabledTestOf display) ↔
      g.config.isParameterized = false ∧ ∃ set ∈ sets, set.executable.display = display ∧
        ∃ run ∈ set.writable g.config, run.lacksStaticMocking g.config = true := by
  constructor
  · rintro ⟨m, hm, info, hkind, hdisplay, hdisabled⟩
    obtain ⟨hplain, set, hset, run, hrun, hwrites⟩ :=
      (Generation.construct_comesFrom hc m hm).exists_run hkind
    obtain ⟨info', hkind', hexecutable, hreason⟩ := hwrites.exists_info
    cases hkind.symm.trans hkind'
    refine ⟨hplain, set, hset, hexecutable ▸ hdisplay, run, ?_, ?_⟩
    · exact List.mem_filter.mpr ⟨hrun, by simp [hwrites.fails_eq_false]⟩
    · exact Execution.disabledReason?_eq_staticMockingReason_iff.mp (hreason.symm.trans hdisabled)
  · rintro ⟨hplain, set, hset, hdisplay, run, hrun, hlacks⟩
    obtain ⟨c', parts, hc', hmethods, hparts⟩ := Generation.construct_contributes hplain sets
    cases hc.symm.trans hc'
    obtain ⟨m, hm, hwrites⟩ := TestSet.exists_test_of_contributes hparts hset hrun
    obtain ⟨info, hkind, hexecutable, hreason⟩ := hwrites.exists_info
    refine ⟨m, List.mem_append_left _ (hmethods ▸ hm), info, hkind, hexecutable ▸ hdisplay,
      hreason.trans ?_⟩
    exact Execution.disabledReason?_eq_staticMockingReason_iff.mpr hlacks

theorem exists_table_iff :
    (∃ m ∈ c.file.testClass.methods, m.IsTableOf display) ↔
      g.config.isParameterized = true ∧ ∃ set ∈ sets, set.executable.display = display ∧
        set.tableObstacle g.config = none := by
  constructor
  · rintro ⟨m, hm, e, provider, hkind, hdisplay⟩
    obtain ⟨htables, set, hset, rfl, hnone⟩ :=
      (Generation.construct_comesFrom hc m hm).exists_table hkind
    exact ⟨htables, set, hset, hdisplay, hnone⟩
  · rintro ⟨htables, set, hset, hdisplay, hnone⟩
    obtain ⟨c', parts, hc', hparts⟩ := Generation.construct_parts htables sets
    cases hc.symm.trans hc'
    have hmem : set ∈ parts.map TablePart.set := by
      rw [hparts.sets_eq]
      exact List.mem_filter.mpr ⟨hset, TestSet.isCovered_of_tableObstacle hnone⟩
    obtain ⟨p, hp, rfl⟩ := List.mem_map.mp hmem
    have hholds := hparts.holds p hp
    obtain ⟨t, -, -, ht, -⟩ := hholds.tabulates.built hnone
    obtain ⟨listings, hmethods, -⟩ := hholds.methods
    have htest : t.test ∈ p.region.methods := by
      rw [hmethods, TablePart.tests, ht]
      simp
    have hregions : t.test ∈ c.file.testClass.regions.flatMap Region.methods := by
      rw [hparts.regions_eq]
      exact List.mem_flatMap.mpr ⟨p.region, List.mem_map_of_mem hp, htest⟩
    exact ⟨t.test, List.mem_append_left _ hregions, _, _, (hholds.tabulates.kind_eq ht).1, hdisplay⟩

end

/-- The warnings of a report, and when they describe the tests of the class: when a test or a table
of an executable with the same displayed name can be built. -/
theorem warnings_describe_iff (g : Generation) (sets : List TestSet) :
    ∃ c, g.construct sets = .ok c ∧
      c.report.warnings = (sets.flatMap fun set => set.warnings g.config).eraseDups ∧
      ((∀ display, disabledWarning display ∈ c.report.warnings →
          ∃ m ∈ c.file.testClass.methods, m.IsDisabledTestOf display) ↔
        (g.config.isParameterized = false → ∀ set ∈ sets, ∀ run ∈ set.executions,
          (run.warning? g.config set.executable).isSome →
          ∃ other ∈ sets, other.executable.display = set.executable.display ∧
            ∃ run ∈ other.writable g.config, run.lacksStaticMocking g.config = true)) ∧
      ((∀ n display, skippedWarning n display ∈ c.report.warnings →
          ∃ m ∈ c.file.testClass.methods, m.IsTableOf display) ↔
        (g.config.isParameterized = true → ∀ set ∈ sets, (set.tableWarning? g.config).isSome →
          ∃ other ∈ sets, other.executable.display = set.executable.display ∧
            other.tableObstacle g.config = none)) := by
  obtain ⟨c, hc, hwarnings⟩ := g.construct_warnings sets
  refine ⟨c, hc, hwarnings, ?_, ?_⟩
  · simp only [hwarnings, disabledWarning_mem_iff, exists_disabledTest_iff hc]
    constructor
    · intro hdescribed hplain set hset run hrun hsome
      exact (hdescribed _ ⟨hplain, set, hset, rfl, run, hrun, hsome⟩).2
    · rintro hcondition _ ⟨hplain, set, hset, rfl, run, hrun, hsome⟩
      exact ⟨hplain, hcondition hplain set hset run hrun hsome⟩
  · have hmem : ∀ n display, skippedWarning n display ∈ c.report.warnings →
        g.config.isParameterized = true ∧ ∃ set ∈ sets, set.executable.display = display ∧
          (set.tableWarning? g.config).isSome := fun n display h =>
      skippedWarning_mem_iff.mp ⟨n, hwarnings ▸ h⟩
    simp only [exists_table_iff hc]
    constructor
    · intro hdescribed htables set hset hsome
      obtain ⟨n, hn⟩ := skippedWarning_mem_iff.mpr ⟨htables, set, hset, rfl, hsome⟩
      exact (hdescribed n _ (hwarnings ▸ hn)).2
    · intro hcondition n display hn
      obtain ⟨htables, set, hset, rfl, hsome⟩ := hmem n display hn
      exact ⟨htables, hcondition htables set hset hsome⟩

/-- One run with a stubbed static method, and with an argument too many. -/
def stubbedClock : TestSet :=
  ⟨⟨⟨"shop", "Calc"⟩, "now", [], .primitive .long, .staticMethod⟩,
    [{ Execution.ofArguments [.literal (.int 1)] (.success (some (.literal (.long 7)))) with
        staticStubs := [⟨⟨"java.lang", "System"⟩, "nanoTime", .literal (.long 7)⟩] }], [], .empty⟩

/-- The run is given up and leaves the warning that its test is disabled. -/
theorem discarded_run_leaves_warning :
    ∃ c, (Generation.new ⟨"shop", "Calc"⟩ (.forLanguage .java)).construct [stubbedClock] = .ok c ∧
      disabledWarning "shop.Calc.now" ∈ c.report.warnings ∧
      ¬∃ m ∈ c.file.testClass.methods, m.IsDisabledTestOf "shop.Calc.now" := by
  obtain ⟨c, hc, hwarnings⟩ :=
    (Generation.new ⟨"shop", "Calc"⟩ (.forLanguage .java)).construct_warnings [stubbedClock]
  refine ⟨c, hc, ?_, ?_⟩
  · rw [hwarnings, disabledWarning_mem_iff]
    exact ⟨rfl, stubbedClock, List.mem_cons_self, by decide, _, List.mem_cons_self, by decide⟩
  · rw [exists_disabledTest_iff hc]
    rintro ⟨-, set, hset, -, run, hrun, -⟩
    obtain rfl := List.mem_singleton.mp hset
    have hnone : (stubbedClock.writable (.forLanguage .java)).isEmpty = true := by decide
    have hwritten : run ∈ stubbedClock.writable (.forLanguage .java) := hrun
    rw [List.isEmpty_iff.mp hnone] at hwritten
    cases hwritten

end TestWriter
