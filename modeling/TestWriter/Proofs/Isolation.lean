import TestWriter.Proofs.Regions

/-!
# Failures stay isolated

A run that cannot be written as a test leaves its count and nothing else.  Main statements: what a
failed build did is taken back but for the count of its error, and the tests of a set are those of
the set without the runs that fail, with the same helpers and the same use of mock objects after
them.
-/

namespace TestWriter

/-- Whether the method is the test of a single run. -/
def Method.isRunTest (m : Method) : Bool :=
  match m.kind with
  | .test _ => true
  | _ => false

/-- The tests of single runs in the region of a set, depth first. -/
def Region.runTests (r : Option Region) : List Method :=
  (r.toList.flatMap Region.methods).filter Method.isRunTest

/-- The set without the runs whose build fails, with clusters of its own. -/
def TestSet.withoutFailures (set : TestSet) (config : Config) (clusters : List Cluster) :
    TestSet :=
  { set with
    executions := set.executions.filter fun run => !run.fails config set.executable
    clusters := clusters }

/-- A build is given up for a recoverable cause only.  When the record of use is restored and the
error is counted, the count is all that is left of it. -/
def Generation.RecoversFrom {α : Type} (g : Generation) (e : Executable)
    (m : Build Generation α) : Prop :=
  ∀ err g', m g = .error err g' →
    (∃ cause, err = .build cause) ∧
      ∃ h, (g'.restore g.usage).tally err.message = .ok h ∧ g.CountsOneMore h e err.message

theorem Execution.toTest_recovers {g : Generation} {e : Executable} (hcur : g.current = some e)
    (run : Execution) : g.RecoversFrom e (run.toTest e) := by
  intro err g' herr
  obtain ⟨cause, -, rfl⟩ := Execution.obstacle_of_toTest_error herr
  rw [Execution.restore_of_toTest_error herr]
  exact ⟨⟨cause, rfl⟩, _, Generation.tally_of_current hcur _, g.tallyAt_countsOneMore e _⟩

theorem TestSet.toTable_recovers {g : Generation} {set : TestSet}
    (hcur : g.current = some set.executable) : g.RecoversFrom set.executable set.toTable := by
  intro err g' herr
  obtain ⟨cause, -, rfl⟩ := TestSet.obstacle_of_toTable_error herr
  rw [TestSet.restore_of_toTable_error herr]
  exact ⟨⟨cause, rfl⟩, _, Generation.tally_of_current hcur _, g.tallyAt_countsOneMore _ _⟩

theorem Execution.isRunTest_of_toTest_ok {run : Execution} {e : Executable} {g g' : Generation}
    {m : Method} (h : run.toTest e g = .ok m g') : m.isRunTest = true := by
  obtain ⟨body, d, name, names, -, rfl, -⟩ := Execution.eq_of_toTest_ok h
  rfl

namespace Assembly

variable {a b : Assembly} {config : Config} {e : Executable}

/-- Two classes in the making, inside the scope of one executable, that no build tells apart. -/
structure Alike (config : Config) (e : Executable) (a b : Assembly) : Prop where
  config_left : a.generation.config = config
  config_right : b.generation.config = config
  current_left : a.generation.current = some e
  current_right : b.generation.current = some e
  usage : a.generation.usage = b.generation.usage

/-- A test that is written beside one class is written beside the other, with the same traces. -/
theorem Alike.tested (h : Alike config e a b) {run : Execution} {m : Method} {g : Generation}
    (htest : run.toTest e a.generation = .ok m g)
    (hrun : run.obstacle config e = none) :
    ∃ a' b', addRun e run a = .ok (some m) a' ∧ addRun e run b = .ok (some m) b' ∧
      Alike config e a' b' := by
  have hlocal := run.toTestUnder_local config e
  have hmoved : run.toTest e b.generation = .ok m (b.generation.restore g.usage) := by
    have hb : b.generation.restore a.generation.usage = b.generation := by
      rw [h.usage]
      rfl
    have hrunAt := hlocal b.generation a.generation
    dsimp only at hrunAt
    rw [hb] at hrunAt
    simp only [Execution.toTest] at htest ⊢
    rw [h.config_left] at htest
    rw [h.config_right, hrunAt, htest]
    rfl
  rcases addRun_cases h.current_left run with ⟨-, m₁, g₁, h₁, heq₁⟩ | ⟨cause, ho, -⟩
  · rcases addRun_cases h.current_right run with ⟨-, m₂, g₂, h₂, heq₂⟩ | ⟨cause, ho, -⟩
    · rw [htest] at h₁
      rw [hmoved] at h₂
      cases h₁
      cases h₂
      have hg := Execution.restore_of_toTest_ok htest
      have hconfig := congrArg Generation.config hg
      have hcurrent := congrArg Generation.current hg
      exact ⟨_, _, heq₁, heq₂, ⟨hconfig.trans h.config_left, h.config_right,
        hcurrent.trans h.current_left, h.current_right, rfl⟩⟩
    · rw [h.config_right, hrun] at ho
      cases ho
  · rw [h.config_left, hrun] at ho
    cases ho

/-- The runs of an executable write the same tests with and without those that fail. -/
theorem addRuns_filter (h : Alike config e a b) (runs : List Execution) :
    ∃ ms a' b', addRuns e runs a = .ok ms a' ∧
      addRuns e (runs.filter fun run => !run.fails config e) b = .ok ms b' ∧
      Alike config e a' b' ∧ ∀ m ∈ ms, m.isRunTest = true := by
  induction runs generalizing a b with
  | nil => exact ⟨[], a, b, rfl, rfl, h, by simp⟩
  | cons run rest ih =>
      rcases addRun_cases h.current_left run with ⟨ho, m, g, htest, -⟩ | ⟨cause, ho, heq⟩
      · rw [h.config_left] at ho
        obtain ⟨a₁, b₁, hrun, hrun', h₁⟩ := h.tested htest ho
        obtain ⟨ms, a₂, b₂, hrest, hrest', h₂, htests⟩ := ih h₁
        have hkept : run.fails config e = false := by simp [Execution.fails, ho]
        refine ⟨_, a₂, b₂, addRuns_cons_eq hrun hrest, ?_, h₂, ?_⟩
        · rw [List.filter_cons_of_pos (by simp [hkept])]
          exact addRuns_cons_eq hrun' hrest'
        · intro k hk
          rcases List.mem_cons.mp hk with rfl | hk
          · exact Execution.isRunTest_of_toTest_ok htest
          · exact htests k hk
      · rw [h.config_left] at ho
        have hcounted : Alike config e
            (a.counted (run.warning? a.generation.config e) e cause.message) b :=
          ⟨h.config_left, h.config_right, h.current_left, h.current_right, h.usage⟩
        obtain ⟨ms, a₂, b₂, hrest, hrest', h₂, htests⟩ := ih hcounted
        have hdropped : run.fails config e = true := by simp [Execution.fails, ho]
        refine ⟨ms, a₂, b₂, addRuns_cons_eq heq hrest, ?_, h₂, htests⟩
        rw [List.filter_cons_of_neg (by simp [hdropped])]
        exact hrest'

/-- Listing errors adds no test of a run, calls no helper and creates no mock object. -/
theorem addErrors_keeps (set : TestSet) (a : Assembly) :
    ∃ items b, addErrors set a = .ok items b ∧
      (Region.methodsOf items).filter Method.isRunTest = [] ∧
      b.generation.usage.required = a.generation.usage.required ∧
      b.generation.usage.mocks = a.generation.usage.mocks := by
  rcases addErrors_cases set a with ⟨-, heq⟩ | ⟨-, items, hmethods, heq⟩
  · exact ⟨[], a, heq, rfl, rfl, rfl⟩
  · exact ⟨items, _, heq, by rw [hmethods]; rfl, rfl, rfl⟩

/-- The region of a set without table holds the tests of its runs. -/
theorem addSet_of_addRuns (set : TestSet) {ms : List Method}
    (hplain : a.generation.config.isParameterized = false)
    (h : addRuns set.executable set.executions (a.entered set.executable) = .ok ms b)
    (hms : ∀ m ∈ ms, m.isRunTest = true) :
    ∃ r c, addSet set a = .ok r c ∧ Region.runTests r = ms ∧
      c.generation.usage.required = b.generation.usage.required ∧
      c.generation.usage.mocks = b.generation.usage.mocks := by
  obtain ⟨items, hitems, hmethods⟩ := addGroups_groups rfl h
  have htests : addTests set (a.entered set.executable) = .ok items b := by
    simp only [addTests]
    rw [if_neg (by simpa [entered, Generation.enter] using hplain)]
    exact hitems
  obtain ⟨more, c, hmore, hnone, hrequired, hmocks⟩ := addErrors_keeps set b
  obtain ⟨r, hr, hall⟩ := addSet_eq htests hmore
  refine ⟨r, _, hr, ?_, hrequired, hmocks⟩
  rw [Region.runTests, hall, Region.methodsOf_append, List.filter_append, hnone, hmethods,
    List.append_nil, List.filter_eq_self.mpr hms]

end Assembly

/-- A failure leaves its count and nothing else.  In the scope of a set, a test or a table that
cannot be built changes the generation by the count of its error alone; and where each run has its
own test, the tests of a set and what they use are those of the set without the runs that fail. -/
theorem failures_are_isolated (set : TestSet) :
    (∀ g : Generation, g.current = some set.executable →
      (∀ run : Execution, g.RecoversFrom set.executable (run.toTest set.executable)) ∧
        g.RecoversFrom set.executable set.toTable) ∧
    ∀ (a : Assembly) (clusters : List Cluster), a.generation.config.isParameterized = false →
      (∀ (run : Execution) (g : Generation), g.config = a.generation.config →
        ((∃ err g', run.toTest set.executable g = .error err g') ↔
          run.fails a.generation.config set.executable = true)) ∧
      ∃ r b r' b', Assembly.addSet set a = .ok r b ∧
        Assembly.addSet (set.withoutFailures a.generation.config clusters) a = .ok r' b' ∧
        Region.runTests r = Region.runTests r' ∧
        b.generation.usage.required = b'.generation.usage.required ∧
        b.generation.usage.mocks = b'.generation.usage.mocks := by
  constructor
  · intro g hcur
    exact ⟨Execution.toTest_recovers hcur, TestSet.toTable_recovers hcur⟩
  · intro a clusters hplain
    refine ⟨fun run g hg => hg ▸ run.toTest_isError_iff set.executable g, ?_⟩
    have halike : Assembly.Alike a.generation.config set.executable
        (a.entered set.executable) (a.entered set.executable) := ⟨rfl, rfl, rfl, rfl, rfl⟩
    obtain ⟨ms, b, b', hruns, hkept, h, hms⟩ := Assembly.addRuns_filter halike set.executions
    obtain ⟨r, c, hr, htests, hrequired, hmocks⟩ := Assembly.addSet_of_addRuns set hplain hruns hms
    obtain ⟨r', c', hr', htests', hrequired', hmocks'⟩ :=
      Assembly.addSet_of_addRuns (set.withoutFailures a.generation.config clusters) hplain hkept
        hms
    refine ⟨r, c, r', c', hr, hr', htests.trans htests'.symm, ?_, ?_⟩
    · rw [hrequired, hrequired', h.usage]
    · rw [hmocks, hmocks', h.usage]

/-- A method without parameters, called once on an object that is rebuilt by reflection and once on
a receiver that was lost. -/
def lostReceiver : TestSet :=
  let owner : ClassName := ⟨"shop", "Cart"⟩
  let run := Execution.ofArguments [] .completed
  { executable := ⟨owner, "clear", [], .void, .method⟩
    executions := [{ run with receiver := some (.reflective owner []) }, run]
    clusters := []
    errors := .empty }

/-- The lost receiver ends the table after the first row has called a helper, and it ends the test
of the second run. -/
theorem failures_are_isolated_lostReceiver :
    let g := (Generation.new ⟨"shop", "Cart"⟩ (.forLanguage .java)).enter lostReceiver.executable
    let a := Assembly.start (.new ⟨"shop", "Cart"⟩ (.forLanguage .java))
    g.current = some lostReceiver.executable ∧
      (∃ err g' h, lostReceiver.toTable g = .error err g' ∧
        (g'.restore g.usage).tally err.message = .ok h ∧
        g.CountsOneMore h lostReceiver.executable err.message) ∧
      a.generation.config.isParameterized = false ∧
      (lostReceiver.withoutFailures a.generation.config []).executions.length = 1 ∧
      ∃ r b r' b', Assembly.addSet lostReceiver a = .ok r b ∧
        Assembly.addSet (lostReceiver.withoutFailures a.generation.config []) a = .ok r' b' ∧
        Region.runTests r = Region.runTests r' := by
  intro g a
  obtain ⟨hrecovers, hsame⟩ := failures_are_isolated lostReceiver
  have hfails : ∃ err g', lostReceiver.toTable g = .error err g' :=
    ((lostReceiver.toTableUnder_meets g.config).isError_iff g).mpr (by decide)
  obtain ⟨err, g', herr⟩ := hfails
  obtain ⟨-, h, htally, hcount⟩ := (hrecovers g rfl).2 err g' herr
  obtain ⟨-, r, b, r', b', hr, hr', htests, -⟩ := hsame a [] (by decide)
  exact ⟨rfl, ⟨err, g', h, herr, htally, hcount⟩, by decide, by decide, r, b, r', b', hr, hr',
    htests⟩

end TestWriter
