import TestWriter.Build.Assembly
import TestWriter.Proofs.Locality
import TestWriter.Proofs.Obstacle

/-!
# Going on after a failure

A build that is given up is counted for the executable whose test set is processed.  Main
statements: the count is the only trace that it leaves in the generation, and a test or a table is
either added to the class or counted, so neither of them ends the generation.
-/

namespace TestWriter

namespace Generation

variable {g h : Generation} {e : Executable} {message : String}

/-- The errors counted for an executable, none if there is no count yet. -/
def errorsFor (g : Generation) (e : Executable) : ErrorCounts := (g.errorsAt? e).getD .empty

/-- `h` is `g` with one more error of a message counted for an executable.  Every other count and
every other field is the same. -/
structure CountsOneMore (g h : Generation) (e : Executable) (message : String) : Prop where
  rest : h = { g with errors := h.errors }
  executables : h.errors.keys = insertLast g.errors.keys e
  messages : (h.errorsFor e).keys = insertLast (g.errorsFor e).keys message
  count : (h.errorsFor e).get? message = some (((g.errorsFor e).get? message).getD 0 + 1)
  otherMessages : ∀ m, m ≠ message → (h.errorsFor e).get? m = (g.errorsFor e).get? m
  otherExecutables : ∀ k, k ≠ e → h.errorsAt? k = g.errorsAt? k

theorem errorsAt?_tallyAt (g : Generation) (e k : Executable) (message : String) :
    (g.tallyAt e message).errorsAt? k =
      if k = e then some ((g.errorsFor e).add message 1) else g.errorsAt? k :=
  OrderedMap.get?_alter g.errors e k _

theorem errorsFor_tallyAt (g : Generation) (e : Executable) (message : String) :
    (g.tallyAt e message).errorsFor e = (g.errorsFor e).add message 1 := by
  simp only [errorsFor]
  rw [errorsAt?_tallyAt, if_pos rfl]
  rfl

theorem tallyAt_countsOneMore (g : Generation) (e : Executable) (message : String) :
    g.CountsOneMore (g.tallyAt e message) e message where
  rest := rfl
  executables := OrderedMap.keys_alter g.errors e _
  messages := by
    rw [errorsFor_tallyAt]
    exact OrderedMap.keys_alter _ _ _
  count := by
    rw [errorsFor_tallyAt]
    exact (OrderedMap.get?_alter _ _ _ _).trans (if_pos rfl)
  otherMessages := by
    intro m hm
    rw [errorsFor_tallyAt]
    exact (OrderedMap.get?_alter _ _ _ _).trans (if_neg hm)
  otherExecutables := by
    intro k hk
    rw [errorsAt?_tallyAt, if_neg hk]

theorem tally_of_current (hcur : g.current = some e) (message : String) :
    g.tally message = .ok (g.tallyAt e message) := by
  simp [tally, currentExecutable, hcur, Except.map]

end Generation

section

variable {g g' : Generation} {err : Error}

theorem Execution.restore_of_toTest_error {run : Execution} {e : Executable}
    (h : run.toTest e g = .error err g') : g'.restore g.usage = g :=
  (run.toTestUnder_local g.config e).restore_of_error h

theorem Execution.restore_of_toTest_ok {run : Execution} {e : Executable} {m : Method}
    (h : run.toTest e g = .ok m g') : g'.restore g.usage = g :=
  (run.toTestUnder_local g.config e).restore_of_ok h

theorem Execution.config_of_toTest_ok {run : Execution} {e : Executable} {m : Method}
    (h : run.toTest e g = .ok m g') : g'.config = g.config := by
  have hconfig := congrArg Generation.config (restore_of_toTest_ok h)
  exact hconfig

theorem Execution.obstacle_of_toTest_error {run : Execution} {e : Executable}
    (h : run.toTest e g = .error err g') :
    ∃ cause, run.obstacle g.config e = some cause ∧ err = .build cause :=
  (run.toTestUnder_meets g.config e).eq_of_error h

theorem TestSet.restore_of_toTable_error {set : TestSet} (h : set.toTable g = .error err g') :
    g'.restore g.usage = g :=
  (set.toTableUnder_local g.config).restore_of_error h

theorem TestSet.restore_of_toTable_ok {set : TestSet} {t : ParameterizedTest}
    (h : set.toTable g = .ok t g') : g'.restore g.usage = g :=
  (set.toTableUnder_local g.config).restore_of_ok h

theorem TestSet.config_of_toTable_ok {set : TestSet} {t : ParameterizedTest}
    (h : set.toTable g = .ok t g') : g'.config = g.config := by
  have hconfig := congrArg Generation.config (restore_of_toTable_ok h)
  exact hconfig

theorem TestSet.obstacle_of_toTable_error {set : TestSet} (h : set.toTable g = .error err g') :
    ∃ cause, set.tableObstacle g.config = some cause ∧ err = .build cause :=
  (set.toTableUnder_meets g.config).eq_of_error h

end

namespace Assembly

variable {α : Type} {a : Assembly} {m : Build Generation α} {g : Generation} {e : Executable}

theorem generation_warn (a : Assembly) (w : Option String) :
    (a.warn w).generation = a.generation := by
  cases w <;> rfl

theorem providers_warn (a : Assembly) (w : Option String) :
    (a.warn w).providers = a.providers := by
  cases w <;> rfl

/-- The class in the making after the test of a run was written. -/
def tested (a : Assembly) (w : Option String) (m : Method) (g : Generation) : Assembly :=
  { a.warn w with
    generation := g
    report := (a.warn w).report.addMethod m }

/-- The class in the making after a build was given up and counted. -/
def counted (a : Assembly) (w : Option String) (e : Executable) (message : String) : Assembly :=
  { a.warn w with generation := a.generation.tallyAt e message }

/-- The class in the making after a parameterized test was written. -/
def tabled (a : Assembly) (w : Option String) (t : ParameterizedTest) (g : Generation) : Assembly :=
  { a.tested w t.test g with providers := (a.warn w).providers ++ [t.provider] }

section

variable {ms : List Method} {k : Method}

theorem providers_tested (a : Assembly) (w : Option String) (m : Method) (g : Generation) :
    (a.tested w m g).providers = a.providers :=
  providers_warn a w

theorem providers_counted (a : Assembly) (w : Option String) (e : Executable) (message : String) :
    (a.counted w e message).providers = a.providers :=
  providers_warn a w

theorem providers_tabled (a : Assembly) (w : Option String) (t : ParameterizedTest)
    (g : Generation) : (a.tabled w t g).providers = a.providers ++ [t.provider] :=
  congrArg (· ++ [t.provider]) (providers_warn a w)

/-- The methods after a test was written are this test and the methods before. -/
theorem mem_tested_iff (w : Option String) (m : Method) :
    k ∈ ms ++ [m] ++ (a.tested w m g).providers ↔ k ∈ ms ++ a.providers ∨ k ∈ [m] := by
  rw [providers_tested]
  simp only [List.mem_append]
  exact or_right_comm

/-- The methods after a table was written are its test, its provider and the methods before. -/
theorem mem_tabled_iff (w : Option String) (t : ParameterizedTest) :
    k ∈ ms ++ [t.test] ++ (a.tabled w t g).providers ↔
      k ∈ ms ++ a.providers ∨ k ∈ [t.test, t.provider] := by
  rw [providers_tabled]
  simp only [List.mem_append, List.mem_cons, List.not_mem_nil, or_false]
  exact or_or_or_comm

end

/-- A build that succeeds after a warning. -/
theorem attempt_warn_of_ok {x : α} (w : Option String) (h : m a.generation = .ok x g) :
    attempt m (a.warn w) = .ok (some x) { a.warn w with generation := g } := by
  have hm : m (a.warn w).generation = .ok x g := by rw [generation_warn, h]
  simp only [attempt, hm]

/-- A build that is given up after a warning. -/
theorem attempt_warn_of_error {cause : BuildFailure} (w : Option String)
    (hcur : a.generation.current = some e) (h : m a.generation = .error (.build cause) g)
    (hback : g.restore a.generation.usage = a.generation) :
    attempt m (a.warn w) = .ok none (a.counted w e cause.message) := by
  have hm : m (a.warn w).generation = .error (.build cause) g := by rw [generation_warn, h]
  have htally : a.generation.tally (Error.build cause).message =
      .ok (a.generation.tallyAt e cause.message) := Generation.tally_of_current hcur cause.message
  simp only [attempt]
  rw [hm]
  dsimp only
  rw [if_neg (by simp [Error.isFatal]), generation_warn, hback, htally]
  rfl

/-- A run is either written or counted, and it is counted for its first obstacle. -/
theorem addRun_cases (hcur : a.generation.current = some e) (run : Execution) :
    (run.obstacle a.generation.config e = none ∧
      ∃ m g, run.toTest e a.generation = .ok m g ∧
        addRun e run a =
          .ok (some m) (a.tested (run.warning? a.generation.config e) m g)) ∨
    ∃ cause, run.obstacle a.generation.config e = some cause ∧
      addRun e run a =
        .ok none (a.counted (run.warning? a.generation.config e) e cause.message) := by
  have hmeets := run.toTestUnder_meets a.generation.config e a.generation
  cases ho : run.obstacle a.generation.config e with
  | none =>
      rw [ho] at hmeets
      obtain ⟨m, g, h⟩ := hmeets
      have hat := attempt_warn_of_ok (run.warning? a.generation.config e)
        (m := run.toTest e) h
      refine Or.inl ⟨rfl, m, g, h, ?_⟩
      exact Build.bind_eq_ok.mpr ⟨(), _, rfl, Build.bind_eq_ok.mpr ⟨_, _, hat, rfl⟩⟩
  | some cause =>
      rw [ho] at hmeets
      obtain ⟨g, h⟩ := hmeets
      have hat := attempt_warn_of_error (run.warning? a.generation.config e)
        (m := run.toTest e) hcur h (Execution.restore_of_toTest_error h)
      refine Or.inr ⟨cause, rfl, ?_⟩
      exact Build.bind_eq_ok.mpr ⟨(), _, rfl, Build.bind_eq_ok.mpr ⟨_, _, hat, rfl⟩⟩

/-- A table is either written or counted, and it is counted for its first obstacle. -/
theorem addTable_cases {set : TestSet} (hcur : a.generation.current = some set.executable) :
    (set.tableObstacle a.generation.config = none ∧
      ∃ t g, set.toTable a.generation = .ok t g ∧
        addTable set a =
          .ok [.method t.test] (a.tabled (set.tableWarning? a.generation.config) t g)) ∨
    ∃ cause, set.tableObstacle a.generation.config = some cause ∧
      addTable set a =
        .ok [] (a.counted (set.tableWarning? a.generation.config) set.executable
          cause.message) := by
  have hmeets := set.toTableUnder_meets a.generation.config a.generation
  cases ho : set.tableObstacle a.generation.config with
  | none =>
      rw [ho] at hmeets
      obtain ⟨t, g, h⟩ := hmeets
      have hat := attempt_warn_of_ok (set.tableWarning? a.generation.config)
        (m := set.toTable) h
      refine Or.inl ⟨rfl, t, g, h, ?_⟩
      exact Build.bind_eq_ok.mpr ⟨(), _, rfl, Build.bind_eq_ok.mpr ⟨_, _, hat, rfl⟩⟩
  | some cause =>
      rw [ho] at hmeets
      obtain ⟨g, h⟩ := hmeets
      have hat := attempt_warn_of_error (set.tableWarning? a.generation.config)
        (m := set.toTable) hcur h (TestSet.restore_of_toTable_error h)
      refine Or.inr ⟨cause, rfl, ?_⟩
      exact Build.bind_eq_ok.mpr ⟨(), _, rfl, Build.bind_eq_ok.mpr ⟨_, _, hat, rfl⟩⟩

end Assembly

end TestWriter
