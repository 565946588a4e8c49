import TestWriter.Build.Table

/-!
# Builds taken apart

What a build consists of when it succeeds: the draft of the body that was started in the generation,
and the names that were taken before and after.
-/

namespace TestWriter

open Build

/-- A generation with other method names. -/
def Generation.named (g : Generation) (names : MethodNames) : Generation :=
  { g with usage := { g.usage with names := names } }

theorem Draft.writing_eq_ok {α : Type} {m : Build Draft α} {a : α} {g g' : Generation} :
    writing m g = .ok a g' ↔ ∃ d, m (start g) = .ok a d ∧ d.generation = g' := by
  simp only [writing]
  cases h : m (start g) with
  | ok b d =>
      constructor
      · intro hok
        cases hok
        exact ⟨d, rfl, rfl⟩
      · rintro ⟨d', hd, rfl⟩
        cases hd
        rfl
  | error e d =>
      constructor
      · intro hok
        cases hok
      · rintro ⟨d', hd, -⟩
        cases hd

theorem Execution.checkStaticMocking_cases (run : Execution) (config : Config) :
    run.checkStaticMocking config = pure () ∨
      ∃ cause, run.checkStaticMocking config = refuse cause := by
  simp only [checkStaticMocking]
  split
  · exact Or.inr ⟨_, rfl⟩
  · exact Or.inl rfl

theorem Execution.state_of_checkStaticMocking_ok (run : Execution) {config : Config}
    {g g' : Generation} (h : run.checkStaticMocking config g = .ok () g') : g = g' := by
  rcases run.checkStaticMocking_cases config with hpure | ⟨cause, hrefuse⟩
  · rw [hpure] at h
    exact (pure_eq_ok.mp h).2
  · rw [hrefuse] at h
    exact absurd h refuse_ne_ok

theorem TestSet.checkTable_cases (set : TestSet) (config : Config) :
    set.checkTable config = pure () ∨ ∃ cause, set.checkTable config = refuse cause := by
  simp only [checkTable]
  split
  · exact Or.inr ⟨_, rfl⟩
  · split
    · exact Or.inr ⟨_, rfl⟩
    · split
      · exact Or.inr ⟨_, rfl⟩
      · exact Or.inl rfl

theorem TestSet.state_of_checkTable_ok (set : TestSet) {config : Config} {g g' : Generation}
    (h : set.checkTable config g = .ok () g') : g = g' := by
  rcases set.checkTable_cases config with hpure | ⟨cause, hrefuse⟩
  · rw [hpure] at h
    exact (pure_eq_ok.mp h).2
  · rw [hrefuse] at h
    exact absurd h refuse_ne_ok

/-- A declaration takes the next free name and adds one statement. -/
theorem Draft.eq_of_declare_ok {base : String} {type : DataType} {initial x : Expr} {d d' : Draft}
    (h : declare base type initial d = .ok x d') :
    x = .ref (d.supply.claimVariable base).1 ∧
      d' = { d with
        supply := (d.supply.claimVariable base).2
        statements := d.statements ++
          [.declare (d.supply.claimVariable base).1 type false (some initial)] } := by
  obtain ⟨name, d₁, hname, h⟩ := bind_eq_ok.mp h
  obtain ⟨_, d₂, hpush, h⟩ := bind_eq_ok.mp h
  obtain ⟨rfl, rfl⟩ := pure_eq_ok.mp h
  cases hname
  cases hpush
  exact ⟨rfl, rfl⟩

/-- The variable for the result of a call is declared with the call, above a blank line. -/
theorem Draft.exists_draft_of_declareActual_ok {e : Executable} {call actual : Expr} {d d' : Draft}
    (h : declareActual e call d = .ok actual d') :
    ∃ d₁, declare "actual" e.returnType call d = .ok actual d₁ ∧ push .blank d₁ = .ok () d' := by
  obtain ⟨x, d₁, hx, h⟩ := bind_eq_ok.mp h
  obtain ⟨_, d₂, hblank, h⟩ := bind_eq_ok.mp h
  obtain ⟨rfl, rfl⟩ := pure_eq_ok.mp h
  exact ⟨d₁, hx, hblank⟩

/-- The body of a run is made of the statements for its call and its stubs, the scopes of its stubs
and, inside them, the statements for its outcome. -/
theorem Draft.exists_drafts_of_bodyOfRun_ok {config : Config} {e : Executable} {run : Execution}
    {d d' : Draft} {body : List Stmt} (h : bodyOfRun config e run d = .ok body d') :
    ∃ call d₁ d₂ scopes d₃ d₄,
      callOfRun config.language e (argumentNames config e) run d = .ok call d₁ ∧
      markStatics (run.writtenStubs config) d₁ = .ok () d₂ ∧
      staticScopes config.language (run.writtenStubs config) d₂ = .ok scopes d₃ ∧
      checkOutcome config e run call { d₃ with statements := [] } = .ok () d₄ ∧
      body = apart d₃.statements (StaticScope.enclose scopes d₄.statements) ∧
      d' = { d₄ with statements := [] } := by
  obtain ⟨call, d₁, hcall, h⟩ := bind_eq_ok.mp h
  obtain ⟨_, d₂, hmark, h⟩ := bind_eq_ok.mp h
  obtain ⟨scopes, d₃, hscopes, h⟩ := bind_eq_ok.mp h
  obtain ⟨arrange, _, hdrain, h⟩ := bind_eq_ok.mp h
  obtain ⟨_, d₄, hcheck, h⟩ := bind_eq_ok.mp h
  obtain ⟨act, _, hdrain', h⟩ := bind_eq_ok.mp h
  obtain ⟨rfl, rfl⟩ := pure_eq_ok.mp h
  cases hdrain
  cases hdrain'
  exact ⟨call, d₁, d₂, scopes, d₃, d₄, hcall, hmark, hscopes, hcheck, rfl, rfl⟩

/-- The body of a data provider is made of the statements for its rows, which it returns. -/
theorem Draft.exists_rows_of_providerBody_ok {language : Language} {e : Executable}
    {columns : List Column} {rows : List Execution} {d d' : Draft} {body : List Stmt}
    (h : providerBody language e columns rows d = .ok body d') :
    ∃ exprs d₁, tableRows language e columns rows d = .ok exprs d₁ ∧
      body = apart d₁.statements [.ret (some (.arrayOf (.array .any) exprs))] ∧
      d' = { d₁ with statements := [] } := by
  obtain ⟨exprs, d₁, hrows, h⟩ := bind_eq_ok.mp h
  obtain ⟨arrange, _, hdrain, h⟩ := bind_eq_ok.mp h
  obtain ⟨rfl, rfl⟩ := pure_eq_ok.mp h
  cases hdrain
  exact ⟨exprs, d₁, hrows, rfl, rfl⟩

/-- The body of a parameterized test is made of the statements that check a row. -/
theorem Draft.exists_drafts_of_tableBody_ok {language : Language} {e : Executable}
    {columns : List Column} {d d' : Draft} {body : List Stmt}
    (h : tableBody language e columns d = .ok body d') :
    ∃ d₁ d₂, takeVariables (columns.map fun c => c.parameter.name) d = .ok () d₁ ∧
      checkRow language e columns d₁ = .ok () d₂ ∧ body = branchOnError e columns d₂.statements ∧
      d' = { d₂ with statements := [] } := by
  obtain ⟨_, d₁, hnames, h⟩ := bind_eq_ok.mp h
  obtain ⟨_, d₂, hcheck, h⟩ := bind_eq_ok.mp h
  obtain ⟨success, _, hdrain, h⟩ := bind_eq_ok.mp h
  obtain ⟨rfl, rfl⟩ := pure_eq_ok.mp h
  cases hdrain
  exact ⟨d₁, d₂, hnames, hcheck, rfl, rfl⟩

/-- A test that is written has the body of its run and takes its name after it. -/
theorem Execution.exists_draft_of_toTest_ok {run : Execution} {e : Executable} {g g' : Generation}
    {m : Method} (h : run.toTest e g = .ok m g') :
    ∃ body d, Draft.bodyOfRun g.config e run (.start g) = .ok body d ∧
      m = run.testWith g.config e (d.generation.usage.names.test e run).1 body ∧
      g' = d.generation.named (d.generation.usage.names.test e run).2 := by
  obtain ⟨_, g₁, hcheck, h⟩ := bind_eq_ok.mp h
  obtain rfl := run.state_of_checkStaticMocking_ok hcheck
  obtain ⟨body, g₂, hbody, h⟩ := bind_eq_ok.mp h
  obtain ⟨d, hd, rfl⟩ := Draft.writing_eq_ok.mp hbody
  obtain ⟨name, g₃, hname, h⟩ := bind_eq_ok.mp h
  cases hname
  obtain ⟨rfl, rfl⟩ := pure_eq_ok.mp h
  exact ⟨body, d, hd, rfl, rfl⟩

theorem Execution.eq_of_toTest_ok {run : Execution} {e : Executable} {g g' : Generation}
    {m : Method} (h : run.toTest e g = .ok m g') :
    ∃ body d name names, Draft.bodyOfRun g.config e run (.start g) = .ok body d ∧
      m = run.testWith g.config e name body ∧ g' = d.generation.named names := by
  obtain ⟨body, d, hd, hm, hg⟩ := exists_draft_of_toTest_ok h
  exact ⟨body, d, _, _, hd, hm, hg⟩

/-- A table that is written has the bodies for its set; the data provider takes its name before
them, and the test after them. -/
theorem TestSet.exists_drafts_of_toTable_ok {set : TestSet} {g g' : Generation}
    {t : ParameterizedTest} (h : set.toTable g = .ok t g') :
    ∃ providerBody d testBody d',
      Draft.providerBody g.config.language set.executable
        (Column.ofRuns g.config set.executable set.rows) set.rows
        (.start (g.named (g.usage.names.dataProvider set.executable).2)) = .ok providerBody d ∧
      Draft.tableBody g.config.language set.executable
        (Column.ofRuns g.config set.executable set.rows) (.start d.generation) =
          .ok testBody d' ∧
      t = ⟨tableTestWith set.executable (Column.ofRuns g.config set.executable set.rows)
          (d'.generation.usage.names.parameterizedTest set.executable).1
          (g.usage.names.dataProvider set.executable).1 testBody,
        providerWith (g.usage.names.dataProvider set.executable).1 providerBody⟩ ∧
      g' = d'.generation.named (d'.generation.usage.names.parameterizedTest set.executable).2 := by
  obtain ⟨_, g₁, hcheck, h⟩ := bind_eq_ok.mp h
  obtain rfl := set.state_of_checkTable_ok hcheck
  obtain ⟨providerName, g₂, hname, h⟩ := bind_eq_ok.mp h
  cases hname
  obtain ⟨providerBody, g₃, hprovider, h⟩ := bind_eq_ok.mp h
  obtain ⟨d, hd, rfl⟩ := Draft.writing_eq_ok.mp hprovider
  obtain ⟨testBody, g₄, htest, h⟩ := bind_eq_ok.mp h
  obtain ⟨d', hd', rfl⟩ := Draft.writing_eq_ok.mp htest
  obtain ⟨testName, g₅, hname', h⟩ := bind_eq_ok.mp h
  cases hname'
  obtain ⟨rfl, rfl⟩ := pure_eq_ok.mp h
  exact ⟨providerBody, d, testBody, d', hd, hd', rfl, rfl⟩

theorem TestSet.eq_of_toTable_ok {set : TestSet} {g g' : Generation} {t : ParameterizedTest}
    (h : set.toTable g = .ok t g') :
    ∃ names providerBody d testBody d' providerName testName names',
      Draft.providerBody g.config.language set.executable
        (Column.ofRuns g.config set.executable set.rows) set.rows (.start (g.named names)) =
          .ok providerBody d ∧
      Draft.tableBody g.config.language set.executable
        (Column.ofRuns g.config set.executable set.rows) (.start d.generation) =
          .ok testBody d' ∧
      t = ⟨tableTestWith set.executable (Column.ofRuns g.config set.executable set.rows) testName
        providerName testBody, providerWith providerName providerBody⟩ ∧
      g' = d'.generation.named names' := by
  obtain ⟨providerBody, d, testBody, d', hd, hd', ht, hg⟩ := exists_drafts_of_toTable_ok h
  exact ⟨_, providerBody, d, testBody, d', _, _, _, hd, hd', ht, hg⟩

end TestWriter
