import TestWriter.Proofs.Checks

/-!
# Checks of rows

A parameterized test makes its check once for each row, and reads off the row what it expects: an
error where there is one, and otherwise a value as soon as some run of the set returned one.  Main
statement: the check of a row is that of the test of its run, unless the run failed by itself and
failures are let through, or it returned without a value and another run returned one.
-/

namespace TestWriter

/-! ## Rows as readings -/

/-- The operand of a cast, and any other expression itself. -/
def Expr.uncast : Expr → Expr
  | .cast _ operand => operand
  | e => e

/-- How expressions are read in a row that gives variables their cells, which stand for values in a
memory. -/
def Memory.rowReading (m : Memory) (row : List (String × Expr)) : Reading where
  stands x v := ∃ name cell, x.uncast = .ref name ∧ row.lookup name = some cell ∧
    cell.StandsFor m 0 v
  names x owner := ∃ name, x = .ref name ∧ row.lookup name = some (.classOf owner)

/-- The statements that are run for a row: a branch on whether a variable is the absent value is
decided by its cell. -/
def Stmt.onRow (row : List (String × Expr)) : Stmt → List Stmt
  | .branch (.equal (.ref name) (.literal .null)) thenBody elseBody =>
    if (row.lookup name).any Expr.isNull then thenBody else elseBody
  | s => [s]

/-- The cells of a row by the names of the parameters. -/
def ParameterizedTest.row (t : ParameterizedTest) (cells : List Expr) : List (String × Expr) :=
  (t.test.parameters.map Parameter.name).zip cells

/-- A parameterized test makes a check of the call of a run on one of the rows that its data provider
returns, whatever the memory in which the data provider starts. -/
def ParameterizedTest.ChecksRow (t : ParameterizedTest) (e : Executable) (run : Execution) (i : Nat)
    (c : Check) : Prop :=
  ∃ before rows cells,
    t.provider.body = before ++ [.ret (some (.arrayOf (.array .any) rows))] ∧
    rows[i]? = some (.arrayOf .any cells) ∧
    ∀ m, Stmt.Perform (fun _ => (Stmt.remember before m).rowReading (t.row cells)) e run
      (t.test.body.flatMap (Stmt.onRow (t.row cells))) c

/-- Whether a run of the set returned a value that is looked at. -/
def TestSet.expectsValues (set : TestSet) : Bool :=
  set.rows.any fun run => (run.result? set.executable).isSome

/-- The check of the row of a run: a failure is always asserted, and a value is compared with if any
run returned one. -/
def TestSet.rowCheck (set : TestSet) (run : Execution) : Check :=
  match run.outcome with
  | .runtimeFailure exception _ _ => .throws exception
  | _ =>
    if set.expectsValues then .ofValue ((run.result? set.executable).getD (.literal .null))
    else .runs

theorem Memory.functional_rowReading (m : Memory) (row : List (String × Expr)) :
    (m.rowReading row).Functional where
  stands := by
    rintro x v w ⟨name, cell, hx, hcell, hv⟩ ⟨name', cell', hx', hcell', hw⟩
    cases hx.symm.trans hx'
    cases hcell.symm.trans hcell'
    exact hv.unique hw
  names := by
    rintro _ c c' ⟨name, rfl, hcell⟩ ⟨name', hx', hcell'⟩
    cases hx'
    cases hcell.symm.trans hcell'
    rfl

/-- A row is checked in one way at most. -/
theorem ParameterizedTest.checksRow_iff {t : ParameterizedTest} {e : Executable} {run : Execution}
    {i : Nat} {c : Check} (h : t.ChecksRow e run i c) (d : Check) :
    t.ChecksRow e run i d ↔ d = c := by
  constructor
  · rintro ⟨before, rows, cells, hbody, hrow, hperform⟩
    obtain ⟨before', rows', cells', hbody', hrow', hperform'⟩ := h
    obtain ⟨rfl, hlast⟩ := List.append_inj' (hbody.symm.trans hbody') rfl
    cases hlast
    cases hrow.symm.trans hrow'
    exact (hperform ⟨[], []⟩).unique (fun _ => Memory.functional_rowReading _ _)
      (hperform' ⟨[], []⟩)
  · rintro rfl
    exact h

/-! ## Columns and cells -/

namespace Column

section

variable {columns : List Column} {role : ColumnRole} {x : Expr}

theorem exists_of_reference? (h : reference? columns role = some x) :
    ∃ c ∈ columns, c.role = role ∧ x = .ref c.parameter.name := by
  obtain ⟨c, hfind, rfl⟩ := Option.map_eq_some_iff.mp h
  exact ⟨c, List.mem_of_find?_eq_some hfind, by simpa using List.find?_some hfind, rfl⟩

theorem isSome_reference?_iff :
    (reference? columns role).isSome = true ↔ role ∈ columns.map Column.role := by
  simp [reference?]

end

/-- The cell of a column is found by its name, when the names are different. -/
theorem exists_lookup {P : Column → Expr → Prop} {columns : List Column} {cells : List Expr}
    (hnames : (names columns).Nodup) (hcells : List.Forall₂ P columns cells) {c : Column}
    (hc : c ∈ columns) :
    ∃ x, ((names columns).zip cells).lookup c.parameter.name = some x ∧ P c x := by
  induction hcells with
  | nil => cases hc
  | cons hfirst hrest ih =>
      rename_i first cell rest cells
      obtain ⟨hnew, hnames⟩ := List.nodup_cons.mp hnames
      rcases List.mem_cons.mp hc with rfl | hc
      · exact ⟨cell, by simp [names], hfirst⟩
      · have hne : (c.parameter.name == first.parameter.name) = false := by
          refine beq_eq_false_iff_ne.mpr fun heq => hnew ?_
          exact List.mem_map.mpr ⟨c, hc, heq⟩
        obtain ⟨x, hx, hP⟩ := ih hnames hc
        refine ⟨x, ?_, hP⟩
        rw [← hx]
        simp only [names, List.map_cons, List.zip_cons_cons, List.lookup_cons, hne]

theorem argumentRefs_eq_nil {columns : List Column}
    (h : ∀ r ∈ columns.map role, ∀ i, r ≠ .argument i) : argumentRefs columns = [] := by
  refine List.filterMap_eq_nil_iff.mpr fun c hc => ?_
  split
  · next i hrole => exact absurd hrole (h _ (List.mem_map_of_mem hc) i)
  · rfl

theorem argumentRefs_eq_map {columns : List Column}
    (h : ∀ r ∈ columns.map role, ∃ i, r = .argument i) :
    argumentRefs columns = columns.map fun c => .ref c.parameter.name := by
  rw [← List.filterMap_eq_map]
  refine List.filterMap_congr fun c hc => ?_
  obtain ⟨i, hrole⟩ := h _ (List.mem_map_of_mem hc)
  simp [hrole]

/-- The roles of the columns of some runs, in order. -/
theorem map_role_ofRuns (config : Config) (e : Executable) (rows : List Execution) :
    (ofRuns config e rows).map role =
      ((if e.kind = .method then [.receiver] else []) ++
        (List.range e.parameters.length).map .argument) ++
      ((if rows.any fun run => (run.result? e).isSome then [.expected] else []) ++
        if rows.any Execution.failed then [.expectedError] else []) := by
  have hroles := congrArg (List.map Prod.fst) (roles_ofRuns config e rows)
  have harguments : (e.parameters.mapIdx fun i p => (ColumnRole.argument i, p.type)).map Prod.fst =
      (List.range e.parameters.length).map .argument := by
    apply List.ext_getElem <;> simp
  rw [List.map_map] at hroles
  refine hroles.trans ?_
  simp only [plan, List.map_append, harguments, ← List.append_assoc]
  split <;> split <;> split <;> rfl

/-- The variables of the arguments, in order, stand for what the columns of the arguments do. -/
theorem forall₂_argumentRefs {P : Expr → Value → Prop} {config : Config} {e : Executable}
    {rows : List Execution} {arguments : List Value}
    (hcount : arguments.length = e.parameters.length)
    (h : ∀ c ∈ ofRuns config e rows, ∀ i v, c.role = .argument i → arguments[i]? = some v →
      P (.ref c.parameter.name) v) :
    List.Forall₂ P (argumentRefs (ofRuns config e rows)) arguments := by
  have hroles := map_role_ofRuns config e rows
  obtain ⟨front, later, hcolumns, hfront, hlater⟩ := List.map_eq_append_iff.mp hroles
  obtain ⟨receiver, middle, rfl, hreceiver, hmiddle⟩ := List.map_eq_append_iff.mp hfront
  have hrefs : argumentRefs (ofRuns config e rows) =
      middle.map fun c => .ref c.parameter.name := by
    have hnone : argumentRefs receiver = [] := by
      apply argumentRefs_eq_nil
      rw [hreceiver]
      split <;> simp
    have hnone' : argumentRefs later = [] := by
      apply argumentRefs_eq_nil
      rw [hlater]
      split <;> split <;> simp
    have hall : argumentRefs middle = middle.map fun c => .ref c.parameter.name := by
      apply argumentRefs_eq_map
      rw [hmiddle]
      simp
    rw [hcolumns, argumentRefs, List.filterMap_append, List.filterMap_append]
    exact (congrArg₂ (· ++ ·) (congrArg₂ (· ++ ·) hnone hall) hnone').trans (by simp)
  have hlength : middle.length = arguments.length := by
    have hlengths := congrArg List.length hmiddle
    simpa [hcount] using hlengths
  rw [hrefs]
  refine List.forall₂_iff_get.mpr ⟨by simpa using hlength, fun i hi hi' => ?_⟩
  have hi'' : i < middle.length := hlength ▸ hi'
  have hrole : middle[i].role = .argument i := by
    have hget := congrArg (·[i]?) hmiddle
    simpa [hi'', ← hcount, hi'] using hget
  have hmem : middle[i] ∈ ofRuns config e rows := by
    rw [hcolumns]
    exact List.mem_append_left _ (List.mem_append_right _ (List.getElem_mem hi''))
  simpa using h _ hmem i _ hrole (List.getElem?_eq_getElem hi')

end Column

/-! ## The check of a row -/

namespace Stmt

variable {r : Reading} {e : Executable} {run : Execution} {before body : List Stmt} {s : Stmt}
  {c : Check}

theorem onRow_branch {row : List (String × Expr)} {name : String} {cell : Expr}
    (h : row.lookup name = some cell) (thenBody elseBody : List Stmt) :
    (branch (.equal (.ref name) .null) thenBody elseBody).onRow row =
      if cell.isNull then thenBody else elseBody := by
  simp only [Expr.null, onRow, h, Option.any_some]

theorem onRow_of_isPlain (row : List (String × Expr)) (h : s.isPlain = true) :
    s.onRow row = [s] := by
  cases s with
  | branch => cases h
  | _ => rfl

theorem Checks.onRow_eq (row : List (String × Expr)) (h : s.Checks r e run before c) :
    s.onRow row = [s] := by
  cases h <;> rfl

/-- Statements that perform a check are all run for a row. -/
theorem Perform.flatMap_onRow {reading : List Stmt → Reading} (row : List (String × Expr))
    (h : Perform reading e run body c) : body.flatMap (onRow row) = body := by
  obtain ⟨before, last, rfl, hplain, hchecks⟩ := h
  have hbefore : before.flatMap (onRow row) = before.flatMap fun s => [s] :=
    List.flatMap_congr fun s hs => onRow_of_isPlain row (hplain s hs)
  rw [List.flatMap_append, hbefore, List.flatMap_singleton', List.flatMap_singleton,
    hchecks.onRow_eq row]

end Stmt

theorem TestSet.rowCheck_of_not_failed {set : TestSet} {run : Execution}
    (h : run.failed = false) :
    set.rowCheck run = if set.expectsValues then
      .ofValue ((run.result? set.executable).getD (.literal .null)) else .runs := by
  cases houtcome : run.outcome with
  | runtimeFailure exception text kind => simp [Execution.failed, houtcome] at h
  | _ => simp [rowCheck, houtcome]

/-- Where values are expected, the executable has a result. -/
theorem TestSet.isVoid_of_expectsValues {set : TestSet} (h : set.expectsValues = true) :
    set.executable.returnType.isVoid = false := by
  obtain ⟨run, -, hsome⟩ := List.any_eq_true.mp h
  cases hvoid : set.executable.returnType.isVoid with
  | false => rfl
  | true => simp [Execution.result?, hvoid] at hsome

namespace TestSet

/-- The columns of the table of a set. -/
abbrev columns (set : TestSet) (config : Config) : List Column :=
  Column.ofRuns config set.executable set.rows

/-- There is a column of expected values if a run returned one. -/
theorem isSome_expected_iff (set : TestSet) (config : Config) :
    (Column.reference? (set.columns config) .expected).isSome = true ↔
      set.expectsValues = true := by
  rw [Column.isSome_reference?_iff, Column.map_role_ofRuns]
  simp [expectsValues]

/-- There is a column of expected errors if a run failed. -/
theorem isSome_expectedError_iff (set : TestSet) (config : Config) :
    (Column.reference? (set.columns config) .expectedError).isSome = true ↔
      set.rows.any Execution.failed = true := by
  rw [Column.isSome_reference?_iff, Column.map_role_ofRuns]
  simp

/-- Some cells are the row of a run of the set in a memory. -/
structure IsRow (set : TestSet) (config : Config) (m : Memory) (run : Execution)
    (cells : List Expr) : Prop where
  mem : run ∈ set.rows
  count : run.arguments.length = set.executable.parameters.length
  filled : ∃ first, List.Forall₂ (fun c x => m.Fills first run c.role x) (set.columns config) cells

/-- How expressions are read in a row of the set. -/
abbrev rowReading (set : TestSet) (config : Config) (m : Memory) (cells : List Expr) : Reading :=
  m.rowReading ((Column.names (set.columns config)).zip cells)

namespace IsRow

variable {set : TestSet} {config : Config} {m : Memory} {run : Execution} {cells : List Expr}
  (h : set.IsRow config m run cells)

include h

theorem exists_cell {c : Column} (hc : c ∈ set.columns config) :
    ∃ first cell, ((Column.names (set.columns config)).zip cells).lookup c.parameter.name =
      some cell ∧ m.Fills first run c.role cell := by
  obtain ⟨first, hcells⟩ := h.filled
  obtain ⟨cell, hcell, hfills⟩ :=
    Column.exists_lookup (Column.nodup_names_ofRuns config set.executable set.rows) hcells hc
  exact ⟨first, cell, hcell, hfills⟩

theorem exists_cell_of_reference? {role : ColumnRole} {x : Expr}
    (hx : Column.reference? (set.columns config) role = some x) :
    ∃ first name cell, x = .ref name ∧
      ((Column.names (set.columns config)).zip cells).lookup name = some cell ∧
      m.Fills first run role cell := by
  obtain ⟨c, hc, rfl, rfl⟩ := Column.exists_of_reference? hx
  obtain ⟨first, cell, hcell, hfills⟩ := h.exists_cell hc
  exact ⟨first, _, cell, rfl, hcell, hfills⟩

/-- For a row, the call is made with the receiver and the arguments of its run. -/
theorem calls : (set.rowReading config m cells).Calls set.executable run
    (Draft.callOfRow set.executable (set.columns config)) := by
  constructor
  · intro hmethod
    have hsome : (Column.reference? (set.columns config) .receiver).isSome = true := by
      rw [Column.isSome_reference?_iff, Column.map_role_ofRuns]
      simp [hmethod]
    obtain ⟨x, hx⟩ := Option.isSome_iff_exists.mp hsome
    obtain ⟨first, name, cell, rfl, hcell, hfills⟩ := h.exists_cell_of_reference? hx
    rw [hx]
    cases hfills with
    | receiver hv hstands => exact ⟨_, hv, name, cell, rfl, hcell, hstands.since (Nat.zero_le _)⟩
  · refine Column.forall₂_argumentRefs h.count fun c hc i v hrole hv => ?_
    obtain ⟨first, cell, hcell, hfills⟩ := h.exists_cell hc
    rw [hrole] at hfills
    cases hfills with
    | argument hv' hstands =>
        cases hv.symm.trans hv'
        exact ⟨_, cell, rfl, hcell, hstands.since (Nat.zero_le _)⟩

/-- The cell of the expected value stands for what the run returned, or for the absent value. -/
theorem stands_expected {x : Expr}
    (hx : Column.reference? (set.columns config) .expected = some x) :
    ∃ name cell, x = .ref name ∧
      ((Column.names (set.columns config)).zip cells).lookup name = some cell ∧
      cell.StandsFor m 0 ((run.result? set.executable).getD (.literal .null)) := by
  have hvoid := isVoid_of_expectsValues
    ((isSome_expected_iff set config).mp (Option.isSome_iff_exists.mpr ⟨x, hx⟩))
  obtain ⟨first, name, cell, rfl, hcell, hfills⟩ := h.exists_cell_of_reference? hx
  refine ⟨name, cell, rfl, hcell, ?_⟩
  cases hfills with
  | expected hv hstands =>
      simp only [Execution.result?, hvoid, hv, Bool.false_eq_true, if_false, Option.getD_some]
      exact hstands.since (Nat.zero_le _)
  | noValue hnone =>
      have hresult : run.result? set.executable = none := by
        simp only [Execution.result?, hvoid, Bool.false_eq_true, if_false]
        split
        · next value houtcome =>
          cases value with
          | none => rfl
          | some v => exact absurd houtcome (hnone v)
        · rfl
      rw [hresult]
      exact ⟨_, rfl, .literal _⟩

end IsRow

end TestSet

namespace Draft

open TestSet (IsRow)

/-- The assertion for an expected value is made on the variable of its column, cast or not. -/
theorem assertExpected_checks {language : Language} {type : DataType} {expected actual : Expr}
    {d d' : Draft} {u : Unit} (hname : expected.uncast = expected)
    (h : assertExpected language type expected actual d = .ok u d') :
    ∃ last, d'.statements = d.statements ++ [last] ∧
      ∀ (r : Reading) (e : Executable) (run : Execution) (before : List Stmt) (v : Value),
        (∀ x : Expr, x.uncast = expected → r.stands x v) → r.IsResult e run before actual →
        last.Checks r e run before (.ofValue v) := by
  simp only [assertExpected] at h
  split at h
  · obtain ⟨_, d₁, hrequire, h⟩ := Build.bind_eq_ok.mp h
    cases hrequire
    cases h
    exact ⟨_, rfl, fun r e run before v hv hactual => .deepEquals (hv _ hname) hactual⟩
  · split at h
    · next p hdeep =>
      cases h
      refine ⟨_, rfl, fun r e run before v hv hactual => .equals _ _ (hv _ ?_) hactual⟩
      split
      · rfl
      · exact hname
    all_goals
      cases h
      exact ⟨_, rfl, fun r e run before v hv hactual => .equals _ _ (hv _ hname) hactual⟩

section

variable {set : TestSet} {config : Config} {m : Memory} {run : Execution} {cells : List Expr}
  {language : Language} {d d' : Draft} (hrow : set.IsRow config m run cells)

include hrow

/-- The statements for the rows that expect no error compare with the value or run the call. -/
theorem checkRow_performs {u : Unit} (hd : d.statements = [])
    (h : checkRow language set.executable (set.columns config) d = .ok u d') :
    Stmt.Perform (fun _ => set.rowReading config m cells) set.executable run d'.statements
      (if set.expectsValues then .ofValue ((run.result? set.executable).getD (.literal .null))
        else .runs) := by
  have hexpects := TestSet.isSome_expected_iff set config
  simp only [checkRow] at h
  cases hexpected : Column.reference? (set.columns config) .expected with
  | none =>
      simp only [hexpected, Option.isSome_none, Bool.false_eq_true, false_iff] at h hexpects
      cases h
      rw [if_neg hexpects]
      exact ⟨[], _, congrArg (· ++ [_]) hd, List.forall_mem_nil _, .runs hrow.calls⟩
  | some expected =>
      simp only [hexpected, Option.isSome_some, true_iff] at h hexpects
      obtain ⟨name, cell, rfl, hcell, hstands⟩ := hrow.stands_expected hexpected
      obtain ⟨actual, d₁, hactual, h⟩ := Build.bind_eq_ok.mp h
      obtain ⟨before, hbefore, hresult⟩ := declareActual_recalls run hactual
      obtain ⟨last, hlast, hchecks⟩ := assertExpected_checks rfl h
      rw [if_pos hexpects]
      refine ⟨before, last, ?_, hbefore.plain, ?_⟩
      · rw [hlast, hbefore.statements, hd, List.nil_append]
      · refine hchecks _ _ _ _ _ (fun x hx => ?_) (hresult _ hrow.calls)
        exact ⟨name, cell, hx, hcell, hstands⟩

/-- The body of a parameterized test makes the check of the row. -/
theorem tableBody_performs {g : Generation} {body : List Stmt}
    (h : tableBody language set.executable (set.columns config) (start g) = .ok body d') :
    Stmt.Perform (fun _ => set.rowReading config m cells) set.executable run
      (body.flatMap (Stmt.onRow ((Column.names (set.columns config)).zip cells)))
      (set.rowCheck run) := by
  obtain ⟨d₁, d₂, htake, hcheck, rfl, -⟩ := exists_drafts_of_tableBody_ok h
  have hempty : d₁.statements = [] := by
    obtain ⟨added, hstatements, hnone, -⟩ :=
      (@takeVariables_lays (fun _ => False) _ _ _ _ htake).1
    rw [hstatements, List.eq_nil_iff_forall_not_mem.mpr hnone]
    rfl
  have hsuccess := checkRow_performs hrow hempty hcheck
  simp only [branchOnError]
  cases herror : Column.reference? (set.columns config) .expectedError with
  | none =>
      have hfailed : run.failed = false := by
        have hnone := TestSet.isSome_expectedError_iff set config
        simp only [herror, Option.isSome_none, Bool.false_eq_true, false_iff,
          List.any_eq_true] at hnone
        exact Bool.eq_false_iff.mpr fun hfails => hnone ⟨run, hrow.mem, hfails⟩
      rw [hsuccess.flatMap_onRow, TestSet.rowCheck_of_not_failed hfailed]
      exact hsuccess
  | some error =>
      obtain ⟨first, name, cell, rfl, hcell, hfills⟩ := hrow.exists_cell_of_reference? herror
      cases hfills with
      | error houtcome =>
          rename_i exception text kind
          have hthrows : set.rowCheck run = .throws exception := by rw [TestSet.rowCheck, houtcome]
          rw [hthrows, List.flatMap_singleton, Stmt.onRow_branch hcell]
          exact ⟨[], _, rfl, List.forall_mem_nil _, .throws ⟨name, rfl, hcell⟩ hrow.calls⟩
      | noError hfailed =>
          rw [TestSet.rowCheck_of_not_failed hfailed, List.flatMap_singleton,
            Stmt.onRow_branch hcell]
          exact hsuccess

end

/-- The rows of a table are built from runs with as many arguments as there are parameters. -/
theorem length_arguments_of_tableRows_ok {language : Language} {e : Executable}
    {columns : List Column} {runs : List Execution} {rows : List Expr} {d d' : Draft}
    (h : tableRows language e columns runs d = .ok rows d') :
    ∀ run ∈ runs, run.arguments.length = e.parameters.length := by
  induction runs generalizing d d' rows with
  | nil => exact List.forall_mem_nil _
  | cons run rest ih =>
      obtain ⟨_, d₁, hcheck, h⟩ := Build.bind_eq_ok.mp h
      obtain ⟨xs, d₂, -, h⟩ := Build.bind_eq_ok.mp h
      obtain ⟨others, d₃, hothers, -⟩ := Build.bind_eq_ok.mp h
      refine List.forall_mem_cons.mpr ⟨?_, ih hothers⟩
      simp only [checkCount] at hcheck
      split at hcheck
      · assumption
      · exact absurd hcheck Build.refuse_ne_ok

end Draft

/-- A row that a data provider gives is at the place of its run, with the same cells in whatever
memory the data provider starts. -/
theorem Stmt.GivesRows.exists_cells {body : List Stmt} {columns : List Column}
    {runs : List Execution} (h : GivesRows body columns runs) {i : Nat} {run : Execution}
    (hi : runs[i]? = some run) :
    ∃ before rows cells, body = before ++ [.ret (some (.arrayOf (.array .any) rows))] ∧
      rows[i]? = some (.arrayOf .any cells) ∧
      ∀ m, ∃ first, List.Forall₂ (fun c x => (remember before m).Fills first run c.role x)
        columns cells := by
  obtain ⟨arrange, rows, rfl, hruns⟩ := h
  obtain ⟨gap, hbody, -, hgap⟩ := apart_eq_append arrange [.ret (some (.arrayOf (.array .any) rows))]
  obtain ⟨hbound, rfl⟩ := List.getElem?_eq_some_iff.mp hi
  have hrows : ∀ m, ∃ first row, rows[i]? = some row ∧
      (remember (arrange ++ gap) m).FillsRow first columns runs[i] row := by
    intro m
    obtain ⟨m', hm', hall⟩ := hruns m
    obtain ⟨hlength, hget⟩ := List.forall₂_iff_get.mp hall
    refine ⟨m.objects.length, _, List.getElem?_eq_getElem (hlength ▸ hbound), ?_⟩
    rw [remember_append, hgap, remember_eq hm']
    exact hget i hbound (hlength ▸ hbound)
  obtain ⟨-, row, hrow, cells, rfl, -⟩ := hrows ⟨[], []⟩
  refine ⟨arrange ++ gap, rows, cells, hbody, hrow, fun m => ?_⟩
  obtain ⟨first, row', hrow', cells', rfl, hcells⟩ := hrows m
  cases hrow.symm.trans hrow'
  exact ⟨first, hcells⟩

/-- A parameterized test makes the check of each row. -/
theorem TestSet.checksRow_of_toTable_ok {set : TestSet} {g g' : Generation} {t : ParameterizedTest}
    {run : Execution} {i : Nat} (h : set.toTable g = .ok t g') (hi : set.rows[i]? = some run) :
    t.ChecksRow set.executable run i (set.rowCheck run) := by
  have hgo := (hasTables_of_toTable_ok h).ne_go
  obtain ⟨providerBody, d, testBody, d', hprovider, htest, rfl, -⟩ := exists_drafts_of_toTable_ok h
  have hgives := Draft.providerBody_givesRows hgo
    (fun c hc i hrole => Column.lt_of_argument hc hrole) hprovider
  obtain ⟨before, rows, cells, hbody, hrow, hfilled⟩ := hgives.exists_cells hi
  have hmem := List.mem_of_getElem? hi
  have hcount : run.arguments.length = set.executable.parameters.length := by
    obtain ⟨es, d₁, hrows, -⟩ := Build.bind_eq_ok.mp hprovider
    exact Draft.length_arguments_of_tableRows_ok hrows run hmem
  refine ⟨before, rows, cells, hbody, hrow, fun m => ?_⟩
  have hnames : ((set.columns g.config).map Column.parameter).map Parameter.name =
      Column.names (set.columns g.config) := by simp [Column.names, Function.comp_def]
  simp only [ParameterizedTest.row, tableTestWith, hnames]
  exact Draft.tableBody_performs ⟨hmem, hcount, hfilled m⟩ htest

/-! ## The modes compared -/

/-- The two checks of a run are the same, unless its failure is let through, or it returned without a
value and another run of the set returned one. -/
theorem TestSet.check_eq_rowCheck_iff (set : TestSet) (config : Config) {run : Execution}
    (hrun : run ∈ set.rows) :
    run.check config set.executable = set.rowCheck run ↔
      (∀ exception text kind, run.outcome = .runtimeFailure exception text kind →
        config.assertsFailure kind = true) ∧
      (run.outcome = .success none → ∀ other ∈ set.rows, other.result? set.executable = none) := by
  have hexpects : set.expectsValues = false ↔
      ∀ other ∈ set.rows, other.result? set.executable = none := by simp [expectsValues]
  have htabular : run.outcome.isTabular = true := (List.mem_filter.mp hrun).2
  rw [← hexpects]
  cases houtcome : run.outcome with
  | success value =>
      have hcheck : run.check config set.executable =
          ((run.result? set.executable).map Check.ofValue).getD .runs := by
        rw [Execution.check, houtcome]
      have hfailed : run.failed = false := by simp [Execution.failed, houtcome]
      rw [hcheck, rowCheck_of_not_failed hfailed]
      cases hresult : run.result? set.executable with
      | some v =>
          have hsome : set.expectsValues = true :=
            List.any_eq_true.mpr ⟨run, hrun, by rw [hresult]; rfl⟩
          have hvalue : value = some v := by
            simpa [Execution.result?, isVoid_of_expectsValues hsome, houtcome] using hresult
          simp [hsome, hvalue]
      | none =>
          have hnone : set.expectsValues = true → value = none := by
            intro hsome
            simpa [Execution.result?, isVoid_of_expectsValues hsome, houtcome] using hresult
          cases hsome : set.expectsValues with
          | true => simp [hnone hsome, Check.ofValue, Value.isNaN, Literal.isNaN]
          | false => simp
  | runtimeFailure exception text kind =>
      have hrow : set.rowCheck run = .throws exception := by rw [rowCheck, houtcome]
      rw [hrow, Execution.check, houtcome]
      by_cases hasserts : config.assertsFailure kind = true
      · simp [hasserts]
      · simp [hasserts]
  | timeout limit => simp [houtcome, Outcome.isTabular] at htabular
  | crash reason => simp [houtcome, Outcome.isTabular] at htabular

/-- A table is written of runs that stub no static methods. -/
theorem TestSet.staticStubs_of_toTable_ok {set : TestSet} {g g' : Generation}
    {t : ParameterizedTest} (h : set.toTable g = .ok t g') :
    ∀ run ∈ set.rows, run.staticStubs = [] := by
  obtain ⟨_, g₁, hcheck, -⟩ := Build.bind_eq_ok.mp h
  simp only [checkTable] at hcheck
  split at hcheck
  · exact absurd hcheck Build.refuse_ne_ok
  · split at hcheck
    · exact absurd hcheck Build.refuse_ne_ok
    · split at hcheck
      · exact absurd hcheck Build.refuse_ne_ok
      · next hnone => simpa using hnone

/-- Where a set is written as a parameterized test, and a run with a row also as a test of its own,
both make one check of the call of the run, with its receiver and its arguments.  The checks are the
same exactly if two things hold: a failure of the run is asserted and not let through, and, if the
run returned without a value, no other one with a row returned one.  The parameterized test asserts
every failure, and compares with the absent value what returned none. -/
theorem modes_agree_iff {set : TestSet} {g g' h h' : Generation} {t : ParameterizedTest}
    {m : Method} {run : Execution} {i : Nat} (htable : set.toTable g = .ok t g')
    (hi : set.rows[i]? = some run) (htest : run.toTest set.executable h = .ok m h')
    (hconfig : h.config = g.config) :
    (∀ c, m.Checks set.executable run c ↔ c = run.check g.config set.executable) ∧
    (∀ c, t.ChecksRow set.executable run i c ↔ c = set.rowCheck run) ∧
    ((∀ c, m.Checks set.executable run c ↔ t.ChecksRow set.executable run i c) ↔
      (∀ exception text kind, run.outcome = .runtimeFailure exception text kind →
        g.config.assertsFailure kind = true) ∧
      (run.outcome = .success none →
        ∀ other ∈ set.rows, other.result? set.executable = none)) := by
  have hrun := List.mem_of_getElem? hi
  have hgo : h.config.language ≠ .go := hconfig ▸ (TestSet.hasTables_of_toTable_ok htable).ne_go
  have hsingle := Method.checks_iff
    (Execution.checks_of_toTest_ok hgo (TestSet.staticStubs_of_toTable_ok htable run hrun) htest)
  have hrow := ParameterizedTest.checksRow_iff (TestSet.checksRow_of_toTable_ok htable hi)
  rw [hconfig] at hsingle
  refine ⟨hsingle, hrow, ?_⟩
  rw [← set.check_eq_rowCheck_iff g.config hrun]
  constructor
  · intro hsame
    exact (hrow _).mp ((hsame _).mp ((hsingle _).mpr rfl))
  · intro hsame c
    rw [hsingle, hrow, hsame]

/-- Tables in Java, with failures that are let through. -/
def lenientTables : Config :=
  { javaTables with failureTests := .failing }

/-- The division by zero is only run by the test of its run, and asserted to throw by the
parameterized test. -/
theorem modes_agree_iff_divisions :
    let g := Generation.new ⟨"shop", "Calc"⟩ lenientTables
    let zero := Execution.ofArguments [.literal (.int 6), .literal (.int 0)]
      (.failure .implicit ⟨"java.lang", "ArithmeticException"⟩)
    ∃ (t : ParameterizedTest) (m : Method) (g' h' : Generation),
      divisions.toTable g = .ok t g' ∧ divisions.rows[1]? = some zero ∧
      zero.toTest divisions.executable g = .ok m h' ∧
      m.Checks divisions.executable zero .runs ∧
      t.ChecksRow divisions.executable zero 1 (.throws ⟨"java.lang", "ArithmeticException"⟩) ∧
      ¬∀ c, m.Checks divisions.executable zero c ↔
        t.ChecksRow divisions.executable zero 1 c := by
  intro g zero
  have htable := divisions.toTableUnder_meets lenientTables
  have htest := zero.toTestUnder_meets lenientTables divisions.executable
  rw [show divisions.tableObstacle lenientTables = none by decide] at htable
  rw [show zero.obstacle lenientTables divisions.executable = none by decide] at htest
  obtain ⟨t, g', ht⟩ : ∃ t g', divisions.toTable g = .ok t g' := htable g
  obtain ⟨m, h', hm⟩ : ∃ m h', zero.toTest divisions.executable g = .ok m h' := htest g
  have hi : divisions.rows[1]? = some zero := rfl
  obtain ⟨hsingle, hrow, hagree⟩ := modes_agree_iff ht hi hm rfl
  refine ⟨t, m, g', h', ht, hi, hm, (hsingle _).mpr rfl, (hrow _).mpr rfl, ?_⟩
  rw [hagree]
  rintro ⟨hasserts, -⟩
  cases hasserts _ _ _ rfl

end TestWriter
