import TestWriter.Proofs.Modes
import TestWriter.Proofs.NameClashes
import TestWriter.Proofs.NameSearch

/-!
# Names of parameters and variables

A method asks for a name for each of its parameters and for each value that is rebuilt, and gets
what it asks for, or the same with a counter.  Which name it gets depends only on the names that
were handed out before.  Main statements: the names in a test, in a parameterized test and in a data
provider are those that a new supply hands out for the bases in their evidence.
-/

namespace TestWriter

/-! ## What evidence asks for -/

namespace Value

mutual

/-- The bases of the variables that rebuild a value, in the order in which they are declared. -/
def bases (base : String) : Value → List String
  | .literal _ | .enumConstant .. => []
  | .array _ values => basesOf (fun _ => base ++ "Element") 0 values ++ [base]
  | .composite _ arguments fields =>
    basesOf (fun i => base ++ "Arg" ++ toString i) 0 arguments ++ base :: fieldBases fields
  | .reflective _ fields => base :: fieldBases fields
  | .mock _ stubs => base :: stubBases stubs

/-- The bases for some values. -/
def basesOf (base : Nat → String) (index : Nat) : List Value → List String
  | [] => []
  | v :: rest => bases (base index) v ++ basesOf base (index + 1) rest

/-- The bases for the values of some fields. -/
def fieldBases : List Field → List String
  | [] => []
  | .mk name v :: rest => bases name v ++ fieldBases rest

/-- The bases for the values of some stubs. -/
def stubBases : List Stub → List String
  | [] => []
  | .mk method arguments returns :: rest =>
    basesOf (fun i => method ++ "Arg" ++ toString i) 0 arguments ++
      bases (method ++ "Result") returns ++ stubBases rest

end

end Value

/-- The bases for the check of a result. -/
def ResultCheck.bases : ResultCheck → List String
  | .ignored => []
  | .isNull | .isNaN => ["actual"]
  | .equals v => "actual" :: v.bases "expected"

namespace Execution

/-- The bases for the receiver of a run. -/
def receiverBases (run : Execution) (e : Executable) : List String :=
  match e.kind, run.receiver with
  | .method, some v => v.bases e.receiverName
  | _, _ => []

/-- The bases for the check of what a run ended with. -/
def outcomeBases (run : Execution) (config : Config) (e : Executable) : List String :=
  match run.outcome with
  | .success _ => (ResultCheck.ofResult config.language (run.result? e)).bases
  | _ => []

/-- The bases of the variables in the test of a run. -/
def bases (run : Execution) (config : Config) (e : Executable) : List String :=
  run.receiverBases e ++
    Value.basesOf (fun i => (argumentNames config e).getD i "") 0 run.arguments ++
    run.outcomeBases config e

/-- The bases for the cell of a run in a column. -/
def cellBases (run : Execution) (c : Column) : List String :=
  match run.cell c.role with
  | .value v => v.bases c.parameter.name
  | _ => []

end Execution

namespace TestSet

/-- The bases of the columns of the table of a set. -/
def columnBases (set : TestSet) (config : Config) : List String :=
  let e := set.executable
  let names := (if e.kind = .method then [e.receiverName] else []) ++ argumentNames config e ++
    (if set.expectsValues then ["expected"] else []) ++
    (if set.rows.any Execution.failed then ["expectedError"] else [])
  names.map fun base => if config.language = .python then Text.snakeCase base else base

/-- The bases of the parameters and the variables of the parameterized test of a set. -/
def tableBases (set : TestSet) (config : Config) : List String :=
  set.columnBases config ++ if set.expectsValues then ["actual"] else []

/-- The bases of the variables of the data provider of a set. -/
def providerBases (set : TestSet) (config : Config) : List String :=
  set.rows.flatMap fun run => (set.columns config).flatMap run.cellBases

end TestSet

/-! ## What builds declare -/

theorem boundIn_append_eq_nil {trace more : List Event} (h : boundIn trace = [])
    (hmore : boundIn more = []) : boundIn (trace ++ more) = [] := by
  rw [boundIn_append, h, hmore]
  rfl

/-- To enter and to leave a scope introduces nothing. -/
theorem boundIn_scope (trace : List Event) :
    boundIn (.enter :: trace ++ [.leave]) = boundIn trace := by
  change boundIn ([.enter] ++ trace ++ [.leave]) = boundIn trace
  rw [boundIn_append, boundIn_append]
  exact List.append_nil _

namespace Draft

/-- A build declares variables with the names that are handed out for some bases. -/
def Declares {α : Type} (m : Build Draft α) (bases : List String) (result : α → Prop) : Prop :=
  ∀ d a d', m d = .ok a d' → d'.supply = (d.supply.handOut bases).2 ∧
    boundIn (Stmt.traceOf d'.statements) =
      boundIn (Stmt.traceOf d.statements) ++ (d.supply.handOut bases).1 ∧ result a

section

variable {α β : Type} {m : Build Draft α} {f : α → Build Draft β} {bases more : List String}
  {P : α → Prop} {Q : β → Prop}

theorem Declares.pure {a : α} (ha : P a) : Declares (Pure.pure a) [] P := by
  intro d b d' h
  obtain ⟨rfl, rfl⟩ := Build.pure_eq_ok.mp h
  exact ⟨rfl, (List.append_nil _).symm, ha⟩

theorem Declares.refuse (cause : BuildFailure) :
    Declares (Build.refuse cause : Build Draft α) bases P := by
  intro d a d' h
  exact absurd h Build.refuse_ne_ok

theorem Declares.bind (hm : Declares m bases P) (hf : ∀ a, P a → Declares (f a) more Q) :
    Declares (m >>= f) (bases ++ more) Q := by
  intro d b d'' h
  obtain ⟨a, d', hma, hfa⟩ := Build.bind_eq_ok.mp h
  obtain ⟨hsupply, hbound, ha⟩ := hm d a d' hma
  obtain ⟨hsupply', hbound', hb⟩ := hf a ha d' b d'' hfa
  rw [NameSupply.handOut_append, ← hsupply]
  exact ⟨hsupply', by rw [hbound', hbound, List.append_assoc], hb⟩

/-- A build that goes on without declarations. -/
theorem Declares.last (hm : Declares m bases P) (hf : ∀ a, P a → Declares (f a) [] Q) :
    Declares (m >>= f) bases Q := by
  have h := hm.bind hf
  rwa [List.append_nil] at h

end

/-- Write a statement without declarations. -/
theorem push_declares {s : Stmt} (hs : boundIn s.trace = []) :
    Declares (push s) [] fun _ => True := by
  intro d u d' h
  cases h
  refine ⟨rfl, ?_, trivial⟩
  rw [Stmt.traceOf_append, Stmt.traceOf_singleton, boundIn_append, hs]
  rfl

theorem require_declares (h : Helper) : Declares (require h) [] fun _ => True := by
  intro d u d' hok
  cases hok
  exact ⟨rfl, (List.append_nil _).symm, trivial⟩

theorem markMocks_declares : Declares markMocks [] fun _ => True := by
  intro d u d' hok
  cases hok
  exact ⟨rfl, (List.append_nil _).symm, trivial⟩

theorem declare_declares (base : String) (type : DataType) {initial : Expr}
    (hinitial : boundIn initial.trace = []) :
    Declares (declare base type initial) [base] fun object => boundIn object.trace = [] := by
  intro d object d' h
  obtain ⟨rfl, rfl⟩ := eq_of_declare_ok h
  refine ⟨rfl, ?_, rfl⟩
  rw [Stmt.traceOf_append, Stmt.traceOf_singleton, boundIn_append, Stmt.trace, boundIn_append,
    hinitial]
  rfl

theorem allocate_declares (language : Language) (base : String) (owner : ClassName) :
    Declares (allocate language base owner) [base] fun object => boundIn object.trace = [] := by
  have hallocation : boundIn (allocation language owner).trace = [] := by
    cases language <;> rfl
  simp only [allocate]
  split
  · exact (require_declares _).bind fun _ _ => declare_declares base _ hallocation
  · exact declare_declares base _ hallocation

theorem announce_declares (way : FieldWriting) : Declares way.announce [] fun _ => True := by
  cases way with
  | assignment => exact .pure trivial
  | helper => exact require_declares _
  | setattr => exact .pure trivial

mutual

theorem express_declares (language : Language) (base : String) :
    ∀ v : Value, Declares (express language base v) (v.bases base) fun e => boundIn e.trace = []
  | .literal l => .pure rfl
  | .enumConstant owner name => .pure rfl
  | .array element values =>
      (expressEach_declares language _ 0 values).bind fun _ hes => declare_declares base _ hes
  | .composite owner arguments fields => by
      simp only [express]
      split
      · exact .refuse _
      · refine (expressEach_declares language _ 0 arguments).bind fun es hes => ?_
        have hnew : boundIn (Expr.construct owner es).trace = [] := hes
        refine (declare_declares base _ hnew).bind fun object hobject => ?_
        exact (writeFields_declares language _ hobject fields).last fun _ _ => .pure hobject
  | .reflective owner fields => by
      refine (allocate_declares language base owner).bind fun object hobject => ?_
      exact (writeFields_declares language _ hobject fields).last fun _ _ => .pure hobject
  | .mock owner stubs => by
      simp only [express]
      split
      · refine markMocks_declares.bind fun _ _ => ?_
        refine (declare_declares base _ rfl).bind fun object hobject => ?_
        exact (addStubs_declares language hobject stubs).last fun _ _ => .pure hobject
      · exact .refuse _

theorem expressEach_declares (language : Language) (base : Nat → String) (index : Nat) :
    ∀ vs : List Value, Declares (expressEach language base index vs) (Value.basesOf base index vs)
      fun es => boundIn (Expr.traceOf es) = []
  | [] => .pure rfl
  | v :: rest => by
      refine (express_declares language (base index) v).bind fun e he => ?_
      refine (expressEach_declares language base (index + 1) rest).last fun es hes => ?_
      exact .pure (boundIn_append_eq_nil he hes)

theorem writeFields_declares (language : Language) (way : FieldWriting) {object : Expr}
    (hobject : boundIn object.trace = []) :
    ∀ fields : List Field,
      Declares (writeFields language way object fields) (Value.fieldBases fields) fun _ => True
  | [] => .pure trivial
  | .mk name v :: rest => by
      simp only [writeFields]
      refine (announce_declares way).bind fun _ _ => ?_
      refine (express_declares language name v).bind fun e he => ?_
      refine (push_declares ?_).bind fun _ _ => writeFields_declares language way hobject rest
      rw [trace_statement]
      exact boundIn_append_eq_nil hobject he

theorem addStubs_declares (language : Language) {object : Expr}
    (hobject : boundIn object.trace = []) :
    ∀ stubs : List Stub,
      Declares (addStubs language object stubs) (Value.stubBases stubs) fun _ => True
  | [] => .pure trivial
  | .mk method arguments returns :: rest => by
      simp only [addStubs, Value.stubBases]
      rw [List.append_assoc]
      refine (expressEach_declares language _ 0 arguments).bind fun es hes => ?_
      refine (express_declares language (method ++ "Result") returns).bind fun e he => ?_
      refine (push_declares ?_).bind fun _ _ => addStubs_declares language hobject rest
      exact boundIn_append_eq_nil hobject (boundIn_append_eq_nil hes he)

end

variable {language : Language}

theorem checkCount_declares (e : Executable) (run : Execution) :
    Declares (checkCount e run) [] fun _ => True := by
  simp only [checkCount]
  split
  · exact .pure trivial
  · exact .refuse _

theorem targetOfRun_declares (e : Executable) (run : Execution) :
    Declares (targetOfRun language e run) (run.receiverBases e)
      fun target => boundIn target.trace = [] := by
  simp only [targetOfRun, Execution.receiverBases]
  cases e.kind with
  | method =>
      cases run.receiver with
      | none => exact .refuse _
      | some v => exact express_declares language e.receiverName v
  | constructor =>
      dsimp only
      split
      · exact .refuse _
      · exact .pure rfl
  | staticMethod => exact .pure rfl
  | function => exact .pure rfl

end Draft

/-- A call declares what its receiver and its arguments do. -/
theorem Executable.boundIn_call {e : Executable} {target : Expr} {arguments : List Expr}
    (htarget : boundIn target.trace = []) (harguments : boundIn (Expr.traceOf arguments) = []) :
    boundIn (e.call target arguments).trace = [] := by
  simp only [call]
  cases e.kind with
  | method => exact boundIn_append_eq_nil htarget harguments
  | staticMethod => exact harguments
  | function => exact harguments
  | constructor => exact harguments

namespace Draft

variable {language : Language}

theorem callOfRun_declares (e : Executable) (names : List String) (run : Execution) :
    Declares (callOfRun language e names run)
      (run.receiverBases e ++ Value.basesOf (fun i => names.getD i "") 0 run.arguments)
      fun call => boundIn call.trace = [] := by
  refine (checkCount_declares e run).bind fun _ _ => ?_
  refine (targetOfRun_declares e run).bind fun target htarget => ?_
  refine (expressEach_declares language _ 0 run.arguments).last fun arguments harguments => ?_
  exact .pure (Executable.boundIn_call htarget harguments)

theorem declareActual_declares (e : Executable) {call : Expr} (hcall : boundIn call.trace = []) :
    Declares (declareActual e call) ["actual"] fun actual => boundIn actual.trace = [] := by
  refine (declare_declares _ _ hcall).last fun actual hactual => ?_
  exact (push_declares rfl).last fun _ _ => .pure hactual

theorem assertEqual_declares (v : Value) {actual : Expr} (hactual : boundIn actual.trace = []) :
    Declares (assertEqual language v actual) (v.bases "expected") fun _ => True := by
  refine (express_declares language _ v).last fun expected hexpected => ?_
  have hboth : boundIn (expected.trace ++ actual.trace) = [] :=
    boundIn_append_eq_nil hexpected hactual
  split
  · refine (require_declares _).last fun _ _ => push_declares ?_
    simpa [Stmt.trace, Expr.trace, Expr.traceOf] using hboth
  · exact push_declares hboth

theorem checkResult_declares (e : Executable) {call : Expr} (hcall : boundIn call.trace = [])
    (check : ResultCheck) :
    Declares (checkResult language e call check) check.bases fun _ => True := by
  have hactual := declareActual_declares e hcall
  cases check with
  | ignored => exact push_declares hcall
  | isNull => exact hactual.bind fun actual hbound => push_declares hbound
  | isNaN =>
      refine hactual.bind fun actual hbound => push_declares ?_
      exact boundIn_append_eq_nil hbound hbound
  | equals v => exact hactual.bind fun actual hbound => assertEqual_declares v hbound

theorem checkOutcome_declares (config : Config) (e : Executable) (run : Execution) {call : Expr}
    (hcall : boundIn call.trace = []) :
    Declares (checkOutcome config e run call) (run.outcomeBases config e) fun _ => True := by
  have heval : Declares (push (.eval call)) [] fun _ => True := push_declares hcall
  have hremarked : ∀ text, Declares (do push (.comment text); push (.eval call)) []
      fun _ => True := fun text => (push_declares rfl).bind fun _ _ => heval
  simp only [checkOutcome, Execution.outcomeBases]
  cases run.outcome with
  | success value => exact checkResult_declares e hcall _
  | runtimeFailure exception message kind =>
      dsimp only
      split
      · have htrace : (Stmt.assertThrows (.classOf exception) [.eval call]).trace =
            .enter :: call.trace ++ [.leave] := by simp [Stmt.trace, Stmt.traceOf, Expr.trace]
        refine push_declares ?_
        rw [htrace, boundIn_scope, hcall]
      · exact hremarked _
  | timeout limit =>
      dsimp only
      split
      · exact hremarked _
      · exact heval
  | crash reason => exact hremarked _

/-- Without mocked static methods the test of a run declares what its evidence asks for. -/
theorem boundIn_bodyOfRun {config : Config} {e : Executable} {run : Execution} {g : Generation}
    {d : Draft} {body : List Stmt} (hoff : config.staticMocking = .off)
    (h : bodyOfRun config e run (start g) = .ok body d) :
    boundIn (Stmt.traceOf body) = NameSupply.handedOut (run.bases config e) := by
  have hnone : run.writtenStubs config = [] := if_pos hoff
  obtain ⟨call, d₁, d₂, opened, d₃, d₅, hcall, hmark, hopened, houtcome, rfl, rfl⟩ :=
    exists_drafts_of_bodyOfRun_ok h
  rw [hnone] at hmark hopened
  cases hmark
  cases hopened
  obtain ⟨hsupply, harranged, hbound⟩ := callOfRun_declares e _ run _ _ _ hcall
  obtain ⟨-, hacted, -⟩ := checkOutcome_declares config e run hbound _ _ _ houtcome
  rw [Stmt.traceOf_apart, boundIn_append, NameSupply.handedOut, Execution.bases,
    NameSupply.handOut_append, harranged]
  change _ ++ boundIn (Stmt.traceOf d₅.statements) = _
  rw [hacted, hsupply]
  rfl

/-! ## Tables -/

theorem cellExpr_declares (e : Executable) (run : Execution) (c : Column) :
    Declares (cellExpr language e run c) (run.cellBases c) fun x => boundIn x.trace = [] := by
  simp only [cellExpr, Execution.cellBases]
  cases run.cell c.role with
  | value v => exact express_declares language _ v
  | exception owner => exact .pure rfl
  | absent =>
      dsimp only
      split
      · exact .refuse _
      · exact .pure rfl

theorem cellExprs_declares (e : Executable) (run : Execution) (columns : List Column) :
    Declares (cellExprs language e run columns) (columns.flatMap run.cellBases)
      fun xs => boundIn (Expr.traceOf xs) = [] := by
  induction columns with
  | nil => exact .pure rfl
  | cons c rest ih =>
      refine (cellExpr_declares e run c).bind fun x hx => ?_
      exact ih.last fun xs hxs => .pure (boundIn_append_eq_nil hx hxs)

theorem tableRows_declares (e : Executable) (columns : List Column) (rows : List Execution) :
    Declares (tableRows language e columns rows)
      (rows.flatMap fun run => columns.flatMap run.cellBases)
      fun xs => boundIn (Expr.traceOf xs) = [] := by
  induction rows with
  | nil => exact .pure rfl
  | cons run rest ih =>
      refine (checkCount_declares e run).bind fun _ _ => ?_
      refine (cellExprs_declares e run columns).bind fun cells hcells => ?_
      exact ih.last fun rows hrows => .pure (boundIn_append_eq_nil hcells hrows)

/-- A data provider declares what the cells of its table ask for. -/
theorem boundIn_providerBody {e : Executable} {columns : List Column} {rows : List Execution}
    {g : Generation} {d : Draft} {body : List Stmt}
    (h : providerBody language e columns rows (start g) = .ok body d) :
    boundIn (Stmt.traceOf body) =
      NameSupply.handedOut (rows.flatMap fun run => columns.flatMap run.cellBases) := by
  obtain ⟨exprs, d₁, hrows, rfl, rfl⟩ := exists_rows_of_providerBody_ok h
  obtain ⟨-, harranged, hbound⟩ := tableRows_declares e columns rows _ _ _ hrows
  rw [Stmt.traceOf_apart, boundIn_append, harranged, Stmt.traceOf_singleton, Stmt.trace, Expr.trace,
    hbound, List.append_nil]
  rfl

theorem checkRow_declares (e : Executable) (columns : List Column) :
    Declares (checkRow language e columns)
      (if (Column.reference? columns .expected).isSome then ["actual"] else [])
      fun _ => True := by
  have hcall : boundIn (callOfRow e columns).trace = [] := (looks_callOfRow e).reads.boundIn_eq
  simp only [checkRow]
  cases hexpected : Column.reference? columns .expected with
  | none => exact push_declares hcall
  | some expected =>
      have hlook := (Column.looks_reference hexpected).reads.boundIn_eq
      refine (declareActual_declares e hcall).last fun actual hactual => ?_
      have hboth : boundIn (expected.trace ++ actual.trace) = [] :=
        boundIn_append_eq_nil hlook hactual
      simp only [assertExpected]
      split
      · refine (require_declares _).last fun _ _ => push_declares ?_
        simpa [Stmt.trace, Expr.trace, Expr.traceOf] using hboth
      · split
        · next p _ =>
          refine push_declares ?_
          cases p <;> exact hboth
        all_goals exact push_declares hboth

theorem takeVariables_eq {names : List String} {d d' : Draft} {u : Unit}
    (h : takeVariables names d = .ok u d') : d'.supply = (d.supply.handOut names).2 := by
  induction names generalizing d with
  | nil =>
      obtain ⟨-, rfl⟩ := Build.pure_eq_ok.mp h
      rfl
  | cons base rest ih =>
      obtain ⟨name, d₁, hname, h⟩ := Build.bind_eq_ok.mp h
      cases hname
      exact ih h

/-- Beside its parameters a parameterized test declares the result of the call, if its table has
an expected value. -/
theorem boundIn_tableBody {e : Executable} {columns : List Column} {g : Generation} {d : Draft}
    {body : List Stmt} (hnodup : (Column.names columns).Nodup)
    (hne : ∀ x ∈ Column.names columns, x ≠ "")
    (h : tableBody language e columns (start g) = .ok body d) :
    ∃ supply : NameSupply, supply.Dense "" ∧
      (∀ x, supply.isTaken x = true ↔ x ∈ Column.names columns) ∧
      boundIn (Stmt.traceOf body) = (supply.handOut
        (if (Column.reference? columns .expected).isSome then ["actual"] else [])).1 := by
  obtain ⟨d₁, d₂, hnames, hcheck, rfl, rfl⟩ := exists_drafts_of_tableBody_ok h
  obtain ⟨hempty, htaken⟩ := isTaken_takeVariables hnodup
    (fun x hx => ⟨NameSupply.isTaken_empty, hne x hx⟩) hnames
  obtain ⟨-, hchecked, -⟩ := checkRow_declares e columns _ _ _ hcheck
  rw [hempty] at hchecked
  refine ⟨d₁.supply, ?_, fun x => ?_, ?_⟩
  · rw [takeVariables_eq hnames]
    exact NameSupply.dense_empty.handOut _
  · rw [htaken, show (start g).supply = .empty from rfl, NameSupply.isTaken_empty]
    simp
  have hcall : boundIn (callOfRow e columns).trace = [] := (looks_callOfRow e).reads.boundIn_eq
  simp only [branchOnError]
  cases herror : Column.reference? columns .expectedError with
  | none => exact hchecked
  | some error =>
      have hlook := (Column.looks_reference herror).reads.boundIn_eq
      have hthrows : boundIn (error.trace ++ (.enter :: (callOfRow e columns).trace ++ [.leave])) =
          [] := boundIn_append_eq_nil hlook ((boundIn_scope _).trans hcall)
      dsimp only
      rw [traceOf_branch, boundIn_append, boundIn_append, boundIn_scope, boundIn_scope, hlook,
        hthrows, List.append_nil]
      exact hchecked

end Draft

/-! ## The names in a method -/

/-- The names that a method gives to its parameters and the variables in its body. -/
def Method.locals (m : Method) : List String :=
  m.parameters.map Parameter.name ++ boundIn (Stmt.traceOf m.body)

/-- The test of a run has the names that are handed out for what its evidence asks for. -/
theorem Execution.locals_eq {run : Execution} {e : Executable} {g g' : Generation} {m : Method}
    (hoff : g.config.staticMocking = .off) (h : run.toTest e g = .ok m g') :
    m.locals = NameSupply.handedOut (run.bases g.config e) := by
  obtain ⟨body, d, name, names, hbody, rfl, -⟩ := eq_of_toTest_ok h
  exact Draft.boundIn_bodyOfRun hoff hbody

namespace Column

/-- Columns are named like variables, one after the other. -/
theorem names_named_eq (language : Language) (supply : NameSupply)
    (entries : List (String × DataType × ColumnRole)) :
    names (named language supply entries) = (supply.handOut ((entries.map Prod.fst).map fun base =>
      if language = .python then Text.snakeCase base else base)).1 := by
  induction entries generalizing supply with
  | nil => rfl
  | cons entry rest ih =>
      obtain ⟨base, type, role⟩ := entry
      simp only [names, named, List.map_cons, NameSupply.handOut]
      exact congrArg _ (ih _)

end Column

namespace TestSet

variable {set : TestSet} {config : Config}

/-- The names of the columns are handed out for their bases. -/
theorem names_columns_eq (set : TestSet) (config : Config) :
    Column.names (set.columns config) = NameSupply.handedOut (set.columnBases config) := by
  have harguments : ((set.executable.parameters.zip (argumentNames config set.executable)).mapIdx
      fun i entry => (entry.2, entry.1.type, ColumnRole.argument i)).map Prod.fst =
      argumentNames config set.executable := by
    apply List.ext_getElem <;> simp [argumentNames]
  have hoptional : ∀ (p : Prop) [Decidable p] (entry : String × DataType × ColumnRole),
      (if p then [entry] else []).map Prod.fst = if p then [entry.1] else [] := by
    intro p _ entry
    split <;> rfl
  simp only [Column.ofRuns, Column.names_named_eq, columnBases, expectsValues, List.map_append,
    harguments, hoptional]
  rfl

variable {set : TestSet} {t : ParameterizedTest} {g g' : Generation}

/-- A parameterized test has the names that are handed out for its columns and its result. -/
theorem table_locals_eq (h : set.toTable g = .ok t g') :
    t.test.locals = NameSupply.handedOut (set.tableBases g.config) := by
  obtain ⟨_, _, d, testBody, d', _, _, _, _, htest, rfl, -⟩ := eq_of_toTable_ok h
  obtain ⟨supply, hdense, htaken, hbody⟩ := Draft.boundIn_tableBody
    (Column.nodup_names_ofRuns g.config set.executable set.rows)
    (fun x hx => ((Column.names_named _ _ _).2 x hx).2) htest
  have hcolumns := names_columns_eq set g.config
  -- the parameters took their names once more, one by one, which the result cannot tell
  have hsame : ∀ x, supply.isTaken x = true ↔
      (NameSupply.empty.handOut (set.columnBases g.config)).2.isTaken x = true := by
    intro x
    rw [htaken, hcolumns, NameSupply.isTaken_handOut, NameSupply.isTaken_empty]
    simp [NameSupply.handedOut]
  have hactual := hdense.handOut_eq (NameSupply.dense_empty.handOut (set.columnBases g.config))
    hsame (if set.expectsValues then ["actual"] else [])
  simp only [isSome_expected_iff] at hbody
  simp only [Method.locals, tableTestWith, List.map_map, hbody]
  change Column.names (set.columns g.config) ++ _ = _
  rw [hactual, hcolumns, NameSupply.handedOut, NameSupply.handedOut, tableBases,
    NameSupply.handOut_append]

/-- A data provider has the names that are handed out for what the cells ask for. -/
theorem provider_locals_eq (h : set.toTable g = .ok t g') :
    t.provider.locals = NameSupply.handedOut (set.providerBases g.config) := by
  obtain ⟨_, _, _, _, _, _, _, _, hprovider, -, rfl, -⟩ := eq_of_toTable_ok h
  exact Draft.boundIn_providerBody hprovider

end TestSet

end TestWriter
