import TestWriter.Build.Test

/-!
# Parameterized tests

A parameterized test checks all runs of an executable that returned or threw.  Its parameters are
the columns of a table, and a data provider returns one row per run: the receiver, the arguments,
the expected value and the class of the expected error.
-/

namespace TestWriter

/-- What a column holds. -/
inductive ColumnRole
  | receiver
  | argument (index : Nat)
  | expected
  | expectedError
  deriving DecidableEq, Repr

/-- A column of a table. -/
structure Column where
  parameter : Parameter
  role : ColumnRole
  deriving DecidableEq, Repr

/-- What a row holds in a column. -/
inductive Cell
  | value (v : Value)
  | exception (c : ClassName)
  | absent

namespace Execution

/-- What the row of a run holds in a column. -/
def cell (run : Execution) : ColumnRole → Cell
  | .receiver =>
    match run.receiver with
    | some v => .value v
    | none => .absent
  | .argument i =>
    match run.arguments[i]? with
    | some v => .value v
    | none => .absent
  | .expected =>
    match run.outcome with
    | .success (some v) => .value v
    | _ => .absent
  | .expectedError =>
    match run.outcome with
    | .runtimeFailure exception _ _ => .exception exception
    | _ => .absent

/-- Whether the run failed. -/
def failed (run : Execution) : Bool :=
  match run.outcome with
  | .runtimeFailure .. => true
  | _ => false

end Execution

namespace Column

/-- Name the columns of a table one after the other. -/
def named (language : Language) (names : NameSupply) :
    List (String × DataType × ColumnRole) → List Column
  | [] => []
  | (base, type, role) :: rest =>
    let (name, names) :=
      names.claimVariable (if language = .python then Text.snakeCase base else base)
    ⟨⟨name, type⟩, role⟩ :: named language names rest

/-- The columns of the table of some runs.  There is a column for expected values if a run returned
one, and a column for errors if a run failed. -/
def ofRuns (config : Config) (e : Executable) (rows : List Execution) : List Column :=
  let receiver :=
    if e.kind = .method then [(e.receiverName, .ofClass e.owner, .receiver)] else []
  let arguments := (e.parameters.zip (argumentNames config e)).mapIdx fun i (p, name) =>
    (name, p.type, .argument i)
  let expected :=
    if rows.any fun run => (run.result? e).isSome then [("expected", .any, .expected)] else []
  let expectedError :=
    if rows.any Execution.failed then [("expectedError", .errorClass, .expectedError)] else []
  named config.language .empty (receiver ++ arguments ++ expected ++ expectedError)

/-- The variable of the column with a role, if there is one. -/
def reference? (columns : List Column) (role : ColumnRole) : Option Expr :=
  (columns.find? fun c => c.role = role).map fun c => .ref c.parameter.name

/-- The variables of the columns that hold arguments. -/
def argumentRefs (columns : List Column) : List Expr :=
  columns.filterMap fun c =>
    match c.role with
    | .argument _ => some (.ref c.parameter.name)
    | _ => none

end Column

/-- Whether a helper compares the results of a type, and not an assertion. -/
def DataType.comparedByHelper (t : DataType) (language : Language) : Bool :=
  match t with
  | .ofClass _ | .any => language.isJvm || language = .python
  | .array _ => language.isJvm
  | _ => false

namespace Draft

/-- The expression of a cell; only a receiver may not be absent. -/
def cellExpr (language : Language) (e : Executable) (run : Execution) (c : Column) :
    Build Draft Expr :=
  match run.cell c.role with
  | .value v => express language c.parameter.name v
  | .exception owner => pure (.classOf owner)
  | .absent =>
    if c.role = .receiver then Build.refuse (.noReceiver e.displayName) else pure .null

/-- The expressions of the cells of a row. -/
def cellExprs (language : Language) (e : Executable) (run : Execution) :
    List Column → Build Draft (List Expr)
  | [] => return []
  | c :: rest => do
    let x ← cellExpr language e run c
    let xs ← cellExprs language e run rest
    return x :: xs

/-- The rows of a table. -/
def tableRows (language : Language) (e : Executable) (columns : List Column) :
    List Execution → Build Draft (List Expr)
  | [] => return []
  | run :: rest => do
    checkCount e run
    let xs ← cellExprs language e run columns
    let rows ← tableRows language e columns rest
    return .arrayOf .any xs :: rows

/-- The body of a data provider. -/
def providerBody (language : Language) (e : Executable) (columns : List Column)
    (rows : List Execution) : Build Draft (List Stmt) := do
  let exprs ← tableRows language e columns rows
  let arrange ← drain
  return apart arrange [.ret (some (.arrayOf (.array .any) exprs))]

/-- The assertion that a result has the expected value of a row. -/
def assertExpected (language : Language) (returnType : DataType) (expected actual : Expr) :
    Build Draft Unit :=
  if returnType.comparedByHelper language then do
    require .deepEquals
    push (.assertTrue (.callHelper .deepEquals [expected, actual]))
  else
    match returnType with
    | .primitive p =>
      push (.assertEquals (if p.isFloating then .cast returnType expected else expected) actual
        p.delta? false)
    | .ofClass _ | .array _ | .any => push (.assertEquals expected actual none true)
    | _ => push (.assertEquals expected actual none false)

/-- The call that is made for each row. -/
def callOfRow (e : Executable) (columns : List Column) : Expr :=
  e.call ((Column.reference? columns .receiver).getD .null) (Column.argumentRefs columns)

/-- Call the executable with a row that expects no error, and check its result. -/
def checkRow (language : Language) (e : Executable) (columns : List Column) : Build Draft Unit :=
  match Column.reference? columns .expected with
  | some expected => do
    let actual ← declareActual e (callOfRow e columns)
    assertExpected language e.returnType expected actual
  | none => push (.eval (callOfRow e columns))

/-- Run some statements for the rows that expect no error, and assert the error for the others. -/
def branchOnError (e : Executable) (columns : List Column) (success : List Stmt) : List Stmt :=
  match Column.reference? columns .expectedError with
  | some error =>
    [.branch (.equal error .null) success [.assertThrows error [.eval (callOfRow e columns)]]]
  | none => success

/-- The body of a parameterized test, whose parameters have taken their names. -/
def tableBody (language : Language) (e : Executable) (columns : List Column) :
    Build Draft (List Stmt) := do
  takeVariables (columns.map fun c => c.parameter.name)
  checkRow language e columns
  let success ← drain
  return branchOnError e columns success

end Draft

/-- A parameterized test with its data provider. -/
structure ParameterizedTest where
  test : Method
  provider : Method

namespace TestSet

/-- The runs that become rows. -/
def rows (set : TestSet) : List Execution :=
  set.executions.filter fun run => run.outcome.isTabular

/-- Refuse a set without a table: the framework has to run tables, there has to be a row, and no
row may stub static methods. -/
def checkTable (set : TestSet) (config : Config) : Build Generation Unit :=
  if !config.language.supportsParameterized config.framework then
    Build.refuse (.parameterizedUnsupported config.framework config.language)
  else if set.rows.isEmpty then Build.refuse (.nothingToParameterize set.executable.displayName)
  else if set.rows.any fun run => !run.staticStubs.isEmpty then
    Build.refuse .staticMockingParameterized
  else pure ()

/-- The warning that a parameterized set causes, whether or not it can be written. -/
def tableWarning? (set : TestSet) (config : Config) : Option String :=
  let skipped := set.executions.length - set.rows.length
  if config.language.supportsParameterized config.framework && 0 < skipped then
    some (toString skipped ++ " executions of " ++ set.executable.display ++
      " timed out or crashed and were left out of the parameterized test")
  else none

/-- The data provider with a given body. -/
def providerWith (name : String) (body : List Stmt) : Method :=
  { name := name
    kind := .dataProvider
    parameters := []
    returnType := .array (.array .any)
    documentation := []
    body := body
    isStatic := true }

/-- The parameterized test of an executable with given columns and a given body. -/
def tableTestWith (e : Executable) (columns : List Column) (name providerName : String)
    (body : List Stmt) : Method :=
  { name := name
    kind := .parameterized e providerName
    parameters := columns.map Column.parameter
    returnType := .void
    documentation := []
    body := body
    isStatic := false }

/-- Write a set as a parameterized test under a configuration. -/
def toTableUnder (set : TestSet) (config : Config) : Build Generation ParameterizedTest := do
  let e := set.executable
  set.checkTable config
  let columns := Column.ofRuns config e set.rows
  let providerName ← Generation.takeName fun names => names.dataProvider e
  let providerBody ← Draft.writing (Draft.providerBody config.language e columns set.rows)
  let testBody ← Draft.writing (Draft.tableBody config.language e columns)
  let testName ← Generation.takeName fun names => names.parameterizedTest e
  return { test := tableTestWith e columns testName providerName testBody
           provider := providerWith providerName providerBody }

/-- Write a set as a parameterized test under the configuration of the generation. -/
def toTable (set : TestSet) : Build Generation ParameterizedTest :=
  fun g => set.toTableUnder g.config g

end TestSet

end TestWriter
