import TestWriter.Build.Call

/-!
# Tests of single runs

The test of one run builds the receiver and the arguments, calls the executable and checks what
happened.  Main definition: `Execution.toTest`, which may be given up at any value that the language
cannot rebuild.
-/

namespace TestWriter

/-- Why a test that needs static mocking is disabled. -/
def staticMockingReason : String := "Disabled because static mocking is required but not enabled"

/-- Why a test that hangs is disabled. -/
def timeoutReason : String := "Disabled due to failing by exceeding the timeout"

/-- Why a test that may end the test process is disabled. -/
def crashReason : String := "Disabled due to possible crash"

/-- The tolerance of a comparison of floating point numbers. -/
def Primitive.delta? : Primitive → Option Literal
  | .float => some (.float (.ofPattern false (Decimal.single.ofDecimal 1 (-6))))
  | .double => some (.double (.ofPattern false (Decimal.double.ofDecimal 1 (-6))))
  | _ => none

/-- How a test checks the result of a call. -/
inductive ResultCheck
  /-- The result is absent or without interest. -/
  | ignored
  /-- It is the absent value. -/
  | isNull
  /-- It is the one number that differs from itself. -/
  | isNaN
  /-- It equals a value. -/
  | equals (expected : Value)

/-- The check for a result; the assertions of the JVM know that a NaN equals itself. -/
def ResultCheck.ofResult (language : Language) : Option Value → ResultCheck
  | none => .ignored
  | some v =>
    if v.isNull then .isNull
    else if v.isNaN && !language.isJvm then .isNaN
    else .equals v

/-- Whether a helper compares a result with a value, and not an assertion. -/
def Value.comparedByHelper (v : Value) : Language → Bool
  | .java | .kotlin => v.comparesDeeply || v.isMock
  | .python => v.isObject
  | .javascript | .go => false

/-- Mocked static methods of a class, with the variable that holds the mock. -/
structure StaticScope where
  handle : String
  owner : ClassName
  stubbings : List Stubbing

/-- Put statements into scopes of mocked static methods, the first scope outermost. -/
def StaticScope.enclose (scopes : List StaticScope) (body : List Stmt) : List Stmt :=
  scopes.foldr (fun s inner => [.mockedStatic s.handle s.owner s.stubbings inner]) body

namespace Draft

/-- Declare the result of a call; a blank line follows. -/
def declareActual (e : Executable) (call : Expr) : Build Draft Expr := do
  let actual ← declare "actual" e.returnType call
  push .blank
  return actual

/-- The assertion that a call returned a value. -/
def assertEqual (language : Language) (v : Value) (actual : Expr) : Build Draft Unit := do
  let expected ← express language "expected" v
  if v.comparedByHelper language then
    require .deepEquals
    push (.assertTrue (.callHelper .deepEquals [expected, actual]))
  else
    push (.assertEquals expected actual (v.type.primitive?.bind Primitive.delta?)
      v.comparesDeeply)

/-- Call an executable and check its result. -/
def checkResult (language : Language) (e : Executable) (call : Expr) :
    ResultCheck → Build Draft Unit
  | .ignored => push (.eval call)
  | .isNull => do
    let actual ← declareActual e call
    push (.assertNull actual)
  | .isNaN => do
    let actual ← declareActual e call
    push (.assertTrue (.not (.equal actual actual)))
  | .equals v => do
    let actual ← declareActual e call
    assertEqual language v actual

/-- The stubbings of static methods of a class. -/
def staticStubbings (language : Language) : List StaticStub → Build Draft (List Stubbing)
  | [] => return []
  | s :: rest => do
    let e ← express language (s.method ++ "Result") s.returns
    let stubbings ← staticStubbings language rest
    return .mk s.method [] e :: stubbings

/-- Open a scope for the stubs of each class. -/
def staticScopes (language : Language) :
    List (ClassName × List StaticStub) → Build Draft (List StaticScope)
  | [] => return []
  | (owner, stubs) :: rest => do
    let stubbings ← staticStubbings language stubs
    let handle ← freshVariable "mockedStatic"
    let scopes ← staticScopes language rest
    return ⟨handle, owner, stubbings⟩ :: scopes

end Draft

namespace Execution

/-- The stubs of static methods by class, the classes in order of their first stub. -/
def stubsByClass (run : Execution) : OrderedMap ClassName (List StaticStub) :=
  run.staticStubs.foldl (fun groups s => groups.alter s.owner fun old => old.getD [] ++ [s]) .empty

/-- Whether the run needs static mocking while it is off. -/
def lacksStaticMocking (run : Execution) (config : Config) : Bool :=
  !run.staticStubs.isEmpty && config.staticMocking = .off

/-- The stubs of static methods that a test writes, by class. -/
def writtenStubs (run : Execution) (config : Config) : List (ClassName × List StaticStub) :=
  if config.staticMocking = .off then [] else run.stubsByClass.entries

/-- The warning that a run causes, whether or not its test can be written. -/
def warning? (run : Execution) (config : Config) (e : Executable) : Option String :=
  if run.lacksStaticMocking config && config.staticMockingFallback = .disabledTest &&
      config.warnStaticMocking then
    some ("Some tests for " ++ e.display ++
      " need static mocking, which is disabled; they were generated disabled")
  else none

/-- The reason why the test of a run is disabled. -/
def disabledReason? (run : Execution) (config : Config) : Option String :=
  if run.lacksStaticMocking config then some staticMockingReason
  else
    match run.outcome with
    | .timeout _ => if config.enableTimeout then none else some timeoutReason
    | .crash _ => some crashReason
    | _ => none

/-- The timeout of the test of a run. -/
def timeout? (run : Execution) (config : Config) : Option Nat :=
  match run.outcome with
  | .timeout _ => if config.enableTimeout then some config.hangingTimeout else none
  | _ => none

end Execution

/-- Whether a test asserts a failure instead of letting it through. -/
def Config.assertsFailure (config : Config) (kind : FailureKind) : Bool :=
  kind = .explicit || config.failureTests = .passing

/-- Call an executable and check the outcome of a run. -/
def Draft.checkOutcome (config : Config) (e : Executable) (run : Execution) (call : Expr) :
    Build Draft Unit :=
  match run.outcome with
  | .success _ =>
    checkResult config.language e call (.ofResult config.language (run.result? e))
  | .runtimeFailure exception _ kind =>
    if config.assertsFailure kind then push (.assertThrows (.classOf exception) [.eval call])
    else do
      push (.comment ("This test fails because " ++ e.displayName ++ " produces [" ++
        exception.qualifiedName ++ "]"))
      push (.eval call)
  | .timeout limit => do
    if config.enableTimeout then
      push (.comment ("This execution exceeded " ++ toString limit ++ " ms and may fail by the " ++
        toString config.hangingTimeout ++ " ms timeout"))
    push (.eval call)
  | .crash reason => do
    push (.comment ("This invocation possibly crashes the test process: " ++ reason))
    push (.eval call)

/-- Statements, a blank line, and further statements; without the former there is no line. -/
def apart (before after : List Stmt) : List Stmt :=
  if before.isEmpty then after else before ++ .blank :: after

/-- Record that static methods are mocked, if a class has stubs. -/
def Draft.markStatics (stubs : List (ClassName × List StaticStub)) : Build Draft Unit :=
  if stubs.isEmpty then pure () else markMocks

/-- The body of the test of a run. -/
def Draft.bodyOfRun (config : Config) (e : Executable) (run : Execution) :
    Build Draft (List Stmt) := do
  let call ← callOfRun config.language e (argumentNames config e) run
  markStatics (run.writtenStubs config)
  let scopes ← staticScopes config.language (run.writtenStubs config)
  let arrange ← drain
  checkOutcome config e run call
  let act ← drain
  return apart arrange (StaticScope.enclose scopes act)

namespace Execution

/-- Refuse a run that needs static mocking while it is off, unless its test is written disabled. -/
def checkStaticMocking (run : Execution) (config : Config) : Build Generation Unit :=
  match config.staticMocking, config.staticMockingFallback, run.staticStubs with
  | .off, .noTest, s :: _ => Build.refuse (.staticMockingOff s.owner)
  | _, _, _ => pure ()

/-- The test of a run with a given body. -/
def testWith (run : Execution) (config : Config) (e : Executable) (name : String)
    (body : List Stmt) : Method :=
  { name := name
    kind := .test
      { executable := e
        classification := run.classification
        displayName := run.displayName
        timeoutMillis := run.timeout? config
        disabled := run.disabledReason? config }
    parameters := []
    returnType := .void
    documentation := run.summary
    body := body
    isStatic := false }

/-- Write a run as a test under a configuration. -/
def toTestUnder (run : Execution) (config : Config) (e : Executable) :
    Build Generation Method := do
  run.checkStaticMocking config
  let body ← Draft.writing (Draft.bodyOfRun config e run)
  let name ← Generation.takeName fun names => names.test e run
  return run.testWith config e name body

/-- Write a run as a test under the configuration of the generation. -/
def toTest (run : Execution) (e : Executable) : Build Generation Method :=
  fun g => run.toTestUnder g.config e g

end Execution

end TestWriter
