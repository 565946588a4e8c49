import TestWriter.Evidence.Value
import TestWriter.OrderedMap

/-!
# Executions

One run of an executable with its outcome, and the test set that gathers the runs of one
executable with the errors met while they were recorded.
-/

namespace TestWriter

/-- How a runtime failure was raised. -/
inductive FailureKind
  /-- By the code under test itself. -/
  | explicit
  /-- By the runtime. -/
  | implicit
  deriving DecidableEq, Repr

/-- What happened when the executable ran. -/
inductive Outcome
  | success (value : Option Value)
  | runtimeFailure (exception : ClassName) (message : Option String) (kind : FailureKind)
  | timeout (limitMillis : Nat)
  | crash (reason : String)

/-- The classification of a test. -/
inductive Classification
  | successful
  | failing
  | timeout
  | crash
  deriving DecidableEq, Repr

/-- The name shown to a user. -/
def Classification.display : Classification → String
  | .successful => "successful"
  | .failing => "failing"
  | .timeout => "timeout"
  | .crash => "crash"

/-- The classifications with the names shown to a user. -/
def Classification.names : List (String × Classification) :=
  [Classification.successful, .failing, .timeout, .crash].map fun c => (c.display, c)

namespace Outcome

/-- A normal return of a value. -/
def returning (v : Value) : Outcome := .success (some v)

/-- A normal return without a value. -/
def completed : Outcome := .success none

/-- A failure without a recorded message. -/
def failure (kind : FailureKind) (exception : ClassName) : Outcome :=
  .runtimeFailure exception none kind

/-- The classification of a test that reproduces the outcome. -/
def classification : Outcome → Classification
  | .success _ => .successful
  | .runtimeFailure _ _ .explicit => .successful
  | .runtimeFailure _ _ .implicit => .failing
  | .timeout _ => .timeout
  | .crash _ => .crash

/-- Whether the executable returned or threw, so that a row of a table can tell what it did. -/
def isTabular : Outcome → Bool
  | .success _ | .runtimeFailure .. => true
  | _ => false

end Outcome

/-- A static method that was stubbed while the executable ran. -/
structure StaticStub where
  owner : ClassName
  method : String
  returns : Value

/-- One run of an executable. -/
structure Execution where
  receiver : Option Value
  arguments : List Value
  outcome : Outcome
  staticStubs : List StaticStub
  testName : Option String
  displayName : Option String
  summary : List String

namespace Execution

/-- A run without receiver, stubs and texts. -/
def ofArguments (arguments : List Value) (outcome : Outcome) : Execution :=
  { receiver := none
    arguments := arguments
    outcome := outcome
    staticStubs := []
    testName := none
    displayName := none
    summary := [] }

/-- The classification of a test that reproduces the run. -/
def classification (e : Execution) : Classification := e.outcome.classification

end Execution

/-- Documentation shared by some executions. -/
structure ClusterNote where
  header : Option String
  content : List String
  deriving DecidableEq, Repr

/-- A summary with the executions from index `start` up to, not including, `stop`. -/
structure Cluster where
  summary : ClusterNote
  start : Nat
  stop : Nat
  deriving DecidableEq, Repr

/-- How often each error occurred, in order of first occurrence.  Counts are words of 64 bits that
wrap around when they are added, as in a build without overflow checks. -/
abbrev ErrorCounts := OrderedMap String UInt64

namespace ErrorCounts

/-- Add to the count of a message. -/
def add (errors : ErrorCounts) (message : String) (count : UInt64) : ErrorCounts :=
  errors.alter message fun old => old.getD 0 + count

/-- Add all counts of the second map to the first. -/
def merge (errors more : ErrorCounts) : ErrorCounts :=
  more.entries.foldl (fun acc entry => acc.add entry.1 entry.2) errors

/-- The sum of the counts. -/
def total (errors : ErrorCounts) : UInt64 :=
  errors.values.foldl (· + ·) 0

end ErrorCounts

/-- The evidence about one executable. -/
structure TestSet where
  executable : Executable
  executions : List Execution
  clusters : List Cluster
  errors : ErrorCounts

end TestWriter
