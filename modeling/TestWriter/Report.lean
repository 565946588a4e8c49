import TestWriter.Json.Fields
import TestWriter.Suite.File

/-!
# Reports

The statistics of one generation: for each executable the names of its tests by classification and
the errors that kept tests from being written.  Counts of errors are words of 64 bits.
-/

namespace TestWriter

/-- The tests and errors of one executable. -/
structure ReportEntry where
  successful : List String
  failing : List String
  timeout : List String
  crash : List String
  errors : ErrorCounts
  deriving DecidableEq

namespace ReportEntry

/-- A report without tests and errors. -/
def empty : ReportEntry := ⟨[], [], [], [], .empty⟩

/-- The names of the tests of a classification. -/
def bucket (r : ReportEntry) : Classification → List String
  | .successful => r.successful
  | .failing => r.failing
  | .timeout => r.timeout
  | .crash => r.crash

/-- Add the name of a test. -/
def addTest (r : ReportEntry) (c : Classification) (name : String) : ReportEntry :=
  match c with
  | .successful => { r with successful := r.successful ++ [name] }
  | .failing => { r with failing := r.failing ++ [name] }
  | .timeout => { r with timeout := r.timeout ++ [name] }
  | .crash => { r with crash := r.crash ++ [name] }

theorem bucket_addTest (r : ReportEntry) (c d : Classification) (name : String) :
    (r.addTest c name).bucket d = if c = d then r.bucket d ++ [name] else r.bucket d := by
  cases c <;> cases d <;> simp [addTest, bucket]

/-- The number of tests. -/
def testCount (r : ReportEntry) : Nat :=
  r.successful.length + r.failing.length + r.timeout.length + r.crash.length

/-- The number of errors. -/
def errorCount (r : ReportEntry) : UInt64 := r.errors.total

end ReportEntry

/-- The statistics of one generation. -/
structure Report where
  classUnderTest : Option ClassName
  executables : OrderedMap Executable ReportEntry
  warnings : List String
  deriving DecidableEq

namespace Report

/-- The report of a generation that wrote nothing yet. -/
def empty (classUnderTest : Option ClassName) : Report := ⟨classUnderTest, .empty, []⟩

/-- Change the report of an executable. -/
def alter (r : Report) (e : Executable) (f : ReportEntry → ReportEntry) : Report :=
  { r with executables := r.executables.alter e fun old => f (old.getD .empty) }

/-- Count a method.  A parameterized test only marks its executable as covered. -/
def addMethod (r : Report) (m : Method) : Report :=
  match m.kind with
  | .test info => r.alter info.executable fun x => x.addTest info.classification m.name
  | .parameterized e _ => r.alter e id
  | .errorReport _ | .dataProvider | .helper _ => r

/-- Add the errors of an executable. -/
def addErrors (r : Report) (e : Executable) (errors : ErrorCounts) : Report :=
  r.alter e fun x => { x with errors := x.errors.merge errors }

/-- Add a warning, once. -/
def warn (r : Report) (warning : String) : Report :=
  { r with warnings := insertLast r.warnings warning }

/-- The sum of a number over the executables. -/
def count (r : Report) (pick : ReportEntry → Nat) : Nat :=
  r.executables.values.foldl (fun n x => n + pick x) 0

/-- The number of tests. -/
def totalTests (r : Report) : Nat := r.count ReportEntry.testCount

/-- The number of tests of a classification. -/
def countOf (r : Report) (c : Classification) : Nat := r.count fun x => (x.bucket c).length

/-- The number of errors. -/
def totalErrors (r : Report) : UInt64 :=
  r.executables.values.foldl (fun n x => n + x.errorCount) 0

/-- Whether there are errors. -/
def hasErrors (r : Report) : Bool := 0 < r.totalErrors

/-- The line that counts the errors. -/
def errorLine (r : Report) : String :=
  "Not generated because of internal errors test methods: " ++ toString r.totalErrors.toNat

/-- The numbers by classification, one a line. -/
def statistics (r : Report) : List String :=
  ["Successful test methods: " ++ toString (r.countOf .successful),
   "Failing because of unexpected exception test methods: " ++ toString (r.countOf .failing),
   "Failing because of exceeding timeout test methods: " ++ toString (r.countOf .timeout),
   "Failing because of possible crash test methods (disabled): " ++ toString (r.countOf .crash),
   r.errorLine]

/-- The summary shown to a user; a short one leaves out the numbers by classification. -/
def summary (r : Report) (short : Bool) : String :=
  let name := (r.classUnderTest.map ClassName.qualifiedName).getD "the class"
  let details :=
    if !short then r.statistics
    else if r.hasErrors then [r.errorLine]
    else []
  "\n".intercalate
    (["Unit tests for " ++ name ++ " were generated.",
      "Overall test methods: " ++ toString r.totalTests] ++
      details ++ r.warnings.map ("Warning: " ++ ·))

/-- Whether two reports say the same, whatever the order of their executables and messages. -/
def same (r s : Report) : Bool :=
  r.classUnderTest = s.classUnderTest && r.warnings = s.warnings &&
    r.executables.entries.length == s.executables.entries.length &&
    r.executables.entries.all fun (e, x) =>
      match s.executables.get? e with
      | none => false
      | some y =>
        x.successful = y.successful && x.failing = y.failing && x.timeout = y.timeout &&
          x.crash = y.crash && x.errors.same y.errors

end Report

end TestWriter
