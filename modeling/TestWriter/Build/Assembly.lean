import TestWriter.Build.Imports
import TestWriter.Build.Table
import TestWriter.Evidence.Groups
import TestWriter.Report

/-!
# Test classes

A test class has one region per test set that has runs, and a region of static methods.  A build
that is given up is counted as an error of the executable whose test set is processed, and what it
recorded up to then is forgotten; an error that is not recoverable ends the generation.
-/

namespace TestWriter

/-- A class in the making: the state of its generation, its report, and the data providers of its
parameterized tests. -/
structure Assembly where
  generation : Generation
  report : Report
  providers : List Method

namespace Assembly

/-- Add a warning to the report, if there is one. -/
def warn (a : Assembly) (warning : Option String) : Assembly :=
  match warning with
  | some text => { a with report := a.report.warn text }
  | none => a

/-- Build a part of the class, or count the failure to build it and go on without it. -/
def attempt {α : Type} (m : Build Generation α) : Build Assembly (Option α) := fun a =>
  match m a.generation with
  | .ok x g => .ok (some x) { a with generation := g }
  | .error e g =>
    if e.isFatal then .error e { a with generation := g }
    else
      match (g.restore a.generation.usage).tally e.message with
      | .ok g => .ok none { a with generation := g }
      | .error fault => .error fault { a with generation := g }

/-- Write a run as a test, if it can be written. -/
def addRun (e : Executable) (run : Execution) : Build Assembly (Option Method) := do
  modify fun a => a.warn (run.warning? a.generation.config e)
  let test ← attempt (run.toTest e)
  match test with
  | some m => modify fun a => { a with report := a.report.addMethod m }
  | none => pure ()
  return test

/-- Write runs as tests, those that can be written. -/
def addRuns (e : Executable) : List Execution → Build Assembly (List Method)
  | [] => return []
  | run :: rest => do
    let m ← addRun e run
    let ms ← addRuns e rest
    return m.toList ++ ms

/-- The members of a region for the tests of a group.  They get a region of their own if the group
has a summary that says something. -/
def groupItems (summary : Option ClusterNote) (tests : List Method) : List RegionItem :=
  let items := tests.map RegionItem.method
  match summary with
  | none => items
  | some s =>
    if tests.isEmpty || (s.header.isNone && s.content.isEmpty) then items
    else [.region (.mk s.header s.content items)]

/-- Write groups of runs as tests. -/
def addGroups (e : Executable) : List Group → Build Assembly (List RegionItem)
  | [] => return []
  | g :: rest => do
    let tests ← addRuns e g.executions
    let items ← addGroups e rest
    return groupItems g.summary tests ++ items

/-- Write a test set as a parameterized test, if it can be written. -/
def addTable (set : TestSet) : Build Assembly (List RegionItem) := do
  modify fun a => a.warn (set.tableWarning? a.generation.config)
  let table ← attempt set.toTable
  match table with
  | some t =>
    modify fun a =>
      { a with report := a.report.addMethod t.test, providers := a.providers ++ [t.provider] }
    return [.method t.test]
  | none => return []

/-- The lines that list errors. -/
def errorLines (errors : ErrorCounts) : List String :=
  let lines := "Couldn't generate some tests. List of errors:" :: "" ::
    errors.entries.flatMap fun (message, count) =>
      (toString count.toNat ++ " occurrences of:") :: Text.lines message ++ [""]
  (lines.reverse.dropWhile String.isEmpty).reverse

/-- A test that lists the errors of an executable. -/
def errorListing (name : String) (e : Executable) (errors : ErrorCounts) : Method :=
  { name := name
    kind := .errorReport e
    parameters := []
    returnType := .void
    documentation := []
    body := [.comments (errorLines errors)]
    isStatic := false }

/-- The errors of a test set: those recorded with it, and those counted for its executable. -/
def errorsOf (a : Assembly) (set : TestSet) : ErrorCounts :=
  set.errors.merge ((a.generation.errorsAt? set.executable).getD .empty)

/-- List the errors of a test set, if there are any. -/
def addErrors (set : TestSet) : Build Assembly (List RegionItem) := fun a =>
  let errors := a.errorsOf set
  if errors.isEmpty then .ok [] a
  else
    let e := set.executable
    let usage := a.generation.usage
    let (name, names) := usage.names.errorReport e
    .ok [.region (.mk (some ("Errors report for " ++ e.displayName)) []
        [.method (errorListing name e errors)])]
      { a with
        generation := { a.generation with usage := { usage with names := names } }
        report := a.report.addErrors e errors }

/-- Write the tests of a set: one for each run that can be written, or one for all of them. -/
def addTests (set : TestSet) : Build Assembly (List RegionItem) := fun a =>
  if a.generation.config.isParameterized then addTable set a
  else addGroups set.executable set.groups a

/-- The region of a test set, unless it is empty. -/
def addSet (set : TestSet) : Build Assembly (Option Region) := do
  modify fun a => { a with generation := a.generation.enter set.executable }
  let tests ← addTests set
  let errors ← addErrors set
  modify fun a => { a with generation := a.generation.leave }
  let items := tests ++ errors
  return if items.isEmpty then none
    else some (.mk (some ("Test suites for executable " ++ set.executable.display)) [] items)

/-- The region of a test set; a set without runs is passed over. -/
def addCovered (set : TestSet) : Build Assembly (Option Region) :=
  if set.executions.isEmpty then pure none else addSet set

/-- The regions of the test sets that have runs. -/
def addSets : List TestSet → Build Assembly (List Region)
  | [] => return []
  | set :: rest => do
    let region ← addCovered set
    let regions ← addSets rest
    return region.toList ++ regions

/-- The region of static methods: the data providers, and the helpers with those that they call
unless a class of its own holds them. -/
def addStatics : Build Assembly Region := fun a =>
  let g := a.generation
  let (helpers, emitted) := Helper.resolve g.language g.emitted g.usage.required
  let methods := a.providers ++
    if g.config.inlinesHelpers then helpers.map Method.ofHelper else []
  let required := helpers.foldl insertLast g.usage.required
  .ok (.mk (some "Data providers and utils methods") [] (methods.map RegionItem.method))
    { a with
      generation := { g with emitted := emitted, usage := { g.usage with required := required } } }

end Assembly

namespace Generation

/-- The class that a test class of the framework extends. -/
def superclass? (g : Generation) : Option ClassName :=
  if g.config.framework = .unittest then some ⟨"unittest", "TestCase"⟩ else none

/-- The annotations of the test class: with mock objects, the extension that creates them. -/
def extensionAnnotations (g : Generation) : List AnnotationUse :=
  if g.language.isJvm && g.usage.mocks && g.config.framework = .junit5 &&
      g.config.mockLibrary = .mockito then
    [(AnnotationUse.marker "org.junit.jupiter.api.extension" "ExtendWith").withValue
      (.classOf ⟨"org.mockito.junit.jupiter", "MockitoExtension"⟩)]
  else []

/-- A test class with its regions. -/
def testClass (g : Generation) (regions : List Region) (statics : Region) : TestClass :=
  { id := g.generatedClass
    kind := .test
    documentation := []
    annotations := g.extensionAnnotations
    superclass := g.superclass?
    interfaces := []
    regions := regions
    statics := statics }

/-- The file of a test class. -/
def fileOf (g : Generation) (c : TestClass) : SourceFile :=
  { package := if c.id.package.isEmpty then none else some c.id.package
    imports := g.importsOf c
    testClass := c }

end Generation

/-- A test class that was built, with its report and the state of its generation. -/
structure Construction where
  file : SourceFile
  report : Report
  generation : Generation

/-- The state before the first test set. -/
def Assembly.start (g : Generation) : Assembly :=
  { generation := g
    report := .empty (some g.classUnderTest)
    providers := [] }

/-- The test class with its regions, its report and the state in the end. -/
def Assembly.finish (a : Assembly) (regions : List Region) (statics : Region) : Construction :=
  let file := a.generation.fileOf (a.generation.testClass regions statics)
  { file := file
    report := a.report
    generation := { a.generation with imports := file.imports } }

/-- The regions of a test class: those of the test sets, and that of the static methods. -/
def Assembly.addAll (sets : List TestSet) : Build Assembly (List Region × Region) := do
  let regions ← addSets sets
  let statics ← addStatics
  return (regions, statics)

/-- Build the test class of some test sets. -/
def Generation.construct (g : Generation) (sets : List TestSet) : Except Error Construction :=
  match Assembly.addAll sets (.start g) with
  | .ok (regions, statics) a => .ok (a.finish regions statics)
  | .error e _ => .error e

end TestWriter
