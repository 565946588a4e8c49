import TestWriter.Build.Assembly
import TestWriter.HelperClass

/-!
# Generators

A generator belongs to one class under test and a valid configuration.  Every generation starts
from the same state, so generations do not influence each other.
-/

namespace TestWriter

/-- A generator of test classes. -/
structure Generator where
  base : Generation

/-- What a generation produces. -/
structure GeneratedTests where
  code : String
  /-- The helper class that the code needs. -/
  helperClass : Option HelperClass
  report : Report
  mocks : Bool
  /-- What a JavaScript module has to export for its tests. -/
  moduleExports : List String

/-- How the file of a generation is rendered. -/
def Generation.settings (g : Generation) : Target.Settings :=
  { language := g.language
    framework := g.config.framework
    mockLibrary := if g.usage.mocks then some g.config.mockLibrary else none }

namespace Generator

/-- A generator for a class, if the configuration is valid. -/
def new (classUnderTest : ClassName) (config : Config) : Except Error Generator :=
  match config.validate with
  | .ok () => .ok ⟨.new classUnderTest config⟩
  | .error fault => .error (.config fault)

/-- Build the test class without writing it; its imports are in order of first mention. -/
def assemble (g : Generator) (sets : List TestSet) : Except Error (SourceFile × Report) := do
  let c ← (g.base.derive none false).construct sets
  return (c.file, c.report)

/-- Build and write the test class. -/
def generate (g : Generator) (sets : List TestSet) (className : Option String) :
    Except Error GeneratedTests := do
  let c ← (g.base.derive className true).construct sets
  let code ← Target.renderFile c.generation.settings c.file
  return { code := code
           helperClass := HelperClass.ofGeneration? c.generation
           report := c.report
           mocks := c.generation.usage.mocks
           moduleExports := c.generation.moduleExports }

end Generator

end TestWriter
