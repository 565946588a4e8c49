import TestWriter.Error
import TestWriter.Names
import TestWriter.Suite.File

/-!
# The state of a generation

What is fixed for one generation, and what it gathers while the class is built: helpers in use,
names in use, errors by executable, and imports.
-/

namespace TestWriter

/-- What building a test records beside the test: the helpers it calls, whether it creates mock
objects, and the names it takes. -/
structure Usage where
  required : List Helper
  mocks : Bool
  names : MethodNames
  deriving DecidableEq

/-- Record that a helper is called. -/
def Usage.require (u : Usage) (h : Helper) : Usage :=
  { u with required := insertLast u.required h }

/-- The state of a generation. -/
structure Generation where
  classUnderTest : ClassName
  config : Config
  optimizeImports : Bool
  customName : Option String
  imports : List Import
  /-- The names of the helpers that the class holds already. -/
  emitted : List String
  errors : OrderedMap Executable ErrorCounts
  current : Option Executable
  usage : Usage

/-- The class of helpers that stands on its own. -/
def helperClassName : ClassName := ⟨"testsmith.runtime.utils", "UtUtils"⟩

namespace Generation

/-- The state at the start. -/
def new (classUnderTest : ClassName) (config : Config) : Generation :=
  { classUnderTest := classUnderTest
    config := config
    optimizeImports := false
    customName := none
    imports := []
    emitted := []
    errors := .empty
    current := none
    usage := ⟨[], false, .new config.language⟩ }

/-- The state at the start of a generation for the same class. -/
def derive (g : Generation) (customName : Option String) (optimizeImports : Bool) : Generation :=
  { new g.classUnderTest g.config with
    optimizeImports := optimizeImports
    customName := customName.or g.customName }

/-- The language of the tests. -/
def language (g : Generation) : Language := g.config.language

/-- The package of the test class. -/
def testPackage (g : Generation) : String := g.config.package.getD g.classUnderTest.package

/-- The name of the test class. -/
def testClassName (g : Generation) : String :=
  match g.customName with
  | some name => name
  | none =>
    let base := Text.capitalize g.classUnderTest.name
    match g.language with
    | .python => "Test" ++ base
    | _ => base ++ "Test"

/-- The test class. -/
def generatedClass (g : Generation) : ClassName := ⟨g.testPackage, g.testClassName⟩

/-- The class that holds the helpers, unless the test class does. -/
def helperClass? (g : Generation) : Option ClassName :=
  if g.config.inlinesHelpers then none else some helperClassName

/-- Record that a helper is called. -/
def require (g : Generation) (h : Helper) : Generation := { g with usage := g.usage.require h }

/-- Record that a mock object is created. -/
def markMocks (g : Generation) : Generation := { g with usage := { g.usage with mocks := true } }

/-- Go back to an earlier record of use, when the build that added to it is given up. -/
def restore (g : Generation) (snapshot : Usage) : Generation := { g with usage := snapshot }

/-- Make an executable the one whose test set is processed. -/
def enter (g : Generation) (e : Executable) : Generation := { g with current := some e }

/-- End the processing of a test set. -/
def leave (g : Generation) : Generation := { g with current := none }

/-- The executable whose test set is processed. -/
def currentExecutable (g : Generation) : Except Error Executable :=
  match g.current with
  | some e => .ok e
  | none => .error .noTestSet

/-- Count an error of an executable. -/
def tallyAt (g : Generation) (e : Executable) (message : String) : Generation :=
  { g with errors := g.errors.alter e fun old => (old.getD .empty).add message 1 }

/-- Count an error of the executable whose test set is processed. -/
def tally (g : Generation) (message : String) : Except Error Generation :=
  g.currentExecutable.map fun e => g.tallyAt e message

/-- The errors counted for an executable. -/
def errorsAt? (g : Generation) (e : Executable) : Option ErrorCounts := g.errors.get? e

end Generation

end TestWriter
