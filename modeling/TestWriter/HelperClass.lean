import TestWriter.Generation
import TestWriter.Json.Fields
import TestWriter.Target.Render

/-!
# Helper classes

The class that holds the helpers for several test classes.  Its kinds are ordered by what they
offer, and test classes that share one get the strongest kind that any of them needs.
-/

namespace TestWriter

/-- What a helper class offers. -/
inductive HelperClass
  | plain
  /-- Its helpers know the mock objects of a library. -/
  | withMocks (library : MockLibrary)
  deriving DecidableEq, Repr

namespace HelperClass

/-- The name shown to a user. -/
def display : HelperClass → String
  | .plain => "plain util class"
  | .withMocks f => "util class with " ++ f.display ++ " support"

/-- The helper class that a generation needs, if it needs one. -/
def ofGeneration? (g : Generation) : Option HelperClass :=
  if g.usage.required.isEmpty || g.config.inlinesHelpers then none
  else if g.usage.mocks then some (.withMocks g.config.mockLibrary)
  else some .plain

/-- How much a helper class offers; none at all offers nothing. -/
def strength : Option HelperClass → Nat
  | none => 0
  | some .plain => 1
  | some (.withMocks _) => 2

/-- The strongest of some needs. -/
def combine (needs : List (Option HelperClass)) : Option HelperClass :=
  needs.foldl (fun best need => if strength best ≤ strength need then need else best) none

/-- The mock library that the helpers know. -/
def mockLibrary? : HelperClass → Option MockLibrary
  | .plain => none
  | .withMocks f => some f

/-- The file of the helper class in a language. -/
def file (language : Language) : SourceFile :=
  { package := some helperClassName.package
    imports := []
    testClass :=
      { id := helperClassName
        kind := .helpers
        documentation := ["This class contains util methods used in generated tests."]
        annotations := []
        superclass := none
        interfaces := []
        regions := []
        statics := .mk none []
          ((Helper.all.filter fun h => h.supported language).map fun h =>
            .method (.ofHelper h)) } }

/-- The text of a helper class in a language that keeps helpers in a class of their own. -/
def text (k : HelperClass) (language : Language) : Except Error String :=
  if language.supportsHelperClass then
    Target.renderFile ⟨language, .junit5, k.mockLibrary?⟩ (file language)
  else .error (.unsupported ⟨language, .helperClass⟩)

/-- The JSON form of a helper class. -/
def toJson : HelperClass → Json
  | .plain => .string "plain"
  | .withMocks f => .object [("mocking_capable", Json.enumName MockLibrary.names f)]

end HelperClass

end TestWriter
