import TestWriter.Language
import TestWriter.OrderedMap
import TestWriter.Text.Lines

/-!
# Configuration

The options of one generation and their validation.  Main statement: `Config.validate` answers with
the first fault in a fixed order, so a configuration is valid when it has none.
-/

namespace TestWriter

/-- Whether static methods can be mocked. -/
inductive StaticMocking
  | off
  | mockito
  deriving DecidableEq, Repr

/-- What happens to a test that needs static mocking when it is off. -/
inductive StaticMockingFallback
  /-- It is written, but disabled. -/
  | disabledTest
  /-- It is left out, and an error is counted. -/
  | noTest
  deriving DecidableEq, Repr

/-- Whether the runs of an executable become one test each or one table. -/
inductive Parameterization
  | oneTestPerRun
  | oneTable
  deriving DecidableEq, Repr

/-- What a test of a failure of the runtime does. -/
inductive FailureTests
  /-- It asserts the failure. -/
  | passing
  /-- It lets the failure through. -/
  | failing
  deriving DecidableEq, Repr

/-- The options of one generation. -/
structure Config where
  framework : Framework := .junit5
  mockLibrary : MockLibrary := .mockito
  staticMocking : StaticMocking := .off
  staticMockingFallback : StaticMockingFallback := .disabledTest
  language : Language := .java
  parameterization : Parameterization := .oneTestPerRun
  failureTests : FailureTests := .passing
  hangingTimeout : Nat := 1000
  enableTimeout : Bool := true
  package : Option String := none
  parameterNames : OrderedMap String (List String) := .empty
  separateHelperClass : Bool := false
  warnStaticMocking : Bool := true
  deriving DecidableEq

/-- A reason to refuse a configuration. -/
inductive ConfigFault
  | frameworkUnavailable (framework : Framework) (language : Language)
  | staticMockingUnavailable (language : Language)
  | timeoutOutOfRange (millis : Nat)
  | malformedPackage (package : String)
  deriving DecidableEq, Repr

namespace ConfigFault

/-- The text shown to a user. -/
def message : ConfigFault → String
  | .frameworkUnavailable f l =>
    "test framework " ++ f.display ++ " is not available for " ++ l.display
  | .staticMockingUnavailable l => "static mocking is not available for " ++ l.display
  | .timeoutOutOfRange millis =>
    "hanging tests timeout " ++ toString millis ++ "ms is outside 100..=1000000ms"
  | .malformedPackage package => "malformed package name '" ++ package ++ "'"

end ConfigFault

/-- The smallest timeout of a hanging test, in milliseconds. -/
def minTimeout : Nat := 100

/-- The largest timeout of a hanging test, in milliseconds. -/
def maxTimeout : Nat := 1000000

/-- Accept a timeout within the bounds. -/
def checkTimeout (millis : Nat) : Except ConfigFault Unit :=
  if minTimeout ≤ millis ∧ millis ≤ maxTimeout then .ok ()
  else .error (.timeoutOutOfRange millis)

/-- Whether a package name has an empty part; the empty name is none. -/
def isMalformedPackage (package : String) : Bool :=
  !package.isEmpty && (Text.parts '.' package.toList).any List.isEmpty

namespace Config

/-- The default configuration of a language. -/
def forLanguage (l : Language) : Config :=
  { language := l
    framework := l.defaultFramework }

/-- Whether the runs of an executable become one table. -/
def isParameterized (c : Config) : Bool := c.parameterization = .oneTable

/-- Whether helpers are written into the test class itself. -/
def inlinesHelpers (c : Config) : Bool :=
  !(c.separateHelperClass && c.language.supportsHelperClass)

/-- Accept a configuration whose options fit together. -/
def validate (c : Config) : Except ConfigFault Unit := do
  if c.framework ∉ c.language.frameworks then
    throw (.frameworkUnavailable c.framework c.language)
  if c.staticMocking = .mockito ∧ c.language.supportsMocking = false then
    throw (.staticMockingUnavailable c.language)
  checkTimeout c.hangingTimeout
  match c.package with
  | some package => if isMalformedPackage package then throw (.malformedPackage package)
  | none => pure ()

end Config

end TestWriter
