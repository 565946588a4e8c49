/-!
# Target languages and test frameworks

The languages in which tests are written, and the frameworks that run them.
-/

namespace TestWriter

/-- A framework that runs the generated tests. -/
inductive Framework
  | junit4
  | junit5
  | testng
  | mocha
  | unittest
  | pytest
  | goTesting
  deriving DecidableEq, Repr

/-- A library that creates mock objects. -/
inductive MockLibrary
  | mockito
  deriving DecidableEq, Repr

/-- A language in which tests are written. -/
inductive Language
  | java
  | kotlin
  | javascript
  | python
  | go
  deriving DecidableEq, Repr

namespace Framework

/-- The name shown to a user. -/
def display : Framework → String
  | .junit4 => "JUnit4"
  | .junit5 => "JUnit5"
  | .testng => "TestNG"
  | .mocha => "Mocha"
  | .unittest => "Unittest"
  | .pytest => "Pytest"
  | .goTesting => "Go testing"

/-- The qualified annotation that marks a test method. -/
def testAnnotation? : Framework → Option String
  | .junit4 => some "org.junit.Test"
  | .junit5 => some "org.junit.jupiter.api.Test"
  | .testng => some "org.testng.annotations.Test"
  | _ => none

/-- The qualified class that declares the static assertion members. -/
def assertionsClass? : Framework → Option String
  | .junit4 => some "org.junit.Assert"
  | .junit5 => some "org.junit.jupiter.api.Assertions"
  | .testng => some "org.testng.Assert"
  | _ => none

/-- Whether an equality assertion takes the actual value before the expected one. -/
def actualComesFirst (f : Framework) : Bool := f = .testng

/-- The names used in configurations. -/
def names : List (String × Framework) :=
  [("junit4", .junit4), ("junit5", .junit5), ("testng", .testng), ("mocha", .mocha),
   ("unittest", .unittest), ("pytest", .pytest), ("go_testing", .goTesting)]

end Framework

namespace MockLibrary

/-- The name shown to a user. -/
def display : MockLibrary → String
  | .mockito => "Mockito"

/-- The class that declares `mock`, `when` and `mockStatic`. -/
def facade : MockLibrary → String
  | .mockito => "org.mockito.Mockito"

/-- The names used in configurations. -/
def names : List (String × MockLibrary) := [("mockito", .mockito)]

end MockLibrary

namespace Language

/-- The languages, in the order in which they are listed. -/
def all : List Language := [.java, .kotlin, .javascript, .python, .go]

/-- The name shown to a user. -/
def display : Language → String
  | .java => "java"
  | .kotlin => "kotlin"
  | .javascript => "javascript"
  | .python => "python"
  | .go => "go"

/-- The names used in configurations. -/
def names : List (String × Language) := all.map fun l => (l.display, l)

/-- The frameworks available in a language, the default one first. -/
def frameworks : Language → List Framework
  | .java | .kotlin => [.junit5, .junit4, .testng]
  | .javascript => [.mocha]
  | .python => [.unittest, .pytest]
  | .go => [.goTesting]

/-- The framework used when none is configured. -/
def defaultFramework : Language → Framework
  | .java | .kotlin => .junit5
  | .javascript => .mocha
  | .python => .unittest
  | .go => .goTesting

/-- The extension of source files, without a dot. -/
def fileExtension : Language → String
  | .java => "java"
  | .kotlin => "kt"
  | .javascript => "js"
  | .python => "py"
  | .go => "go"

/-- Whether the language runs on the JVM. -/
def isJvm : Language → Bool
  | .java | .kotlin => true
  | _ => false

/-- Whether tests of the language can create mock objects. -/
def supportsMocking (l : Language) : Bool := l.isJvm

/-- Whether helpers can live in a class of their own. -/
def supportsHelperClass (l : Language) : Bool := l.isJvm

/-- Whether a framework runs parameterized tests of the language. -/
def supportsParameterized : Language → Framework → Bool
  | .java, f | .kotlin, f => f = .junit5 || f = .testng
  | .python, f => f = .pytest
  | .javascript, _ | .go, _ => false

end Language

end TestWriter
