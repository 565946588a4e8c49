import TestWriter.Config
import TestWriter.Evidence.Type
import TestWriter.Helper

/-!
# Errors

The causes for which a step fails, each with the text shown to a user.  Only a build failure is
recoverable: it is counted, and generation goes on with the next run.
-/

namespace TestWriter

/-- A reason why a run cannot be written as a test. -/
inductive BuildFailure
  | staticMockingOff (owner : ClassName)
  | argumentCount (name : String) (expected actual : Nat)
  | noReceiver (name : String)
  | noConstructors (typeName : String)
  | constructorArguments (typeName : String)
  | mockUnsupported (className : String) (language : Language)
  | parameterizedUnsupported (framework : Framework) (language : Language)
  | nothingToParameterize (name : String)
  | staticMockingParameterized
  deriving DecidableEq, Repr

namespace BuildFailure

/-- The text shown to a user. -/
def message : BuildFailure → String
  | .staticMockingOff owner =>
    "static mocking of " ++ owner.qualifiedName ++ " is required but not enabled"
  | .argumentCount name expected actual =>
    name ++ " expects " ++ toString expected ++ " arguments but the execution has " ++
      toString actual
  | .noReceiver name => "no instance to call " ++ name ++ " on"
  | .noConstructors typeName => "go type " ++ typeName ++ " has no constructors"
  | .constructorArguments typeName =>
    "go struct " ++ typeName ++ " has no constructor taking arguments"
  | .mockUnsupported className language =>
    "mocking " ++ className ++ " is not supported in " ++ language.display
  | .parameterizedUnsupported framework language =>
    "parameterized tests are not supported by " ++ framework.display ++ " in " ++ language.display
  | .nothingToParameterize name => "no execution of " ++ name ++ " can be parameterized"
  | .staticMockingParameterized => "static mocking is not supported in parameterized tests"

end BuildFailure

/-- Something that a target language cannot express. -/
inductive Construct
  | voidValues
  | exceptionClasses
  | notNullAssertion
  | mockStubbing
  | staticMocking
  | parameterizedTests
  | parameterizedWithoutPytest
  | longLambda
  | helper (h : Helper)
  | helperFiles
  | helperClass
  | constructorArguments (typeName : String)
  | classObject (className : String)
  | mockOf (className : String)
  deriving DecidableEq, Repr

namespace Construct

/-- The words for the construct. -/
def description : Construct → String
  | .voidValues => "void values"
  | .exceptionClasses => "exception classes"
  | .notNullAssertion => "not-null assertion"
  | .mockStubbing => "mock stubbing"
  | .staticMocking => "static mocking"
  | .parameterizedTests => "parameterized tests"
  | .parameterizedWithoutPytest => "parameterized tests without pytest"
  | .longLambda => "multi-statement lambda"
  | .helper h => "helper " ++ h.name
  | .helperFiles => "helper files"
  | .helperClass => "standalone helper class"
  | .constructorArguments typeName => "constructor arguments of " ++ typeName
  | .classObject className => "class object of " ++ className
  | .mockOf className => "mock of " ++ className

end Construct

/-- A construct that a language cannot express. -/
structure Unsupported where
  language : Language
  construct : Construct
  deriving DecidableEq, Repr

/-- A reason why a file cannot be reached. -/
inductive FileFault
  | missing
  | notDirectory
  | isDirectory
  | nameTooLong
  deriving DecidableEq, Repr

namespace FileFault

/-- The number that the operating system gives to the fault. -/
def code : FileFault → Nat
  | .missing => 2
  | .notDirectory => 20
  | .isDirectory => 21
  | .nameTooLong => 36

/-- The words of the operating system for the fault. -/
def description : FileFault → String
  | .missing => "No such file or directory"
  | .notDirectory => "Not a directory"
  | .isDirectory => "Is a directory"
  | .nameTooLong => "File name too long"

/-- The text shown to a user. -/
def message (f : FileFault) : String :=
  f.description ++ " (os error " ++ toString f.code ++ ")"

end FileFault

/-- The reason why a step failed. -/
inductive Error
  | build (cause : BuildFailure)
  | unsupported (cause : Unsupported)
  /-- A test set was asked for while none is processed. -/
  | noTestSet
  | config (fault : ConfigFault)
  /-- Evidence or a configuration could not be read. -/
  | malformed
  | file (fault : FileFault)
  deriving DecidableEq, Repr

namespace Error

/-- The text shown to a user. -/
def message : Error → String
  | .build cause => cause.message
  | .unsupported cause =>
    cause.construct.description ++ " is not supported in " ++ cause.language.display
  | .noTestSet => "scope violation: no test set is being processed"
  | .config fault => "configuration error: " ++ fault.message
  | .malformed => "serialization error"
  | .file fault => "io error: " ++ fault.message

/-- Whether the error ends the generation. -/
def isFatal : Error → Bool
  | .build _ => false
  | _ => true

end Error

end TestWriter
