import TestWriter.Config
import TestWriter.Json.Fields

/-!
# Configurations as JSON

Every option may be absent and then takes its default; an unknown option is refused.
-/

namespace TestWriter

/-- The names of the ways to mock static methods. -/
def StaticMocking.names : List (String × StaticMocking) :=
  [("no_static_mocking", .off), ("mockito_static_mocking", .mockito)]

/-- The names of what happens to tests that need static mocking. -/
def StaticMockingFallback.names : List (String × StaticMockingFallback) :=
  [("force", .disabledTest), ("do_not_force", .noTest)]

/-- The names of the ways to write the runs of an executable. -/
def Parameterization.names : List (String × Parameterization) :=
  [("do_not_parametrize", .oneTestPerRun), ("parametrize", .oneTable)]

/-- The names of what a test of a failure does. -/
def FailureTests.names : List (String × FailureTests) :=
  [("passing_tests", .passing), ("failing_tests", .failing)]

namespace Config

/-- The options. -/
def options : List String :=
  ["test_framework", "mock_framework", "statics_mocking", "force_static_mocking",
   "codegen_language", "parameterized_test_source", "runtime_exception_tests_behaviour",
   "hanging_tests_timeout", "enable_tests_timeout", "test_class_package_name",
   "param_name_overrides", "generate_util_class_file", "generate_warnings_for_static_mocking"]

/-- The JSON form of the names of parameters. -/
def parameterNamesToJson (names : OrderedMap String (List String)) : Json :=
  .object (names.entries.map fun entry => (entry.1, Json.list Json.string entry.2))

/-- Read the names of parameters.  A repeated executable keeps its first place and its last
names. -/
def parameterNames? (j : Json) : Option (OrderedMap String (List String)) := do
  let fs ← j.fields?
  let entries ← fs.mapM fun member => do
    return (member.1, ← member.2.list? Json.string?)
  return .ofList entries

/-- The JSON form of a configuration. -/
def toJson (c : Config) : Json :=
  .object
    [("test_framework", Json.enumName Framework.names c.framework),
     ("mock_framework", Json.enumName MockLibrary.names c.mockLibrary),
     ("statics_mocking", Json.enumName StaticMocking.names c.staticMocking),
     ("force_static_mocking", Json.enumName StaticMockingFallback.names c.staticMockingFallback),
     ("codegen_language", Json.enumName Language.names c.language),
     ("parameterized_test_source", Json.enumName Parameterization.names c.parameterization),
     ("runtime_exception_tests_behaviour", Json.enumName FailureTests.names c.failureTests),
     ("hanging_tests_timeout", Json.int c.hangingTimeout),
     ("enable_tests_timeout", .bool c.enableTimeout),
     ("test_class_package_name", Json.option Json.string c.package),
     ("param_name_overrides", parameterNamesToJson c.parameterNames),
     ("generate_util_class_file", .bool c.separateHelperClass),
     ("generate_warnings_for_static_mocking", .bool c.warnStaticMocking)]

/-- Read a configuration. -/
def ofJson? (j : Json) : Option Config := do
  let fs ← j.fields?
  if !fs.onlyKnown options then none
  return {
    framework := ← fs.withDefault "test_framework" (Json.enum? Framework.names) .junit5
    mockLibrary := ← fs.withDefault "mock_framework" (Json.enum? MockLibrary.names) .mockito
    staticMocking := ← fs.withDefault "statics_mocking" (Json.enum? StaticMocking.names) .off
    staticMockingFallback :=
      ← fs.withDefault "force_static_mocking" (Json.enum? StaticMockingFallback.names)
        .disabledTest
    language := ← fs.withDefault "codegen_language" (Json.enum? Language.names) .java
    parameterization :=
      ← fs.withDefault "parameterized_test_source" (Json.enum? Parameterization.names)
        .oneTestPerRun
    failureTests :=
      ← fs.withDefault "runtime_exception_tests_behaviour" (Json.enum? FailureTests.names)
        .passing
    hangingTimeout := ← fs.withDefault "hanging_tests_timeout" Json.uint64? 1000
    enableTimeout := ← fs.withDefault "enable_tests_timeout" Json.bool? true
    package := ← fs.optional "test_class_package_name" Json.string?
    parameterNames := ← fs.withDefault "param_name_overrides" parameterNames? .empty
    separateHelperClass := ← fs.withDefault "generate_util_class_file" Json.bool? false
    warnStaticMocking :=
      ← fs.withDefault "generate_warnings_for_static_mocking" Json.bool? true }

end Config

end TestWriter
