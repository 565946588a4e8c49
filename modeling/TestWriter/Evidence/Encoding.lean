import TestWriter.Evidence.Execution
import TestWriter.Json.Fields

/-!
# Evidence as JSON

The JSON form of values, types and executions.  A value and a type are written as a tag with its
content, an outcome as a record with its tag among the members, so that its other members are held
when it is read.  Every member is written; a member with a default may be absent when it is read.
-/

namespace TestWriter

open Decimal (Binary32 Binary64)

/-- The names of primitive types. -/
def Primitive.names : List (String × Primitive) :=
  [("bool", .bool), ("byte", .byte), ("short", .short), ("int", .int), ("long", .long),
   ("float", .float), ("double", .double), ("char", .char)]

/-- The names of the ways to invoke an executable. -/
def Invocation.names : List (String × Invocation) :=
  [("method", .method), ("static_method", .staticMethod), ("constructor", .constructor),
   ("function", .function)]

/-- The names of the kinds of failures. -/
def FailureKind.names : List (String × FailureKind) :=
  [("explicit", .explicit), ("implicit", .implicit)]

namespace Json

/-- A finite number; any other is written as `null`. -/
def real (x : Binary64) : Json :=
  if x.isFinite then .number (.real x) else .null

/-- A number of 64 bits. -/
def binary64? : Json → Option Binary64
  | .number (.integer n) => some (.ofInt n)
  | .number (.real x) => some x
  | _ => none

/-- A number rounded to 32 bits. -/
def binary32? : Json → Option Binary32
  | .number (.integer n) => some (.ofInt n)
  | .number (.real x) => some x.narrow
  | _ => none

/-- A text of exactly one character. -/
def char? (j : Json) : Option Char :=
  match j.string?.map String.toList with
  | some [c] => some c
  | _ => none

end Json

namespace ClassName

/-- The JSON form of a class. -/
def toJson (c : ClassName) : Json :=
  .object [("package", .string c.package), ("name", .string c.name)]

/-- Read a class. -/
def ofJson? (j : Json) : Option ClassName := do
  let fs ← j.fields?
  return { package := ← fs.withDefault "package" Json.string? ""
           name := ← fs.required "name" Json.string? }

end ClassName

namespace DataType

/-- The JSON form of a type. -/
def toJson : DataType → Json
  | .void => .object [("kind", .string "void")]
  | .primitive p =>
    .object [("kind", .string "primitive"), ("of", Json.enumName Primitive.names p)]
  | .str => .object [("kind", .string "str")]
  | .ofClass c => .object [("kind", .string "class"), ("of", c.toJson)]
  | .array element => .object [("kind", .string "array"), ("of", element.toJson)]
  | .any => .object [("kind", .string "any")]
  | .errorClass => .object [("kind", .string "error_class")]

/-- Read a type; the first argument bounds the recursion. -/
def read? : Nat → Json.Access → Json → Option DataType
  | 0, _, _ => none
  | fuel + 1, access, j => do
    let fs ← j.fields?
    match ← fs.tagged? access "kind" "of" with
    | ("void", content, _) => Json.unit? .void content
    | ("primitive", some content, access) =>
      (content.enumBy? access Primitive.names).map .primitive
    | ("str", content, _) => Json.unit? .str content
    | ("class", some content, _) => (ClassName.ofJson? content).map .ofClass
    | ("array", some content, access) => (read? fuel access content).map .array
    | ("any", content, _) => Json.unit? .any content
    | ("error_class", content, _) => Json.unit? .errorClass content
    | _ => none

/-- Read a type of the given access. -/
def ofJsonBy? (access : Json.Access) (j : Json) : Option DataType := read? j.depth access j

/-- Read a type. -/
def ofJson? (j : Json) : Option DataType := ofJsonBy? .direct j

end DataType

namespace Parameter

/-- The JSON form of a parameter. -/
def toJson (p : Parameter) : Json :=
  .object [("name", .string p.name), ("type", p.type.toJson)]

/-- Read a parameter. -/
def ofJson? (j : Json) : Option Parameter := do
  let fs ← j.fields?
  return { name := ← fs.required "name" Json.string?
           type := ← fs.required "type" DataType.ofJson? }

end Parameter

namespace Executable

/-- The JSON form of an executable. -/
def toJson (e : Executable) : Json :=
  .object
    [("class", e.owner.toJson), ("name", .string e.name),
     ("parameters", Json.list Parameter.toJson e.parameters),
     ("return_type", e.returnType.toJson), ("kind", Json.enumName Invocation.names e.kind)]

/-- Read an executable. -/
def ofJson? (j : Json) : Option Executable := do
  let fs ← j.fields?
  return { owner := ← fs.required "class" ClassName.ofJson?
           name := ← fs.required "name" Json.string?
           parameters := ← fs.withDefault "parameters" (Json.list? Parameter.ofJson?) []
           returnType := ← fs.withDefault "return_type" DataType.ofJson? .void
           kind := ← fs.withDefault "kind" (Json.enum? Invocation.names) .method }

end Executable

namespace Literal

/-- The JSON form of a literal. -/
def toJson : Literal → Json
  | .null => .object [("kind", .string "null")]
  | .bool b => .object [("kind", .string "bool"), ("value", .bool b)]
  | .byte n => .object [("kind", .string "byte"), ("value", Json.int n.toInt)]
  | .short n => .object [("kind", .string "short"), ("value", Json.int n.toInt)]
  | .int n => .object [("kind", .string "int"), ("value", Json.int n.toInt)]
  | .long n => .object [("kind", .string "long"), ("value", Json.int n.toInt)]
  | .float x => .object [("kind", .string "float"), ("value", Json.real x.widen)]
  | .double x => .object [("kind", .string "double"), ("value", Json.real x)]
  | .char c => .object [("kind", .string "char"), ("value", .string c.toString)]
  | .str s => .object [("kind", .string "str"), ("value", .string s)]

/-- Read a literal from its tag and its content. -/
def ofTagged? : String → Option Json → Option Literal
  | "null", content => Json.unit? .null content
  | "bool", some j => j.bool?.map .bool
  | "byte", some j =>
    (j.intIn? Int8.minValue.toInt Int8.maxValue.toInt).map fun n => .byte (Int8.ofInt n)
  | "short", some j =>
    (j.intIn? Int16.minValue.toInt Int16.maxValue.toInt).map fun n => .short (Int16.ofInt n)
  | "int", some j =>
    (j.intIn? Int32.minValue.toInt Int32.maxValue.toInt).map fun n => .int (Int32.ofInt n)
  | "long", some j =>
    (j.intIn? Int64.minValue.toInt Int64.maxValue.toInt).map fun n => .long (Int64.ofInt n)
  | "float", some j => j.binary32?.map .float
  | "double", some j => j.binary64?.map .double
  | "char", some j => j.char?.map .char
  | "str", some j => j.string?.map .str
  | _, _ => none

end Literal

namespace Value

mutual

/-- The JSON form of a value. -/
def toJson : Value → Json
  | .literal l => l.toJson
  | .array element values =>
    .object
      [("kind", .string "array"),
       ("value", .object [("element", element.toJson), ("values", .array (listToJson values))])]
  | .composite owner arguments fields =>
    .object
      [("kind", .string "composite"),
       ("value",
        .object
          [("class", owner.toJson), ("constructor_args", .array (listToJson arguments)),
           ("fields", .array (fieldsToJson fields))])]
  | .reflective owner fields =>
    .object
      [("kind", .string "reflective"),
       ("value", .object [("class", owner.toJson), ("fields", .array (fieldsToJson fields))])]
  | .mock owner stubs =>
    .object
      [("kind", .string "mock"),
       ("value", .object [("class", owner.toJson), ("stubs", .array (stubsToJson stubs))])]
  | .enumConstant owner name =>
    .object
      [("kind", .string "enum_constant"),
       ("value", .object [("class", owner.toJson), ("name", .string name)])]

/-- The JSON forms of some values. -/
def listToJson : List Value → List Json
  | [] => []
  | v :: rest => v.toJson :: listToJson rest

/-- The JSON forms of some fields. -/
def fieldsToJson : List Field → List Json
  | [] => []
  | .mk name v :: rest =>
    .object [("name", .string name), ("value", v.toJson)] :: fieldsToJson rest

/-- The JSON forms of some stubs. -/
def stubsToJson : List Stub → List Json
  | [] => []
  | .mk method arguments returns :: rest =>
    .object
      [("method", .string method), ("arguments", .array (listToJson arguments)),
       ("returns", returns.toJson)] ::
    stubsToJson rest

end

/-- Read a field whose value is read by `value`. -/
def readField? (value : Json → Option Value) (j : Json) : Option Field := do
  let fs ← j.fields?
  return .mk (← fs.required "name" Json.string?) (← fs.required "value" value)

/-- Read a stub whose values are read by `value`. -/
def readStub? (value : Json → Option Value) (j : Json) : Option Stub := do
  let fs ← j.fields?
  return .mk (← fs.required "method" Json.string?)
    (← fs.withDefault "arguments" (Json.list? value) [])
    (← fs.required "returns" value)

/-- Read the content of a value that is no literal; nested values are read by `value`. -/
def readContent? (access : Json.Access) (value : Json → Option Value) (kind : String)
    (content : Json) : Option Value := do
  let fs ← content.fields?
  match kind with
  | "array" =>
    return .array (← fs.required "element" (DataType.ofJsonBy? access))
      (← fs.required "values" (Json.list? value))
  | "composite" =>
    return .composite (← fs.required "class" ClassName.ofJson?)
      (← fs.withDefault "constructor_args" (Json.list? value) [])
      (← fs.withDefault "fields" (Json.list? (readField? value)) [])
  | "reflective" =>
    return .reflective (← fs.required "class" ClassName.ofJson?)
      (← fs.withDefault "fields" (Json.list? (readField? value)) [])
  | "mock" =>
    return .mock (← fs.required "class" ClassName.ofJson?)
      (← fs.withDefault "stubs" (Json.list? (readStub? value)) [])
  | "enum_constant" =>
    return .enumConstant (← fs.required "class" ClassName.ofJson?)
      (← fs.required "name" Json.string?)
  | _ => none

/-- Read a value; the first argument bounds the recursion. -/
def read? : Nat → Json.Access → Json → Option Value
  | 0, _, _ => none
  | fuel + 1, access, j => do
    let fs ← j.fields?
    let (kind, content, access) ← fs.tagged? access "kind" "value"
    match Literal.ofTagged? kind content with
    | some l => return .literal l
    | none => readContent? access (read? fuel access) kind (← content)

/-- Read a value of the given access. -/
def ofJsonBy? (access : Json.Access) (j : Json) : Option Value := read? j.depth access j

/-- Read a value. -/
def ofJson? (j : Json) : Option Value := ofJsonBy? .direct j

end Value

namespace Stub

/-- The JSON form of a stub. -/
def toJson : Stub → Json
  | .mk method arguments returns =>
    .object
      [("method", .string method), ("arguments", .array (Value.listToJson arguments)),
       ("returns", returns.toJson)]

end Stub

namespace Field

/-- The JSON form of a field. -/
def toJson : Field → Json
  | .mk name v => .object [("name", .string name), ("value", v.toJson)]

end Field

namespace Outcome

/-- The JSON form of an outcome. -/
def toJson : Outcome → Json
  | .success value =>
    .object [("type", .string "success"), ("value", Json.option Value.toJson value)]
  | .runtimeFailure exception message kind =>
    .object
      [("type", .string "runtime_failure"), ("exception", exception.toJson),
       ("message", Json.option Json.string message),
       ("kind", Json.enumName FailureKind.names kind)]
  | .timeout limit => .object [("type", .string "timeout"), ("limit_ms", Json.int limit)]
  | .crash reason => .object [("type", .string "crash"), ("reason", .string reason)]

/-- Read an outcome. -/
def ofJson? (j : Json) : Option Outcome := do
  let fs ← j.fields?
  match ← fs.innerTag? "type" with
  | "success" => return .success (← fs.optional "value" (Value.ofJsonBy? .held))
  | "runtime_failure" =>
    return .runtimeFailure (← fs.required "exception" ClassName.ofJson?)
      (← fs.optional "message" Json.string?)
      (← fs.withDefault "kind" (Json.enumBy? .held FailureKind.names) .implicit)
  | "timeout" => return .timeout (← fs.required "limit_ms" Json.uint64?)
  | "crash" => return .crash (← fs.required "reason" Json.string?)
  | _ => none

end Outcome

namespace StaticStub

/-- The JSON form of a static stub. -/
def toJson (s : StaticStub) : Json :=
  .object
    [("class", s.owner.toJson), ("method", .string s.method), ("returns", s.returns.toJson)]

/-- Read a static stub. -/
def ofJson? (j : Json) : Option StaticStub := do
  let fs ← j.fields?
  return { owner := ← fs.required "class" ClassName.ofJson?
           method := ← fs.required "method" Json.string?
           returns := ← fs.required "returns" Value.ofJson? }

end StaticStub

namespace Execution

/-- The JSON form of an execution. -/
def toJson (e : Execution) : Json :=
  .object
    [("this_instance", Json.option Value.toJson e.receiver),
     ("arguments", Json.list Value.toJson e.arguments),
     ("outcome", e.outcome.toJson),
     ("static_stubs", Json.list StaticStub.toJson e.staticStubs),
     ("test_method_name", Json.option Json.string e.testName),
     ("display_name", Json.option Json.string e.displayName),
     ("summary", Json.list Json.string e.summary)]

/-- Read an execution. -/
def ofJson? (j : Json) : Option Execution := do
  let fs ← j.fields?
  return { receiver := ← fs.optional "this_instance" Value.ofJson?
           arguments := ← fs.withDefault "arguments" (Json.list? Value.ofJson?) []
           outcome := ← fs.required "outcome" Outcome.ofJson?
           staticStubs := ← fs.withDefault "static_stubs" (Json.list? StaticStub.ofJson?) []
           testName := ← fs.optional "test_method_name" Json.string?
           displayName := ← fs.optional "display_name" Json.string?
           summary := ← fs.withDefault "summary" (Json.list? Json.string?) [] }

end Execution

namespace ClusterNote

/-- The JSON form of a summary. -/
def toJson (s : ClusterNote) : Json :=
  .object
    [("header", Json.option Json.string s.header), ("content", Json.list Json.string s.content)]

/-- Read a summary. -/
def ofJson? (j : Json) : Option ClusterNote := do
  let fs ← j.fields?
  return { header := ← fs.optional "header" Json.string?
           content := ← fs.withDefault "content" (Json.list? Json.string?) [] }

end ClusterNote

namespace Cluster

/-- The JSON form of a cluster. -/
def toJson (c : Cluster) : Json :=
  .object
    [("summary", c.summary.toJson),
     ("indices", .object [("start", Json.int c.start), ("end", Json.int c.stop)])]

/-- Read the bounds of a cluster; no other members are accepted here. -/
def range? (j : Json) : Option (Nat × Nat) := do
  let fs ← j.fields?
  if fs.onlyKnown ["start", "end"] then
    return (← fs.required "start" Json.uint64?, ← fs.required "end" Json.uint64?)
  else none

/-- Read a cluster. -/
def ofJson? (j : Json) : Option Cluster := do
  let fs ← j.fields?
  let (start, stop) ← fs.required "indices" range?
  return { summary := ← fs.required "summary" ClusterNote.ofJson?
           start := start
           stop := stop }

end Cluster

namespace ErrorCounts

/-- The JSON form of error counts: an object whose members are in order. -/
def toJson (errors : ErrorCounts) : Json :=
  .object (errors.entries.map fun entry => (entry.1, Json.int entry.2.toNat))

/-- Read error counts.  A repeated message keeps its first place and its last count. -/
def ofJson? (j : Json) : Option ErrorCounts := do
  let fs ← j.fields?
  let entries ← fs.mapM fun member => do
    return (member.1, UInt64.ofNat (← member.2.uint64?))
  return .ofList entries

end ErrorCounts

namespace TestSet

/-- The JSON form of a test set. -/
def toJson (set : TestSet) : Json :=
  .object
    [("executable", set.executable.toJson),
     ("executions", Json.list Execution.toJson set.executions),
     ("clusters", Json.list Cluster.toJson set.clusters),
     ("errors", set.errors.toJson)]

/-- Read a test set. -/
def ofJson? (j : Json) : Option TestSet := do
  let fs ← j.fields?
  return { executable := ← fs.required "executable" Executable.ofJson?
           executions := ← fs.withDefault "executions" (Json.list? Execution.ofJson?) []
           clusters := ← fs.withDefault "clusters" (Json.list? Cluster.ofJson?) []
           errors := ← fs.withDefault "errors" ErrorCounts.ofJson? .empty }

end TestSet

end TestWriter
