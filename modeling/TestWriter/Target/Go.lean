import TestWriter.Decimal.Text
import TestWriter.Target.Methods
import TestWriter.Text.Quoted

/-!
# Go

Test files for the `testing` package with the assertions of testify.  Tests are functions at the
top level, so a class gives no more than its package and its documentation.
-/

namespace TestWriter.Target.Go

open Layout Rendering
open Decimal (Binary32 Binary64)

/-- The package of the assertions. -/
def assertPackage : String := "github.com/stretchr/testify/assert"

/-- The reserved words. -/
def reserved : List String :=
  ["break", "case", "chan", "const", "continue", "default", "defer", "else", "fallthrough", "for",
   "func", "go", "goto", "if", "import", "interface", "map", "package", "range", "return", "select",
   "struct", "switch", "type", "var"]

/-- The words. -/
def words : Words :=
  { ending := ""
    conjunction := "&&"
    disjunction := "||"
    negation := "!"
    lineComment := "//"
    regionOpen := "//region"
    regionClose := "//endregion"
    absent := "nil"
    yes := "true"
    no := "false"
    declaration := fun _ => some "var" }

/-- A special floating point value. -/
def special (s : Decimal.Special) : Doc :=
  [.text (.module "math") "math",
   .text .plain
    (match s with
     | .nan => ".NaN()"
     | .plusInfinity => ".Inf(1)"
     | .minusInfinity => ".Inf(-1)")]

/-- A number of 32 bits. -/
def float (x : Binary32) : Doc :=
  [.text .plain "float32("] ++
    (match x.special? with
     | some s => special s
     | none => [.text .plain x.text]) ++
    [.text .plain ")"]

/-- A number of 64 bits. -/
def double (x : Binary64) : Doc :=
  match x.special? with
  | some s => special s
  | none => [.text .plain x.text]

/-- A text as a literal. -/
def quote (s : String) : String := Text.Quoted.literal '"' ['"'] s

/-- A character as a literal. -/
def quoteChar (c : Char) : String := Text.Quoted.literal '\'' ['\''] c.toString

/-- A literal. -/
def literal : Literal → Doc
  | .null => [.text .plain words.absent]
  | .bool b => [.text .plain (if b then words.yes else words.no)]
  | .byte n => [.text .plain ("int8(" ++ toString n.toInt ++ ")")]
  | .short n => [.text .plain ("int16(" ++ toString n.toInt ++ ")")]
  | .int n => [.text .plain (toString n.toInt)]
  | .long n => [.text .plain ("int64(" ++ toString n.toInt ++ ")")]
  | .float x => float x
  | .double x => double x
  | .char c => [.text .plain (quoteChar c)]
  | .str s => [.text .plain (quote s)]

/-- The name of a primitive type. -/
def primitive : Primitive → String
  | .bool => "bool"
  | .byte => "int8"
  | .short => "int16"
  | .int => "int"
  | .long => "int64"
  | .float => "float32"
  | .double => "float64"
  | .char => "rune"

/-- The name by which a package is referred to: the last part of its path. -/
def packageName (path : String) : String := String.ofList (Text.lastPart '/' path.toList)

/-- The package in front of a name, unless it is that of the file. -/
def qualifier (s : Surroundings) (package : String) : Doc :=
  if package.isEmpty || package = s.package then []
  else [.text (.module package) (packageName package), .text .plain "."]

/-- The name of a class. -/
def className (s : Surroundings) (c : ClassName) : Doc :=
  qualifier s c.package ++ [.text (.ofClass c) c.name]

/-- The name of a type. -/
def typeName (s : Surroundings) : DataType → Rendering
  | .void => refuse .go .voidValues
  | .primitive p => say (primitive p)
  | .str => say "string"
  | .ofClass c => .ok (className s c)
  | .array element => say "[]" ++ typeName s element
  | .any => say "interface{}"
  | .errorClass => refuse .go .exceptionClasses

/-- A call after its receiver. -/
def call (method : String) (arguments : List Rendering) : Rendering :=
  say (method ++ "(") ++ commas arguments ++ say ")"

/-- An assertion on the test at hand. -/
def assertion (member : String) (arguments : List Rendering) : Rendering :=
  piece (.module assertPackage) "assert" ++ say ("." ++ member ++ "(t, ") ++ commas arguments ++
    say ")" ++ newline

/-- How Go writes code. -/
def dialect (s : Surroundings) : Dialect :=
  let identifier := avoid reserved
  let block : Block → Rendering := fun b => nest b.content
  { language := .go
    tab := "\t"
    words := words
    literal := literal
    quote := quote
    identifier := identifier
    typeName := typeName s
    className := className s
    comments := fun lines => lines.flatMap fun text =>
      if text.isEmpty then [.text .plain "//", .newline]
      else [.text .plain "//", .text .plain " ", .text .remark text, .newline]
    documentation := fun lines => lines.flatMap fun text =>
      if text.isEmpty then [.text .plain "//", .newline]
      else [.text .plain "//", .text .plain " ", .text .remark text, .newline]
    block := block
    declare := fun name type _ initial =>
      match initial with
      | some e => piece (.identifier name) (identifier name) ++ say " := " ++ e ++ newline
      | none =>
        say "var " ++ piece (.identifier name) (identifier name) ++ say " " ++ typeName s type ++
          newline
    branch := fun condition thenBlock elseBlock =>
      bracedBranch block (say "if " ++ condition ++ line r" {") thenBlock elseBlock
    switch := fun value cases fallback =>
      say "switch " ++ value ++ line r" {" ++
        concat (cases.map fun (label, body) =>
          say "case " ++ .ok (literal label) ++ line ":" ++ block body) ++
        line "default:" ++ block fallback ++ line r"}"
    throw := fun value => say "panic(" ++ value ++ line ")"
    assertEquals := fun expected actual delta _ =>
      match delta with
      | some l => assertion "InDelta" [expected, actual, .ok (literal l)]
      | none => assertion "Equal" [expected, actual]
    assertTrue := fun condition => assertion "True" [condition]
    assertNull := fun value => assertion "Nil" [value]
    assertThrows := fun _ body =>
      piece (.module assertPackage) "assert" ++ line r".Panics(t, func() {" ++ block body ++
        line r"})"
    fail := fun message => line ("t.Fatal(" ++ quote message ++ ")")
    stub := fun _ _ => refuse .go .mockStubbing
    mockedStatic := fun _ _ _ _ => refuse .go .staticMocking
    construct := fun owner arguments =>
      if arguments.isEmpty then .ok (className s owner) ++ say "{}"
      else refuse .go (.constructorArguments owner.name)
    callOn := fun _ target method arguments => target ++ say "." ++ call method arguments
    callStatic := fun owner method arguments =>
      .ok (qualifier s owner.package) ++ piece (.staticMember owner method) method ++ say "(" ++
        commas arguments ++ say ")"
    callModule := fun module method arguments =>
      .ok (qualifier s module.package) ++ piece (.function module method) method ++ say "(" ++
        commas arguments ++ say ")"
    staticField := fun owner name => .ok (qualifier s owner.package) ++
      piece (.staticMember owner name) name
    allocate := fun element size =>
      say "make([]" ++ typeName s element ++ say (", " ++ toString size ++ ")")
    arrayOf := fun element onLines values =>
      say "[]" ++ typeName s element ++ say r"{" ++
        (if onLines then newline ++ nest (concat (values.map fun v => v ++ line ","))
         else commas values) ++
        say r"}"
    lambda := fun ps body =>
      say "func(" ++
        commas (ps.map fun p =>
          piece (.identifier p.name) (identifier p.name) ++ say " " ++ typeName s p.type) ++
        line r") {" ++ block body ++ say r"}"
    equal := fun left _ right => left ++ say " == " ++ right
    cast := fun type operand =>
      match typeName s type with
      | .error e => .error e
      | .ok name => operand ++ say ".(" ++ .ok name ++ say ")"
    notNull := fun _ => refuse .go .notNullAssertion
    classOf := fun owner => refuse .go (.classObject owner.name)
    length := fun operand => say "len(" ++ operand ++ say ")"
    mock := fun owner => refuse .go (.mockOf owner.name) }

/-- The head of a test function. -/
def testHead (name : String) : Rendering :=
  say ("func " ++ name ++ "(t *") ++ piece (.module "testing") "testing" ++ line r".T) {" ++
    .ok [.indent]

/-- The head of a method. -/
def opening (d : Dialect) (m : Method) : Rendering :=
  match m.kind with
  | .test info =>
    testHead m.name ++
      (match info.disabled with
       | some reason => line ("t.Skip(" ++ quote reason ++ ")")
       | none => nothing) ++
      (match info.timeoutMillis with
       | some n =>
         .ok (d.comment
          ("go test has no per-test timeout; bound the run with -timeout (expected " ++
            toString n ++ " ms)"))
       | none => nothing)
  | .errorReport _ => testHead m.name
  | .parameterized .. | .dataProvider => refuse .go .parameterizedTests
  | .helper h => refuse .go (.helper h)

/-- The end of a method. -/
def closing (_ : Method) : Rendering := .ok [.dedent] ++ line r"}"

/-- How Go writes methods. -/
def methods (s : Surroundings) : MethodForms :=
  let d := dialect s
  { dialect := d
    opening := opening d
    closing := closing
    helper := fun h => refuse .go (.helper h)
    whole := documentedAbove d (opening d) closing }

/-- The line of an import. -/
def importLine : Import → String
  | .regular path none => quote path
  | .regular path (some binding) => binding ++ " " ++ quote path
  | .member owner _ => quote owner

/-- The block of imports. -/
def importBlock (imports : List Import) : Rendering :=
  if imports.isEmpty then nothing
  else
    newline ++ line "import (" ++ nest (concat (imports.map fun i => line (importLine i))) ++
      line ")"

/-- How Go writes a file. -/
def file (s : Surroundings) (f : SourceFile) : Rendering :=
  let forms := methods s
  let c := f.testClass
  match c.kind with
  | .helpers => refuse .go .helperFiles
  | .test =>
    (if c.documentation.isEmpty then nothing
     else .ok (forms.dialect.comments c.documentation)) ++
      line ("package " ++ packageName s.package) ++ importBlock f.imports ++
      concat ((MethodForms.inhabited (c.regions ++ [c.statics])).map fun r =>
        newline ++ forms.region r)

/-- How Go writes files. -/
def forms : FileForms := ⟨methods, file⟩

end TestWriter.Target.Go
