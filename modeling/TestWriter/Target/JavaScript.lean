import TestWriter.Decimal.Text
import TestWriter.Target.Methods
import TestWriter.Text.AlphanumericTable
import TestWriter.Text.Quoted

/-!
# JavaScript

Test files for Mocha with the `assert` module.  A class is a `describe` block and a test a call of
`it`; the names under test come from `require` calls that take modules apart.
-/

namespace TestWriter.Target.JavaScript

open Layout Rendering
open Decimal (Binary64)

/-- The reserved words. -/
def reserved : List String :=
  ["await", "break", "case", "catch", "class", "const", "continue", "debugger", "default", "delete",
   "do", "else", "enum", "export", "extends", "false", "finally", "for", "function", "if", "import",
   "in", "instanceof", "let", "new", "null", "return", "static", "super", "switch", "this", "throw",
   "true", "try", "typeof", "var", "void", "while", "with", "yield"]

/-- The words. -/
def words : Words :=
  { ending := ";"
    conjunction := "&&"
    disjunction := "||"
    negation := "!"
    lineComment := "//"
    regionOpen := "//region"
    regionClose := "//endregion"
    absent := "null"
    yes := "true"
    no := "false"
    declaration := fun isMutable => some (if isMutable then "let" else "const") }

/-- The largest integer below which a number holds every integer exactly, `2 ^ 53 - 1`. -/
def maxSafeInteger : Nat := 9007199254740991

/-- A floating point number. -/
def number (x : Binary64) : String :=
  match x.special? with
  | some .nan => "NaN"
  | some .plusInfinity => "Infinity"
  | some .minusInfinity => "-Infinity"
  | none => x.text

/-- A text as a literal. -/
def quote (s : String) : String := Text.Quoted.literal '"' ['"'] s

/-- The text of a literal. -/
def literal : Literal → String
  | .null => words.absent
  | .bool b => if b then words.yes else words.no
  | .byte n => toString n.toInt
  | .short n => toString n.toInt
  | .int n => toString n.toInt
  | .long n => toString n.toInt ++ (if maxSafeInteger < n.toInt.natAbs then "n" else "")
  | .float x => number x.widen
  | .double x => number x
  | .char c => quote c.toString
  | .str s => quote s

/-- The name of a class. -/
def className (c : ClassName) : Doc := [.text (.ofClass c) c.name]

/-- The name of a type. -/
def typeName : DataType → Doc
  | .void => [.text .plain "undefined"]
  | .primitive .bool => [.text .plain "boolean"]
  | .primitive .char | .str => [.text .plain "string"]
  | .primitive _ => [.text .plain "number"]
  | .ofClass c => className c
  | .array _ => [.text .plain "Array"]
  | .any => [.text .plain "Object"]
  | .errorClass => [.text .plain "Function"]

/-- A member of the `assert` module. -/
def assertMember (name : String) : Rendering :=
  piece (.module "assert") "assert" ++ say ("." ++ name ++ "(")

/-- A call after its receiver. -/
def call (method : String) (arguments : List Rendering) : Rendering :=
  say (method ++ "(") ++ commas arguments ++ say ")"

/-- How JavaScript writes code. -/
def dialect : Dialect :=
  let identifier := avoid reserved
  let block : Block → Rendering := fun b => nest b.content
  let finish := line words.ending
  { language := .javascript
    tab := "    "
    words := words
    literal := fun l => [.text .plain (literal l)]
    quote := quote
    identifier := identifier
    typeName := fun t => .ok (typeName t)
    className := className
    comments := starComment "/*"
    documentation := starComment "/**"
    block := block
    declare := fun name _ isMutable initial =>
      match initial with
      | some e =>
        say (if isMutable then "let " else "const ") ++
          piece (.identifier name) (identifier name) ++ say " = " ++ e ++ finish
      | none => say "let " ++ piece (.identifier name) (identifier name) ++ line ";"
    branch := fun condition thenBlock elseBlock =>
      bracedBranch block (say "if (" ++ condition ++ line r") {") thenBlock elseBlock
    switch := fun value cases fallback =>
      say "switch (" ++ value ++ line r") {" ++
        nest
          (concat (cases.map fun (label, body) =>
            say "case " ++ say (literal label) ++ line ":" ++
              nest (body.content ++ line "break;")) ++
            line "default:" ++ block fallback) ++
        line r"}"
    throw := fun value => say "throw " ++ value ++ finish
    assertEquals := fun expected actual delta deep =>
      match delta with
      | some l =>
        assertMember "ok" ++ say "Math.abs(" ++ actual ++ say " - " ++ expected ++ say ") <= " ++
          say (literal l) ++ say ")" ++ finish
      | none =>
        assertMember (if deep then "deepStrictEqual" else "strictEqual") ++ actual ++ say ", " ++
          expected ++ say ")" ++ finish
    assertTrue := fun condition => assertMember "ok" ++ condition ++ say ")" ++ finish
    assertNull := fun value => assertMember "strictEqual" ++ value ++ say ", null)" ++ finish
    assertThrows := fun exception body =>
      assertMember "throws" ++ line r"() => {" ++ block body ++ say r"}, " ++ exception ++
        say ")" ++ finish
    fail := fun message => assertMember "fail" ++ say (quote message) ++ say ")" ++ finish
    stub := fun _ _ => refuse .javascript .mockStubbing
    mockedStatic := fun _ _ _ _ => refuse .javascript .staticMocking
    construct := fun owner arguments =>
      say "new " ++ .ok (className owner) ++ say "(" ++ commas arguments ++ say ")"
    callOn := fun receiver target method arguments =>
      (if receiver.isConstruct then say "(" ++ target ++ say ")" else target) ++ say "." ++
        call method arguments
    callStatic := fun owner method arguments =>
      .ok (className owner) ++ say "." ++ call method arguments
    callModule := fun module method arguments =>
      piece (.function module method) method ++ say "(" ++ commas arguments ++ say ")"
    staticField := fun owner name => .ok (className owner) ++ say ("." ++ name)
    allocate := fun _ size => say ("new Array(" ++ toString size ++ ").fill(null)")
    arrayOf := fun _ onLines values => say "[" ++ elements onLines values ++ say "]"
    lambda := fun ps body =>
      say "(" ++ commas (ps.map fun p => piece (.identifier p.name) (identifier p.name)) ++
        say ") => " ++
        match body.sole with
        | some e => e
        | none => line r"{" ++ block body ++ say r"}"
    equal := fun left _ right => left ++ say " === " ++ right
    cast := fun _ operand => operand
    notNull := fun _ => refuse .javascript .notNullAssertion
    classOf := fun owner => .ok (className owner)
    length := fun operand => operand ++ say ".length"
    mock := fun owner => refuse .javascript (.mockOf owner.name) }

/-- The start of a registered test. -/
def register (function title : String) : Rendering :=
  line (function ++ "(" ++ quote title ++ r", function () {") ++ .ok [.indent]

/-- The registration of a test, or the head of a function. -/
def opening (m : Method) : Rendering :=
  match m.kind with
  | .test info =>
    let title := info.displayName.getD m.name
    (match info.disabled with
     | some reason => .ok (dialect.comment reason) ++ register "it.skip" title
     | none => register "it" title) ++
      (match info.timeoutMillis with
       | some n => line ("this.timeout(" ++ toString n ++ ");")
       | none => nothing)
  | .errorReport _ => register "it" m.name
  | .parameterized .. => refuse .javascript .parameterizedTests
  | .dataProvider | .helper _ =>
    say ("function " ++ m.name ++ "(") ++ parameterNames dialect m.parameters ++ line r") {" ++
      .ok [.indent]

/-- The end of a test or function. -/
def closing (m : Method) : Rendering :=
  .ok [.dedent] ++
    match m.kind with
    | .test _ | .errorReport _ => line r"});"
    | _ => line r"}"

/-- How JavaScript writes methods. -/
def methods (_ : Surroundings) : MethodForms :=
  { dialect := dialect
    opening := opening
    closing := closing
    helper := fun h => refuse .javascript (.helper h)
    whole := documentedAbove dialect opening closing }

/-- The name of a module that is required without binding: the stem of its file name. -/
def moduleName (path : String) : String :=
  let stem := (Text.lastPart '/' path.toList).takeWhile (· ≠ '.')
  let name := stem.map fun c =>
    if Text.inRuns Text.alphanumericRuns c || c = '_' || c = '$' then c else '_'
  if name.isEmpty then "module" else String.ofList name

/-- The lines that require modules, whole modules first. -/
def requireLines (imports : List Import) : List String :=
  let whole := imports.filterMap fun i =>
    match i with
    | .regular path binding =>
      some ("const " ++ binding.getD (moduleName path) ++ " = require(" ++ quote path ++ ");")
    | .member .. => none
  let members := (membersByOwner imports).entries.map fun (owner, names) =>
    r"const {" ++ ", ".intercalate names ++ r"} = require(" ++ quote owner ++ ");"
  whole ++ members

/-- How JavaScript writes a file. -/
def file (s : Surroundings) (f : SourceFile) : Rendering :=
  let forms := methods s
  let c := f.testClass
  let required := requireLines f.imports
  (if required.isEmpty then nothing else concat (required.map line) ++ newline) ++
    (if c.documentation.isEmpty then nothing else .ok (dialect.documentation c.documentation)) ++
    line ("describe(" ++ quote c.id.name ++ r", function () {") ++
    nest (forms.regions (c.regions ++ [c.statics])) ++ line r"});"

/-- How JavaScript writes files. -/
def forms : FileForms := ⟨methods, file⟩

end TestWriter.Target.JavaScript
