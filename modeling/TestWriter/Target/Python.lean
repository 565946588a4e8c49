import TestWriter.Decimal.Scaled
import TestWriter.Decimal.Text
import TestWriter.Target.Methods
import TestWriter.Target.PythonHelpers
import TestWriter.Text.Quoted

/-!
# Python

Test modules for unittest and pytest.  Data providers and helpers are functions above the class, so
that decorators in the class can call them, and a suite that would do nothing holds `pass`.
-/

namespace TestWriter.Target.Python

open Layout Rendering
open Decimal (Binary32 Binary64)

/-- The reserved words. -/
def reserved : List String :=
  ["False", "None", "True", "and", "as", "assert", "async", "await", "break", "class", "continue",
   "def", "del", "elif", "else", "except", "finally", "for", "from", "global", "if", "import", "in",
   "is", "lambda", "nonlocal", "not", "or", "pass", "raise", "return", "try", "while", "with",
   "yield"]

/-- The words. -/
def words : Words :=
  { ending := ""
    conjunction := "and"
    disjunction := "or"
    negation := "not "
    lineComment := "#"
    regionOpen := "# region"
    regionClose := "# endregion"
    absent := "None"
    yes := "True"
    no := "False"
    declaration := fun _ => none }

/-- A special floating point value. -/
def special : Decimal.Special → String
  | .nan => "float(\"nan\")"
  | .plusInfinity => "float(\"inf\")"
  | .minusInfinity => "float(\"-inf\")"

/-- A number of 32 bits. -/
def float (x : Binary32) : String :=
  match x.special? with
  | some s => special s
  | none => x.text

/-- A number of 64 bits. -/
def double (x : Binary64) : String :=
  match x.special? with
  | some s => special s
  | none => x.text

/-- A text as a literal. -/
def quote (s : String) : String := Text.Quoted.literal '"' ['"'] s

/-- The text of a literal. -/
def literal : Literal → String
  | .null => words.absent
  | .bool b => if b then words.yes else words.no
  | .byte n => toString n.toInt
  | .short n => toString n.toInt
  | .int n => toString n.toInt
  | .long n => toString n.toInt
  | .float x => float x
  | .double x => double x
  | .char c => quote c.toString
  | .str s => quote s

/-- The name of a class, after the name of its module when that is imported as a whole. -/
def className (s : Surroundings) (c : ClassName) : Doc :=
  if c.isGlobal then [.text (.ofClass c) c.name]
  else
    match s.moduleVariable? c.package with
    | some binding =>
      [.text (.module c.package) binding, .text .plain ".", .text .plain c.name]
    | none => [.text (.ofClass c) c.name]

/-- The name of a type. -/
def typeName (s : Surroundings) : DataType → Doc
  | .void => [.text .plain "None"]
  | .primitive .bool => [.text .plain "bool"]
  | .primitive .float | .primitive .double => [.text .plain "float"]
  | .primitive .char | .str => [.text .plain "str"]
  | .primitive _ => [.text .plain "int"]
  | .ofClass c => className s c
  | .array _ => [.text .plain "list"]
  | .any => [.text .plain "object"]
  | .errorClass => [.text .plain "type"]

/-- A documentation string. -/
def docstring (lines : List String) : Doc :=
  let escaped := lines.map fun text =>
    String.ofList (Text.Quoted.escapeTripleQuotes text.toList)
  let quotes : Step := .text .plain "\"\"\""
  match escaped with
  | [single] => [quotes, .text .remark single, quotes, .newline]
  | several =>
    [quotes, .newline] ++ several.flatMap (fun text => [.text .remark text, .newline]) ++
      [quotes, .newline]

/-- The statements of a suite, with `pass` when none of them does anything. -/
def suite (b : Block) : Rendering :=
  b.content ++ if b.isIdle then freshLine ++ line "pass" else nothing

/-- A call after its receiver. -/
def call (method : String) (arguments : List Rendering) : Rendering :=
  say (method ++ "(") ++ commas arguments ++ say ")"

/-- Whether the framework is pytest. -/
def isPytest (s : Surroundings) : Bool := s.settings.framework = .pytest

/-- A member of the `pytest` module. -/
def pytest (member : String) : Rendering := piece (.module "pytest") "pytest" ++ say ("." ++ member)

/-- The branches of a switch on a value, as a chain of conditions. -/
def chain (block : Block → Rendering) (value : Rendering) (word : String) :
    List (Literal × Block) → Rendering
  | [] => nothing
  | (label, body) :: rest =>
    say word ++ value ++ say " == " ++ say (literal label) ++ line ":" ++ block body ++
      chain block value "elif " rest

/-- How Python writes code. -/
def dialect (s : Surroundings) : Dialect :=
  let identifier := avoid reserved
  let block : Block → Rendering := fun b => nest (suite b)
  let otherwise : Block → Rendering := fun b =>
    if b.isEmpty then nothing else line "else:" ++ block b
  { language := .python
    tab := "    "
    words := words
    literal := fun l => [.text .plain (literal l)]
    quote := quote
    identifier := identifier
    typeName := fun t => .ok (typeName s t)
    className := className s
    comments := fun lines => lines.flatMap fun text =>
      if text.isEmpty then [.text .plain "#", .newline]
      else [.text .plain "#", .text .plain " ", .text .remark text, .newline]
    documentation := docstring
    block := block
    declare := fun name _ _ initial =>
      piece (.identifier name) (identifier name) ++ say " = " ++ initial.getD (say "None") ++
        newline
    branch := fun condition thenBlock elseBlock =>
      say "if " ++ condition ++ line ":" ++ block thenBlock ++ otherwise elseBlock
    switch := fun value cases fallback =>
      if cases.isEmpty then fallback.content
      else chain block value "if " cases ++ otherwise fallback
    throw := fun value => say "raise " ++ value ++ newline
    assertEquals := fun expected actual delta _ =>
      if isPytest s then
        say "assert " ++ actual ++ say " == " ++
          (match delta with
           | some l =>
             pytest "approx(" ++ expected ++ say ", abs=" ++ say (literal l) ++ say ")"
           | none => expected) ++
          newline
      else
        say (if delta.isSome then "self.assertAlmostEqual(" else "self.assertEqual(") ++
          expected ++ say ", " ++ actual ++
          (match delta with
           | some l => say ", delta=" ++ say (literal l)
           | none => nothing) ++
          say ")" ++ newline
    assertTrue := fun condition =>
      if isPytest s then say "assert " ++ condition ++ newline
      else say "self.assertTrue(" ++ condition ++ say ")" ++ newline
    assertNull := fun value =>
      if isPytest s then say "assert " ++ value ++ say " is None" ++ newline
      else say "self.assertIsNone(" ++ value ++ say ")" ++ newline
    assertThrows := fun exception body =>
      (if isPytest s then say "with " ++ pytest "raises(" else say "with self.assertRaises(") ++
        exception ++ line "):" ++ block body
    fail := fun message =>
      (if isPytest s then pytest "fail(" else say "self.fail(") ++ say (quote message) ++
        say ")" ++ newline
    stub := fun _ _ => refuse .python .mockStubbing
    mockedStatic := fun _ _ _ _ => refuse .python .staticMocking
    construct := fun owner arguments =>
      .ok (className s owner) ++ say "(" ++ commas arguments ++ say ")"
    callOn := fun _ target method arguments => target ++ say "." ++ call method arguments
    callStatic := fun owner method arguments =>
      .ok (className s owner) ++ say "." ++ call method arguments
    callModule := fun module method arguments =>
      piece (.function module method) method ++ say "(" ++ commas arguments ++ say ")"
    staticField := fun owner name => .ok (className s owner) ++ say ("." ++ name)
    allocate := fun _ size => say ("[None] * " ++ toString size)
    arrayOf := fun _ onLines values => say "[" ++ elements onLines values ++ say "]"
    lambda := fun ps body =>
      match body.sole with
      | none => refuse .python .longLambda
      | some e =>
        (if ps.isEmpty then say "lambda: "
         else
          say "lambda " ++
            commas (ps.map fun p => piece (.identifier p.name) (identifier p.name)) ++ say ": ") ++
          e
    equal := fun left raw right =>
      if raw.isNull then left ++ say " is None" else left ++ say " == " ++ right
    cast := fun _ operand => operand
    notNull := fun operand => operand
    classOf := fun owner => .ok (className s owner)
    length := fun operand => say "len(" ++ operand ++ say ")"
    mock := fun owner => refuse .python (.mockOf owner.name) }

/-- The decorator of a disabled test. -/
def skipDecorator (s : Surroundings) (reason : String) : Rendering :=
  if isPytest s then
    say "@" ++ pytest "mark.skip(reason=" ++ say (quote reason) ++ line ")"
  else
    say "@" ++ piece (.module "unittest") "unittest" ++ say ".skip(" ++ say (quote reason) ++
      line ")"

/-- The decorator of a test with a timeout, or the remark that there is none. -/
def timeoutDecorator (s : Surroundings) (d : Dialect) (millis : Nat) : Rendering :=
  if isPytest s then
    say "@" ++ pytest "mark.timeout(" ++ say (double (.secondsOfMillis millis)) ++ line ")"
  else
    .ok (d.comment
      ("unittest has no per-test timeout; this test is expected to finish in " ++
        toString millis ++ " ms"))

/-- The decorators of a method. -/
def decorators (s : Surroundings) (d : Dialect) (m : Method) : Rendering :=
  match m.kind with
  | .test info =>
    (match info.disabled with
     | some reason => skipDecorator s reason
     | none => nothing) ++
      (match info.timeoutMillis with
       | some n => timeoutDecorator s d n
       | none => nothing)
  | .parameterized _ provider =>
    if isPytest s then
      let names := ", ".intercalate (m.parameters.map fun p => d.identifier p.name)
      say "@" ++ pytest "mark.parametrize(" ++ say (quote names) ++
        line (", " ++ provider ++ "())")
    else refuse .python .parameterizedWithoutPytest
  | .errorReport _ | .dataProvider | .helper _ => nothing

/-- Decorators and head of a method. -/
def opening (s : Surroundings) (d : Dialect) (m : Method) : Rendering :=
  let names := (if m.isStatic then [] else [say "self"]) ++
    m.parameters.map fun p => d.reference p.name
  decorators s d m ++ say ("def " ++ m.name ++ "(") ++ commas names ++ line "):" ++ .ok [.indent]

/-- The end of a method. -/
def closing (_ : Method) : Rendering := freshLine ++ .ok [.dedent]

/-- How Python writes methods. -/
def methods (s : Surroundings) : MethodForms :=
  let d := dialect s
  { dialect := d
    opening := opening s d
    closing := closing
    helper := fun h =>
      match pythonHelper? h with
      | some lines => concat (lines.map line)
      | none => refuse .python (.helper h)
    whole := fun m =>
      opening s d m ++
        (if m.documentation.isEmpty then suite (d.blockOf m.body)
         else .ok (docstring m.documentation) ++ d.stmts m.body) ++
        closing m }

/-- The lines that import modules, whole modules first. -/
def importLines (imports : List Import) : List String :=
  let whole := imports.filterMap fun i =>
    match i with
    | .regular path binding =>
      let bound := binding.getD path
      some (if bound = path then "import " ++ path else "import " ++ path ++ " as " ++ bound)
    | .member .. => none
  let members := (membersByOwner imports).entries.map fun (owner, names) =>
    "from " ++ owner ++ " import " ++ ", ".intercalate names
  whole ++ members

/-- Two blank lines after a document that wrote something. -/
def gap (before : Doc) : Doc :=
  if (before.toText "    ").isEmpty then [] else [.newline, .newline]

/-- A class with its tests. -/
def testClass (forms : MethodForms) (c : TestClass) : Rendering :=
  let hasMethods := !(MethodForms.inhabited c.regions).isEmpty
  say ("class " ++ c.id.name) ++
    (match c.superclass with
     | some superclass => say "(" ++ .ok (forms.dialect.className superclass) ++ line "):"
     | none => line ":") ++
    nest
      ((if !c.documentation.isEmpty then
          .ok (docstring c.documentation) ++ (if hasMethods then newline else nothing)
        else if hasMethods then nothing
        else line "pass") ++
        forms.regions c.regions)

/-- How Python writes a file. -/
def file (s : Surroundings) (f : SourceFile) : Rendering :=
  let forms := methods s
  let c := f.testClass
  let imports : Doc := (importLines f.imports).flatMap fun text => [.text .plain text, .newline]
  let statics := if c.statics.isEmpty then nothing else .ok (gap imports) ++ forms.region c.statics
  match statics with
  | .error e => .error e
  | .ok statics =>
    .ok (imports ++ statics ++ gap (imports ++ statics)) ++ testClass forms c

/-- How Python writes files. -/
def forms : FileForms := ⟨methods, file⟩

end TestWriter.Target.Python
