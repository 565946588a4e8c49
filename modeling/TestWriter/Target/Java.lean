import TestWriter.Decimal.Text
import TestWriter.Target.Annotations
import TestWriter.Target.JavaHelpers
import TestWriter.Target.Methods
import TestWriter.Text.Quoted

/-!
# Java

Test classes for JUnit 4, JUnit 5 and TestNG with Mockito, and the Java helper class.
-/

namespace TestWriter.Target

open Layout Rendering
open Decimal (Binary32 Binary64)

/-- Annotations of the JVM, one a line.  Class arguments end with the suffix that makes a class
literal. -/
def jvmAnnotations (d : Dialect) (classSuffix : String) (annotations : List AnnotationUse) :
    Rendering :=
  let argument : Expr → Rendering := fun e =>
    match e with
    | .classOf c => .ok (d.className c) ++ say classSuffix
    | e => d.expr e
  concat <| annotations.map fun a =>
    say "@" ++ .ok (d.className a.owner) ++
      (if a.arguments.isEmpty then nothing
       else
        say "(" ++
          commas (a.arguments.map fun (name, e) =>
            match name with
            | none => argument e
            | some name => say (name ++ " = ") ++ argument e) ++
          say ")") ++
      newline

namespace Java

/-- The reserved words. -/
def reserved : List String :=
  ["abstract", "assert", "boolean", "break", "byte", "case", "catch", "char", "class", "const",
   "continue", "default", "do", "double", "else", "enum", "extends", "final", "finally", "float",
   "for", "goto", "if", "implements", "import", "instanceof", "int", "interface", "long", "native",
   "new", "package", "private", "protected", "public", "return", "short", "static", "strictfp",
   "super", "switch", "synchronized", "this", "throw", "throws", "transient", "try", "void",
   "volatile", "while", "var", "record", "yield"]

/-- The words. -/
def words : Words :=
  { ending := ";"
    conjunction := "&&"
    disjunction := "||"
    negation := "!"
    lineComment := "//"
    regionOpen := "///region"
    regionClose := "///endregion"
    absent := "null"
    yes := "true"
    no := "false"
    declaration := fun _ => none }

/-- The name of a special value of a floating point class. -/
def specialName (owner : String) : Decimal.Special → String
  | .nan => owner ++ ".NaN"
  | .plusInfinity => owner ++ ".POSITIVE_INFINITY"
  | .minusInfinity => owner ++ ".NEGATIVE_INFINITY"

/-- A number of 32 bits. -/
def float (x : Binary32) : String :=
  match x.special? with
  | some s => specialName "Float" s
  | none => x.text ++ "f"

/-- A number of 64 bits. -/
def double (x : Binary64) : String :=
  match x.special? with
  | some s => specialName "Double" s
  | none => x.text

/-- A text as a literal. -/
def quote (s : String) : String := Text.Quoted.literal '"' ['"'] s

/-- A character as a literal. -/
def quoteChar (c : Char) : String := Text.Quoted.literal '\'' ['\''] c.toString

/-- The text of a literal. -/
def literal : Literal → String
  | .null => words.absent
  | .bool b => if b then words.yes else words.no
  | .byte n => "(byte) " ++ toString n.toInt
  | .short n => "(short) " ++ toString n.toInt
  | .int n => if n = Int32.minValue then "Integer.MIN_VALUE" else toString n.toInt
  | .long n => if n = Int64.minValue then "Long.MIN_VALUE" else toString n.toInt ++ "L"
  | .float x => float x
  | .double x => double x
  | .char c => quoteChar c
  | .str s => quote s

/-- The name of a primitive type. -/
def primitive : Primitive → String
  | .bool => "boolean"
  | .byte => "byte"
  | .short => "short"
  | .int => "int"
  | .long => "long"
  | .float => "float"
  | .double => "double"
  | .char => "char"

/-- The name of a class. -/
def className (s : Surroundings) (c : ClassName) : Doc :=
  [.text (.ofClass c) (s.className "java.lang" c)]

/-- The name of a type. -/
def typeName (s : Surroundings) : DataType → Doc
  | .void => [.text .plain "void"]
  | .primitive p => [.text .plain (primitive p)]
  | .str => [.text .plain "String"]
  | .ofClass c => className s c
  | .array element => typeName s element ++ [.text .plain "[]"]
  | .any => [.text .plain "Object"]
  | .errorClass => [.text .plain "Class<? extends Throwable>"]

/-- The element type inside nested arrays, and how many arrays enclose it. -/
def innermost : DataType → DataType × Nat
  | .array element =>
    let (t, n) := innermost element
    (t, n + 1)
  | t => (t, 0)

/-- The member of a framework class, written bare. -/
def assertion (s : Surroundings) (name : String) : Rendering :=
  piece (.member (s.settings.framework.assertionsClass?.getD "") name) name

/-- The member of the mock library, written bare. -/
def mockMember (name : String) : Rendering :=
  piece (.member MockLibrary.mockito.facade name) name

/-- The two values of an equality in the order of the framework. -/
def equalityArguments (s : Surroundings) (expected actual : Rendering) : Rendering :=
  if s.settings.framework.actualComesFirst then actual ++ say ", " ++ expected
  else expected ++ say ", " ++ actual

/-- A function without name. -/
def lambda (names : Rendering) (arrow : String) (body : Block) : Rendering :=
  say "(" ++ names ++ say arrow ++
    match body.sole with
    | some e => e
    | none => line r"{" ++ nest body.content ++ say r"}"

/-- A call after its receiver. -/
def call (method : String) (arguments : List Rendering) : Rendering :=
  say (method ++ "(") ++ commas arguments ++ say ")"

/-- A call of a static method or a function of a module; a class without a package is left out. -/
def callStatic (s : Surroundings) (owner : ClassName) (method : String)
    (arguments : List Rendering) : Rendering :=
  if owner.isGlobal then
    piece (.staticMember owner method) method ++ say "(" ++ commas arguments ++ say ")"
  else .ok (className s owner) ++ say "." ++ call method arguments

/-- How Java writes code. -/
def dialect (s : Surroundings) : Dialect :=
  let className := className s
  let typeName := typeName s
  let identifier := avoid reserved
  let block : Block → Rendering := fun b => nest b.content
  let finish := line words.ending
  { language := .java
    tab := "    "
    words := words
    literal := fun l => [.text .plain (literal l)]
    quote := quote
    identifier := identifier
    typeName := fun t => .ok (typeName t)
    className := className
    comments := starComment "/*"
    documentation := starComment "/**"
    block := block
    declare := fun name type _ initial =>
      .ok (typeName type) ++ say " " ++ piece (.identifier name) (identifier name) ++
        (match initial with
         | none => nothing
         | some e => say " = " ++ e) ++
        finish
    branch := fun condition thenBlock elseBlock =>
      bracedBranch block (say "if (" ++ condition ++ line r") {") thenBlock elseBlock
    switch := fun value cases fallback =>
      say "switch (" ++ value ++ line r") {" ++
        nest
          (concat (cases.map fun (label, body) =>
            say "case " ++ say (literal label) ++ line ":" ++
              nest (body.content ++ line "break;")) ++
            (if fallback.isEmpty then nothing else line "default:" ++ block fallback)) ++
        line r"}"
    throw := fun value => say "throw " ++ value ++ finish
    assertEquals := fun expected actual delta _ =>
      assertion s "assertEquals" ++ say "(" ++ equalityArguments s expected actual ++
        (match delta with
         | none => nothing
         | some l => say ", " ++ say (literal l)) ++
        say ")" ++ finish
    assertTrue := fun condition =>
      assertion s "assertTrue" ++ say "(" ++ condition ++ say ")" ++ finish
    assertNull := fun value =>
      assertion s "assertNull" ++ say "(" ++ value ++ say ")" ++ finish
    assertThrows := fun exception body =>
      assertion s "assertThrows" ++ say "(" ++ exception ++ say ", " ++
        lambda nothing ") -> " body ++ say ")" ++ finish
    fail := fun message =>
      assertion s "fail" ++ say "(" ++ say (quote message) ++ say ")" ++ finish
    stub := fun mock form =>
      mockMember "when" ++ say "(" ++ mock ++ say "." ++ call form.method form.arguments ++
        say ").thenReturn(" ++ form.returns ++ say ")" ++ finish
    mockedStatic := fun handle owner forms body =>
      say "try (" ++ .ok (className ⟨"org.mockito", "MockedStatic"⟩) ++ say "<" ++
        .ok (className owner) ++ say "> " ++ piece (.identifier handle) handle ++ say " = " ++
        mockMember "mockStatic" ++ say "(" ++ .ok (className owner) ++ line r".class)) {" ++
        nest
          (concat (forms.map fun form =>
            piece (.identifier handle) handle ++ say ".when(() -> " ++ .ok (className owner) ++
              say "." ++ call form.method form.arguments ++ say ").thenReturn(" ++
              form.returns ++ say ")" ++ finish) ++
            body) ++
        line r"}"
    construct := fun owner arguments =>
      say "new " ++ .ok (className owner) ++ say "(" ++ commas arguments ++ say ")"
    callOn := fun receiver target method arguments =>
      (if receiver.isCast || receiver.isConstruct then say "(" ++ target ++ say ")" else target) ++
        say "." ++ call method arguments
    callStatic := callStatic s
    callModule := callStatic s
    staticField := fun owner name => .ok (className owner) ++ say ("." ++ name)
    allocate := fun element size =>
      let (base, dimensions) := innermost element
      say "new " ++ .ok (typeName base) ++
        say ("[" ++ toString size ++ "]" ++ Cursor.copies "[]" dimensions)
    arrayOf := fun element onLines values =>
      say "new " ++ .ok (typeName element) ++ say r"[]{" ++ elements onLines values ++ say r"}"
    lambda := fun ps body =>
      lambda (commas (ps.map fun p => piece (.identifier p.name) (identifier p.name))) ") -> " body
    equal := fun left _ right => left ++ say " == " ++ right
    cast := fun type operand => say "(" ++ .ok (typeName type) ++ say ") " ++ operand
    notNull := fun _ => refuse .java .notNullAssertion
    classOf := fun owner => .ok (className owner) ++ say ".class"
    length := fun operand => operand ++ say ".length"
    mock := fun owner => mockMember "mock" ++ say "(" ++ .ok (className owner) ++ say ".class)" }

/-- A parameter with its type. -/
def parameter (d : Dialect) (p : Parameter) : Rendering :=
  d.typeName p.type ++ say " " ++ d.reference p.name

/-- Annotations and signature of a method. -/
def opening (s : Surroundings) (d : Dialect) (m : Method) : Rendering :=
  let parameters := say (m.name ++ "(") ++ commas (m.parameters.map (parameter d)) ++
    line r") throws Throwable {"
  jvmAnnotations d ".class" (methodAnnotations s.settings.framework m) ++
    (match m.kind with
     | .dataProvider =>
       say "public static " ++ d.typeName m.returnType ++ say " " ++ parameters
     | _ => say "public void " ++ parameters) ++
    .ok [.indent]

/-- The end of a method. -/
def closing (_ : Method) : Rendering := .ok [.dedent] ++ line r"}"

/-- How Java writes methods. -/
def methods (s : Surroundings) : MethodForms :=
  let d := dialect s
  { dialect := d
    opening := opening s d
    closing := closing
    helper := fun h =>
      let modifiers :=
        match s.classKind with
        | .helpers => "public static"
        | .test => "private static"
      concat ((javaHelper modifiers s.settings.mockLibrary.isSome h).map line)
    whole := documentedAbove d (opening s d) closing }

/-- A group of imports, ended by a blank line unless it is empty. -/
def importGroup (lines : List String) : Rendering :=
  if lines.isEmpty then nothing else concat (lines.map line) ++ newline

/-- How Java writes a file. -/
def file (s : Surroundings) (f : SourceFile) : Rendering :=
  let forms := methods s
  let d := forms.dialect
  let c := f.testClass
  let regular := f.imports.filterMap fun i =>
    match i with
    | .regular path _ => some ("import " ++ path ++ ";")
    | .member .. => none
  let members := f.imports.filterMap fun i =>
    match i with
    | .member owner name => some ("import static " ++ owner ++ "." ++ name ++ ";")
    | .regular .. => none
  (match f.package with
   | none => nothing
   | some package => line ("package " ++ package ++ ";") ++ newline) ++
    importGroup regular ++ importGroup members ++
    (if c.documentation.isEmpty then nothing else .ok (d.documentation c.documentation)) ++
    jvmAnnotations d ".class" c.annotations ++
    say ("public final class " ++ c.id.name) ++
    (match c.superclass with
     | none => nothing
     | some superclass => say " extends " ++ .ok (d.className superclass)) ++
    (if c.interfaces.isEmpty then nothing
     else say " implements " ++ commas (c.interfaces.map fun i => .ok (d.className i))) ++
    line r" {" ++
    nest (forms.regions (c.regions ++ [c.statics])) ++
    line r"}"

/-- How Java writes files. -/
def forms : FileForms := ⟨methods, file⟩

end Java

end TestWriter.Target
