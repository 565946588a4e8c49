import TestWriter.Target.Java
import TestWriter.Target.KotlinHelpers

/-!
# Kotlin

Test classes for JUnit 4, JUnit 5 and TestNG with Mockito, and the Kotlin helper object.  Static
methods live in the companion object of a test class.
-/

namespace TestWriter.Target.Kotlin

open Layout Rendering

/-- The reserved words that cannot be names. -/
def reserved : List String :=
  ["as", "break", "class", "continue", "do", "else", "false", "for", "fun", "if", "in", "interface",
   "is", "null", "object", "package", "return", "super", "this", "throw", "true", "try",
   "typealias", "typeof", "val", "var", "when", "while"]

/-- A name, between backticks when it is a reserved word. -/
def identifier (name : String) : String :=
  if reserved.contains name then "`" ++ name ++ "`" else name

/-- A dotted path whose parts are names. -/
def path (s : String) : String :=
  ".".intercalate ((Text.parts '.' s.toList).map fun part => identifier (String.ofList part))

/-- The words. -/
def words : Words :=
  { ending := ""
    conjunction := "&&"
    disjunction := "||"
    negation := "!"
    lineComment := "//"
    regionOpen := "//region"
    regionClose := "//endregion"
    absent := "null"
    yes := "true"
    no := "false"
    declaration := fun isMutable => some (if isMutable then "var" else "val") }

/-- A text as a literal; a dollar sign would start a template. -/
def quote (s : String) : String := Text.Quoted.literal '"' ['"', '$'] s

/-- A number followed by its conversion; a negative number stands in brackets. -/
def converted (n : Int) (conversion : String) : String :=
  (if n < 0 then "(" ++ toString n ++ ")" else toString n) ++ conversion

/-- The text of a literal. -/
def literal : Literal → String
  | .byte n => converted n.toInt ".toByte()"
  | .short n => converted n.toInt ".toShort()"
  | .int n => if n = Int32.minValue then "Int.MIN_VALUE" else toString n.toInt
  | .str s => quote s
  | l => Java.literal l

/-- The name of a primitive type. -/
def primitive : Primitive → String
  | .bool => "Boolean"
  | .byte => "Byte"
  | .short => "Short"
  | .int => "Int"
  | .long => "Long"
  | .float => "Float"
  | .double => "Double"
  | .char => "Char"

/-- The name of a primitive type as the first part of a function name. -/
def primitiveWord : Primitive → String
  | .bool => "boolean"
  | .byte => "byte"
  | .short => "short"
  | .int => "int"
  | .long => "long"
  | .float => "float"
  | .double => "double"
  | .char => "char"

/-- The name of a class. -/
def className (s : Surroundings) (c : ClassName) : Doc :=
  [.text (.ofClass c) (s.className "kotlin" c)]

/-- Whether the type admits the absent value. -/
def isNullable : DataType → Bool
  | .void | .primitive _ => false
  | _ => true

/-- The mark of a type that admits the absent value. -/
def nullMark (t : DataType) : Doc :=
  if isNullable t then [.text .plain "?"] else []

/-- The name of a type, without the mark that it admits the absent value. -/
def unmarkedType (s : Surroundings) : DataType → Doc
  | .void => [.text .plain "Unit"]
  | .primitive p => [.text .plain (primitive p)]
  | .str => [.text .plain "String"]
  | .ofClass c => className s c
  | .array (.primitive p) => [.text .plain (primitive p), .text .plain "Array"]
  | .array element =>
    [.text .plain "Array<"] ++ unmarkedType s element ++ nullMark element ++ [.text .plain ">"]
  | .any => [.text .plain "Any"]
  | .errorClass => [.text .plain "Class<out Throwable>"]

/-- The name of a type. -/
def typeName (s : Surroundings) (t : DataType) : Doc := unmarkedType s t ++ nullMark t

/-- A call after its receiver. -/
def call (method : String) (arguments : List Rendering) : Rendering :=
  say (identifier method) ++ say "(" ++ commas arguments ++ say ")"

/-- How Kotlin writes code. -/
def dialect (s : Surroundings) : Dialect :=
  let className := className s
  let typeName := typeName s
  let block : Block → Rendering := fun b => nest b.content
  { language := .kotlin
    tab := "    "
    words := words
    literal := fun l => [.text .plain (literal l)]
    quote := quote
    identifier := identifier
    typeName := fun t => .ok (typeName t)
    className := className
    comments := starComment "/*"
    documentation := starComment "/**"
    block := block
    declare := fun name type isMutable initial =>
      match initial with
      | some e =>
        say (if isMutable then "var " else "val ") ++ piece (.identifier name) (identifier name) ++
          say " = " ++ e ++ newline
      | none =>
        say "var " ++ piece (.identifier name) (identifier name) ++ say ": " ++
          .ok (typeName type) ++ newline
    branch := fun condition thenBlock elseBlock =>
      bracedBranch block (say "if (" ++ condition ++ line r") {") thenBlock elseBlock
    switch := fun value cases fallback =>
      say "when (" ++ value ++ line r") {" ++
        nest
          (concat (cases.map fun (label, body) =>
            say (literal label) ++ line r" -> {" ++ block body ++ line r"}") ++
            line r"else -> {" ++ block fallback ++ line r"}") ++
        line r"}"
    throw := fun value => say "throw " ++ value ++ newline
    assertEquals := fun expected actual delta _ =>
      Java.assertion s "assertEquals" ++ say "(" ++ Java.equalityArguments s expected actual ++
        (match delta with
         | none => nothing
         | some l => say ", " ++ say (literal l)) ++
        line ")"
    assertTrue := fun condition =>
      Java.assertion s "assertTrue" ++ say "(" ++ condition ++ line ")"
    assertNull := fun value => Java.assertion s "assertNull" ++ say "(" ++ value ++ line ")"
    assertThrows := fun exception body =>
      Java.assertion s "assertThrows" ++ say "(" ++ exception ++ line r") {" ++ block body ++
        line r"}"
    fail := fun message =>
      Java.assertion s "fail" ++ say "(" ++ say (quote message) ++ line ")"
    stub := fun mock form =>
      piece (.member MockLibrary.mockito.facade "when") "`when`" ++ say "(" ++ mock ++
        say "." ++ call form.method form.arguments ++ say ").thenReturn(" ++ form.returns ++
        line ")"
    mockedStatic := fun handle owner forms body =>
      Java.mockMember "mockStatic" ++ say "(" ++ .ok (className owner) ++
        say r"::class.java).use { " ++ piece (.identifier handle) handle ++ line " ->" ++
        nest
          (concat (forms.map fun form =>
            piece (.identifier handle) handle ++ say r".`when`<Any?> { " ++
              .ok (className owner) ++ say "." ++ call form.method form.arguments ++
              say r" }.thenReturn(" ++ form.returns ++ line ")") ++
            body) ++
        line r"}"
    construct := fun owner arguments =>
      .ok (className owner) ++ say "(" ++ commas arguments ++ say ")"
    callOn := fun receiver target method arguments =>
      (if receiver.isCast then say "(" ++ target ++ say ")" else target) ++ say "." ++
        call method arguments
    callStatic := fun owner method arguments =>
      if owner.isGlobal then
        piece (.staticMember owner method) (identifier method) ++ say "(" ++ commas arguments ++
          say ")"
      else .ok (className owner) ++ say "." ++ call method arguments
    callModule := fun module method arguments =>
      piece (.function module method) (identifier method) ++ say "(" ++ commas arguments ++ say ")"
    staticField := fun owner name => .ok (className owner) ++ say ("." ++ name)
    allocate := fun element size =>
      match element with
      | .primitive p => say (primitive p ++ "Array(" ++ toString size ++ ")")
      | t => say "arrayOfNulls<" ++ .ok (unmarkedType s t) ++ say (">(" ++ toString size ++ ")")
    arrayOf := fun element onLines values =>
      (match element with
       | .primitive p => say (primitiveWord p ++ "ArrayOf")
       | t => say "arrayOf<" ++ .ok (typeName t) ++ say ">") ++
        say "(" ++ elements onLines values ++ say ")"
    lambda := fun ps body =>
      let arrow :=
        if ps.isEmpty then nothing
        else
          say " " ++ commas (ps.map fun p => piece (.identifier p.name) (identifier p.name)) ++
            say " ->"
      match body.sole with
      | some e => say r"{" ++ arrow ++ say " " ++ e ++ say r" }"
      | none => say r"{" ++ arrow ++ newline ++ block body ++ say r"}"
    equal := fun left _ right => left ++ say " == " ++ right
    cast := fun type operand =>
      say "(" ++ operand ++ say " as " ++ .ok (unmarkedType s type) ++ say ")"
    notNull := fun operand => operand ++ say "!!"
    classOf := fun owner => .ok (className owner) ++ say "::class.java"
    length := fun operand => operand ++ say ".size"
    mock := fun owner =>
      Java.mockMember "mock" ++ say "(" ++ .ok (className owner) ++ say "::class.java)" }

/-- A parameter with its type; an object to call a method on is never absent. -/
def parameter (s : Surroundings) (p : Parameter) : Rendering :=
  piece (.identifier p.name) (identifier p.name) ++ say ": " ++
    match p.type with
    | .ofClass c => .ok (className s c)
    | t => .ok (typeName s t)

/-- A rendering whose line ends, if it holds any, are those of the cursor. -/
def onOwnLines (r : Rendering) : Rendering := r.map Doc.breakLines ++ newline

/-- Annotations and signature of a method. -/
def opening (s : Surroundings) (d : Dialect) (m : Method) : Rendering :=
  let parameters := say (m.name ++ "(") ++ commas (m.parameters.map (parameter s)) ++ say ")"
  jvmAnnotations d "::class" (methodAnnotations s.settings.framework m) ++
    (match m.kind with
     | .dataProvider =>
       line "@JvmStatic" ++
         onOwnLines
          (say "fun " ++ parameters ++ say ": " ++ .ok (unmarkedType s m.returnType) ++ say r" {")
     | _ => onOwnLines (say "fun " ++ parameters ++ say r" {")) ++
    .ok [.indent]

/-- How Kotlin writes methods. -/
def methods (s : Surroundings) : MethodForms :=
  let d := dialect s
  { dialect := d
    opening := opening s d
    closing := Java.closing
    helper := fun h =>
      let modifiers :=
        match s.classKind with
        | .helpers => "@JvmStatic fun"
        | .test => "@JvmStatic private fun"
      concat ((kotlinHelper modifiers s.settings.mockLibrary.isSome h).map line)
    whole := documentedAbove d (opening s d) Java.closing }

/-- The paths of the imports, in order and without repetitions. -/
def importPaths (imports : List Import) : List String :=
  let paths := imports.map fun i =>
    match i with
    | .regular p _ => path p
    | .member owner name => path owner ++ "." ++ identifier name
  (paths.mergeSort fun a b => !(b < a)).eraseDups

/-- The body of a class: regions, and the static methods in a companion object. -/
def body (f : MethodForms) (c : TestClass) : Rendering :=
  match c.kind with
  | .helpers => f.regions (c.regions ++ [c.statics])
  | .test =>
    f.regions c.regions ++
      (if c.statics.isEmpty then nothing
       else
        (if (MethodForms.inhabited c.regions).isEmpty then nothing else newline) ++
          line r"companion object {" ++ nest (f.region c.statics) ++ line r"}")

/-- How Kotlin writes a file. -/
def file (s : Surroundings) (f : SourceFile) : Rendering :=
  let forms := methods s
  let d := forms.dialect
  let c := f.testClass
  let supertypes : List Rendering :=
    (c.superclass.map fun superclass => .ok (d.className superclass) ++ say "()").toList ++
      c.interfaces.map fun i => .ok (d.className i)
  (match f.package with
   | none => nothing
   | some package => line ("package " ++ path package) ++ newline) ++
    Java.importGroup ((importPaths f.imports).map fun p => "import " ++ p) ++
    (if c.documentation.isEmpty then nothing else .ok (d.documentation c.documentation)) ++
    jvmAnnotations d "::class" c.annotations ++
    say
      (match c.kind with
       | .test => "class " ++ c.id.name
       | .helpers => "object " ++ c.id.name) ++
    (if supertypes.isEmpty then nothing else say " : " ++ commas supertypes) ++
    line r" {" ++ nest (body forms c) ++ line r"}"

/-- How Kotlin writes files. -/
def forms : FileForms := ⟨methods, file⟩

end TestWriter.Target.Kotlin
