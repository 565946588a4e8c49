import TestWriter.Suite.Mention
import TestWriter.Target.Annotations
import TestWriter.Target.Go
import TestWriter.Generation

/-!
# Imports of a test class

The imports that a language needs for what a class mentions, in order of first mention, after those
of the framework.  On the JVM a short name belongs to the first class that is mentioned by it, and
only that class is imported.
-/

namespace TestWriter

/-- The imports that a framework needs in every file. -/
def Framework.imports : Framework → List Import
  | .unittest => [.regular "unittest" none]
  | .pytest => [.regular "pytest" none]
  | .mocha => [.regular "assert" (some "assert")]
  | .goTesting => [.regular "testing" none, .regular Target.Go.assertPackage none]
  | .junit4 | .junit5 | .testng => []

namespace Mention

/-- The class that a mention writes by its short name on the JVM. -/
def shortClass? (language : Language) : Mention → Option ClassName
  | .ofClass c | .typeClass c => if c.isGlobal then none else some c
  | .function module _ =>
    if language = .java ∧ !module.isGlobal then some module else none
  | _ => none

/-- The first class of some mentions that has a short name. -/
def ownerOfName? (language : Language) (mentions : List Mention) (name : String) :
    Option ClassName :=
  mentions.findSome? fun m => (m.shortClass? language).filter fun c => c.name = name

end Mention

namespace Generation

/-- Import a class by its short name, if the name belongs to it. -/
def importsOfClass (g : Generation) (mentions : List Mention) (c : ClassName) : List Import :=
  if c.isGlobal then []
  else
    match g.language with
    | .java | .kotlin =>
      if Mention.ownerOfName? g.language mentions c.name = some c then
        [.regular c.qualifiedName none]
      else []
    | .python | .javascript => [.member c.package c.name]
    | .go => if c.package = g.testPackage then [] else [.regular c.package none]

/-- Import a function of a module. -/
def importsOfFunction (g : Generation) (mentions : List Mention) (module : ClassName)
    (name : String) : List Import :=
  if module.isGlobal then []
  else
    match g.language with
    | .kotlin => [.regular (module.package ++ "." ++ name) none]
    | .java | .go => g.importsOfClass mentions module
    | .python | .javascript => [.member module.package name]

/-- The imports that a mention asks for, among all mentions of its class. -/
def importsOfMention (g : Generation) (mentions : List Mention) : Mention → List Import
  | .ofClass c => g.importsOfClass mentions c
  | .typeClass c =>
    match g.language with
    | .python | .javascript => []
    | _ => g.importsOfClass mentions c
  | .function module name => g.importsOfFunction mentions module name
  | .helper h =>
    match g.helperClass? with
    | some owner => [.member owner.qualifiedName (h.nameIn g.language)]
    | none => []
  | .assertion member =>
    match g.config.framework.assertionsClass? with
    | some owner => if g.language.isJvm then [.member owner member] else []
    | none => []
  | .mocking member =>
    if g.language.isJvm then [.member g.config.mockLibrary.facade member] else []
  | .staticMocks =>
    if g.language.isJvm then [.regular "org.mockito.MockedStatic" none] else []
  | .nonFinite => if g.language = .go then [.regular "math" none] else []

/-- What a method mentions, the annotations of the JVM included. -/
def mentionsOfMethod (g : Generation) (m : Method) : List Mention :=
  (if g.language.isJvm then
    (Target.methodAnnotations g.config.framework m).flatMap AnnotationUse.mentions
  else []) ++ m.mentions

/-- What a class mentions.  Only on the JVM a superclass is named by its short name. -/
def mentionsOfClass (g : Generation) (c : TestClass) : List Mention :=
  c.annotations.flatMap AnnotationUse.mentions ++
    (if g.language.isJvm then (c.superclass.toList ++ c.interfaces).map Mention.ofClass else []) ++
    c.methods.flatMap g.mentionsOfMethod

/-- The imports of a class in order of first mention. -/
def importsInOrder (g : Generation) (c : TestClass) : List Import :=
  let mentions := g.mentionsOfClass c
  (g.config.framework.imports ++ mentions.flatMap (g.importsOfMention mentions)).foldl insertLast []

/-- Whether a class is in reach without its import. -/
def inReach (g : Generation) : Import → Bool
  | .member .. => false
  | i@(.regular ..) =>
    match g.language with
    | .java => i.source = "java.lang" || i.source = g.testPackage
    | .kotlin => i.source = "kotlin" || i.source = g.testPackage
    | _ => false

/-- The imports of a class; optimized ones are sorted, and none of them is redundant. -/
def importsOf (g : Generation) (c : TestClass) : List Import :=
  let imports := g.importsInOrder c
  if g.optimizeImports then Import.sort (imports.filter fun i => !g.inReach i) else imports

/-- The names that tests in JavaScript take from the module under test. -/
def moduleExports (g : Generation) : List String :=
  if g.language = .javascript then
    g.imports.filterMap fun i =>
      match i with
      | .member owner name => if owner = g.classUnderTest.package then some name else none
      | .regular .. => none
  else []

end Generation

end TestWriter
