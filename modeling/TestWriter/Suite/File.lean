import TestWriter.Evidence.Execution
import TestWriter.Suite.Code

/-!
# Files of tests

Methods, the regions that group them, the class that holds them, and the file with its imports.
-/

namespace TestWriter

/-- What is known of a test beside its code. -/
structure TestInfo where
  executable : Executable
  classification : Classification
  displayName : Option String
  timeoutMillis : Option Nat
  /-- The reason why the test is disabled. -/
  disabled : Option String
  deriving DecidableEq, Repr

/-- What a method is for. -/
inductive MethodKind
  /-- The test of one run. -/
  | test (info : TestInfo)
  /-- A test that lists the errors met for an executable. -/
  | errorReport (executable : Executable)
  /-- A test that runs once per row of a data provider. -/
  | parameterized (executable : Executable) (dataProvider : String)
  /-- The method that returns the rows. -/
  | dataProvider
  /-- A helper, whose body the target supplies. -/
  | helper (h : Helper)
  deriving DecidableEq, Repr

/-- A method of a test class. -/
structure Method where
  name : String
  kind : MethodKind
  parameters : List Parameter
  returnType : DataType
  documentation : List String
  body : List Stmt
  isStatic : Bool

namespace Method

/-- The method of a helper. -/
def ofHelper (h : Helper) : Method :=
  { name := h.name
    kind := .helper h
    parameters := []
    returnType := .void
    documentation := []
    body := []
    isStatic := true }

/-- Whether a test framework runs the method. -/
def isTest (m : Method) : Bool :=
  match m.kind with
  | .test _ | .errorReport _ | .parameterized .. => true
  | .dataProvider | .helper _ => false

end Method

mutual

/-- A documented group of methods and smaller groups. -/
inductive Region
  | mk (header : Option String) (documentation : List String) (items : List RegionItem)

/-- A member of a region. -/
inductive RegionItem
  | region (r : Region)
  | method (m : Method)

end

namespace Region

/-- The line that opens the region. -/
def header : Region → Option String
  | .mk header _ _ => header

/-- The documentation below the header. -/
def documentation : Region → List String
  | .mk _ documentation _ => documentation

/-- The members in order. -/
def items : Region → List RegionItem
  | .mk _ _ items => items

/-- The region without header and members. -/
def empty : Region := .mk none [] []

/-- Whether the region has no members. -/
def isEmpty (r : Region) : Bool := r.items.isEmpty

mutual

/-- The methods of a region and of the regions in it, depth first. -/
def methods : Region → List Method
  | .mk _ _ items => methodsOf items

/-- The methods of some members, depth first. -/
def methodsOf : List RegionItem → List Method
  | [] => []
  | .region r :: rest => r.methods ++ methodsOf rest
  | .method m :: rest => m :: methodsOf rest

end

end Region

/-- An annotation with its arguments, each with a name or without. -/
structure AnnotationUse where
  owner : ClassName
  arguments : List (Option String × Expr)

namespace AnnotationUse

/-- An annotation without arguments. -/
def marker (package name : String) : AnnotationUse := ⟨⟨package, name⟩, []⟩

/-- Add an argument without name. -/
def withValue (a : AnnotationUse) (e : Expr) : AnnotationUse :=
  { a with arguments := a.arguments ++ [(none, e)] }

/-- Add an argument with a name. -/
def withArgument (a : AnnotationUse) (name : String) (e : Expr) : AnnotationUse :=
  { a with arguments := a.arguments ++ [(some name, e)] }

end AnnotationUse

/-- Whether a class holds tests or helpers. -/
inductive ClassKind
  | test
  | helpers
  deriving DecidableEq, Repr

/-- A class: one region per test set, and the region of its static methods. -/
structure TestClass where
  id : ClassName
  kind : ClassKind
  documentation : List String
  annotations : List AnnotationUse
  superclass : Option ClassName
  interfaces : List ClassName
  regions : List Region
  statics : Region

/-- The methods of a class, depth first, the static ones last. -/
def TestClass.methods (c : TestClass) : List Method :=
  c.regions.flatMap Region.methods ++ c.statics.methods

/-- An import: of a class, module or package, or of a member of one. -/
inductive Import
  | regular (path : String) (binding : Option String)
  | member (owner : String) (name : String)
  deriving DecidableEq, Repr

namespace Import

/-- The package or module that the import comes from. -/
def source : Import → String
  | .regular path _ =>
    match Text.splitLast? '.' path.toList with
    | some (package, _) => String.ofList package
    | none => path
  | .member owner _ => owner

/-- Whether an import of members rather than a regular one. -/
def isMember : Import → Bool
  | .regular .. => false
  | .member .. => true

/-- Whether one optional text is listed before another; absence comes first. -/
def optionLt : Option String → Option String → Bool
  | none, some _ => true
  | some a, some b => a < b
  | _, none => false

/-- Whether one import is listed before another: regular imports first, then by their texts. -/
def lt : Import → Import → Bool
  | .regular p a, .regular q b => p < q || (p = q && optionLt a b)
  | .regular .., .member .. => true
  | .member .., .regular .. => false
  | .member o m, .member p n => o < p || (o = p && m < n)

/-- Imports in the order of `lt`. -/
def sort (imports : List Import) : List Import :=
  imports.mergeSort fun a b => !lt b a

end Import

/-- A file of tests. -/
structure SourceFile where
  package : Option String
  imports : List Import
  testClass : TestClass

end TestWriter
