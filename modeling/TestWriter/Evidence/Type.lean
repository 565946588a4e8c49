import TestWriter.Text.Lines

/-!
# Classes and types

Identities of classes and modules, and the types of parameters, results and variables.
-/

namespace TestWriter

/-- A class, or the module or package that holds functions.  A class without package is global: it
never needs an import. -/
structure ClassName where
  package : String
  name : String
  deriving DecidableEq, Repr

namespace ClassName

/-- A class without package. -/
def global (name : String) : ClassName := ⟨"", name⟩

/-- Whether the class has no package. -/
def isGlobal (c : ClassName) : Bool := c.package.isEmpty

/-- The package and the name, joined by a point. -/
def qualifiedName (c : ClassName) : String :=
  if c.isGlobal then c.name else c.package ++ "." ++ c.name

/-- Split a qualified name at its last point. -/
def parse (qualified : String) : ClassName :=
  match Text.splitLast? '.' qualified.toList with
  | some (package, name) => ⟨String.ofList package, String.ofList name⟩
  | none => global qualified

end ClassName

/-- The primitive types that the target languages share. -/
inductive Primitive
  | bool
  | byte
  | short
  | int
  | long
  | float
  | double
  | char
  deriving DecidableEq, Repr

/-- Whether values of the type are compared with a tolerance. -/
def Primitive.isFloating : Primitive → Bool
  | .float | .double => true
  | _ => false

/-- The type of a parameter, a result or a variable. -/
inductive DataType
  | void
  | primitive (p : Primitive)
  | str
  | ofClass (c : ClassName)
  | array (element : DataType)
  | any
  | errorClass
  deriving DecidableEq, Repr

namespace DataType

/-- Whether the type has no values. -/
def isVoid : DataType → Bool
  | .void => true
  | _ => false

/-- The primitive type, if it is one. -/
def primitive? : DataType → Option Primitive
  | .primitive p => some p
  | _ => none

end DataType

/-- A named parameter. -/
structure Parameter where
  name : String
  type : DataType
  deriving DecidableEq, Repr

/-- How an executable is invoked. -/
inductive Invocation
  | method
  | staticMethod
  | constructor
  | function
  deriving DecidableEq, Repr

/-- A method, constructor or function under test. -/
structure Executable where
  owner : ClassName
  name : String
  parameters : List Parameter
  returnType : DataType
  kind : Invocation
  deriving DecidableEq, Repr

namespace Executable

/-- A constructor of a class. -/
def constructorOf (owner : ClassName) (parameters : List Parameter) : Executable :=
  { owner := owner
    name := "<init>"
    parameters := parameters
    returnType := .ofClass owner
    kind := .constructor }

/-- Whether the executable is a constructor. -/
def isConstructor (e : Executable) : Bool := e.kind = .constructor

/-- The name from which test names are made: for a constructor, that of its class. -/
def displayName (e : Executable) : String :=
  if e.isConstructor then e.owner.name else e.name

/-- The qualified name shown to a user. -/
def display (e : Executable) : String :=
  let owner := e.owner.qualifiedName
  match e.kind with
  | .constructor => owner ++ ".<init>"
  | .function => if owner.isEmpty then e.name else owner ++ "." ++ e.name
  | _ => owner ++ "." ++ e.name

end Executable

end TestWriter
