import TestWriter.Evidence.Value
import TestWriter.Helper

/-!
# Code of a test

Expressions, statements and assertions, independent of the target language.  Each target writes
them in its own way or refuses them.
-/

namespace TestWriter

/-- A logical operator with two operands. -/
inductive Connective
  | and
  | or
  deriving DecidableEq, Repr

mutual

/-- An expression. -/
inductive Expr
  | literal (l : Literal)
  /-- A variable or parameter. -/
  | ref (name : String)
  /-- A new object. -/
  | construct (owner : ClassName) (arguments : List Expr)
  /-- A call of a method on an object. -/
  | callOn (receiver : Expr) (method : String) (arguments : List Expr)
  /-- A call of a static method. -/
  | callStatic (owner : ClassName) (method : String) (arguments : List Expr)
  /-- A call of a function of a module or package. -/
  | callModule (module : ClassName) (method : String) (arguments : List Expr)
  /-- A call of a helper. -/
  | callHelper (helper : Helper) (arguments : List Expr)
  | field (target : Expr) (name : String)
  | staticField (owner : ClassName) (name : String)
  | element (array : Expr) (index : Expr)
  /-- An array of default elements. -/
  | allocate (element : DataType) (size : Nat)
  | arrayOf (element : DataType) (values : List Expr)
  | lambda (parameters : List Parameter) (body : List Stmt)
  | equal (left : Expr) (right : Expr)
  | logical (op : Connective) (left : Expr) (right : Expr)
  | not (operand : Expr)
  | cast (type : DataType) (operand : Expr)
  /-- The operand, stated not to be null. -/
  | notNull (operand : Expr)
  /-- The class object of a class. -/
  | classOf (owner : ClassName)
  | length (operand : Expr)
  /-- A fresh mock object. -/
  | mock (owner : ClassName)

/-- A statement. -/
inductive Stmt
  | declare (name : String) (type : DataType) (isMutable : Bool) (initial : Option Expr)
  | assign (target : Expr) (value : Expr)
  | eval (e : Expr)
  | ret (value : Option Expr)
  | branch (condition : Expr) (thenBody : List Stmt) (elseBody : List Stmt)
  | switch (value : Expr) (cases : List SwitchCase) (default : List Stmt)
  | throw (value : Expr)
  /-- A scope in which static methods of a class are mocked through a variable. -/
  | mockedStatic (handle : String) (owner : ClassName) (stubbings : List Stubbing) (body : List Stmt)
  /-- The stubbing of a method of a mock object. -/
  | stub (mock : Expr) (stubbing : Stubbing)
  /-- The assertion that two values are equal, within a tolerance if one is given; `deep` asks for
  equality of structure where a framework tells the difference. -/
  | assertEquals (expected : Expr) (actual : Expr) (delta : Option Literal) (deep : Bool)
  | assertTrue (condition : Expr)
  | assertNull (value : Expr)
  /-- The assertion that statements throw an instance of a class. -/
  | assertThrows (exception : Expr) (body : List Stmt)
  | fail (message : String)
  | comment (text : String)
  | comments (lines : List String)
  | blank

/-- A stubbed call: the method, the arguments it matches and its result. -/
inductive Stubbing
  | mk (method : String) (arguments : List Expr) (returns : Expr)

/-- A label of a switch with its statements. -/
inductive SwitchCase
  | mk (label : Literal) (body : List Stmt)

end

namespace Expr

/-- The literal of a text. -/
def str (s : String) : Expr := .literal (.str s)

/-- The absent value. -/
def null : Expr := .literal .null

/-- Whether the expression is the absent value. -/
def isNull : Expr → Bool
  | .literal .null => true
  | _ => false

/-- Whether the expression is an array written with its elements. -/
def isArrayOf : Expr → Bool
  | .arrayOf .. => true
  | _ => false

/-- Whether the expression is a cast. -/
def isCast : Expr → Bool
  | .cast .. => true
  | _ => false

/-- Whether the expression makes a new object. -/
def isConstruct : Expr → Bool
  | .construct .. => true
  | _ => false

end Expr

namespace Stmt

/-- Whether the statement does nothing when it runs. -/
def isIdle : Stmt → Bool
  | .comment _ | .comments _ | .blank => true
  | _ => false

/-- The member of an assertion class that makes the assertion, if the statement is one. -/
def assertionName? : Stmt → Option String
  | .assertEquals .. => some "assertEquals"
  | .assertTrue _ => some "assertTrue"
  | .assertNull _ => some "assertNull"
  | .assertThrows .. => some "assertThrows"
  | .fail _ => some "fail"
  | _ => none

end Stmt

end TestWriter
