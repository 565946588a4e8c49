import TestWriter.Decimal.Binary
import TestWriter.Evidence.Type

/-!
# Values

Concrete values seen while the code under test ran.  A literal is written in place; any other
value is rebuilt by the statements of a test.
-/

namespace TestWriter

open Decimal (Binary32 Binary64)

/-- A value that every target language writes as a literal. -/
inductive Literal
  | null
  | bool (value : Bool)
  | byte (value : Int8)
  | short (value : Int16)
  | int (value : Int32)
  | long (value : Int64)
  | float (value : Binary32)
  | double (value : Binary64)
  | char (value : Char)
  | str (value : String)
  deriving DecidableEq

namespace Literal

/-- The static type of the literal. -/
def type : Literal → DataType
  | .null => .any
  | .bool _ => .primitive .bool
  | .byte _ => .primitive .byte
  | .short _ => .primitive .short
  | .int _ => .primitive .int
  | .long _ => .primitive .long
  | .float _ => .primitive .float
  | .double _ => .primitive .double
  | .char _ => .primitive .char
  | .str _ => .str

/-- Whether the literal is a floating point NaN. -/
def isNaN : Literal → Bool
  | .float x => x.isNaN
  | .double x => x.isNaN
  | _ => false

/-- Whether the literal is a floating point number that is infinite or a NaN. -/
def isNonFinite : Literal → Bool
  | .float x => !x.isFinite
  | .double x => !x.isFinite
  | _ => false

end Literal

mutual

/-- A value seen in an execution. -/
inductive Value
  /-- A literal. -/
  | literal (l : Literal)
  /-- An array with its element type. -/
  | array (element : DataType) (values : List Value)
  /-- An object made by a constructor whose fields are assigned afterwards. -/
  | composite (owner : ClassName) (arguments : List Value) (fields : List Field)
  /-- An object made without constructor, its fields set by reflection. -/
  | reflective (owner : ClassName) (fields : List Field)
  /-- A mock object with its stubbed methods. -/
  | mock (owner : ClassName) (stubs : List Stub)
  /-- A constant of an enumeration. -/
  | enumConstant (owner : ClassName) (name : String)

/-- A field with its value. -/
inductive Field
  | mk (name : String) (value : Value)

/-- A stubbed method of a mock with the arguments it matches and its result. -/
inductive Stub
  | mk (method : String) (arguments : List Value) (returns : Value)

end

namespace Value

/-- The absent value. -/
def null : Value := .literal .null

/-- The static type of the value. -/
def type : Value → DataType
  | .literal l => l.type
  | .array element _ => .array element
  | .composite owner .. | .reflective owner _ | .mock owner _ | .enumConstant owner _ =>
    .ofClass owner

/-- The literal, if the value is one. -/
def literal? : Value → Option Literal
  | .literal l => some l
  | _ => none

/-- Whether the value is written in place. -/
def isInline : Value → Bool
  | .literal _ | .enumConstant .. => true
  | _ => false

/-- Whether the value is the absent one. -/
def isNull : Value → Bool
  | .literal .null => true
  | _ => false

/-- Whether the value is a floating point NaN. -/
def isNaN : Value → Bool
  | .literal l => l.isNaN
  | _ => false

/-- Whether equality has to look inside the value. -/
def comparesDeeply : Value → Bool
  | .array .. | .composite .. | .reflective .. => true
  | _ => false

/-- Whether the value is a mock itself. -/
def isMock : Value → Bool
  | .mock .. => true
  | _ => false

/-- Whether the value is an object built from its fields. -/
def isObject : Value → Bool
  | .composite .. | .reflective .. => true
  | _ => false

mutual

/-- Whether the value, or anything nested in it, is a mock. -/
def containsMock : Value → Bool
  | .mock .. => true
  | .array _ values => anyContainsMock values
  | .composite _ arguments fields => anyContainsMock arguments || fieldsContainMock fields
  | .reflective _ fields => fieldsContainMock fields
  | .literal _ | .enumConstant .. => false

/-- Whether one of some values contains a mock. -/
def anyContainsMock : List Value → Bool
  | [] => false
  | v :: rest => v.containsMock || anyContainsMock rest

/-- Whether the value of one of some fields contains a mock. -/
def fieldsContainMock : List Field → Bool
  | [] => false
  | .mk _ v :: rest => v.containsMock || fieldsContainMock rest

end

end Value

end TestWriter
