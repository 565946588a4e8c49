import TestWriter.Suite.Code

/-!
# Memories

What the statements that rebuild a value do when they run.  A memory binds variables and holds
objects, each with the way in which it was made and all that was written to it since, in order.  An
object describes a value when it was made and written like it; since objects refer to each other by
their places, the description goes through the memory.
-/

namespace TestWriter

/-- The result of an expression. -/
inductive Datum
  | literal (l : Literal)
  | enumConstant (owner : ClassName) (name : String)
  /-- The object at a place of the memory. -/
  | object (place : Nat)
  deriving DecidableEq

/-- An object, with what was written to it. -/
inductive Object
  | array (element : DataType) (elements : List Datum)
  /-- An object made by a constructor. -/
  | constructed (owner : ClassName) (arguments : List Datum) (fields : List (String × Datum))
  /-- An object made without a constructor. -/
  | bare (owner : ClassName) (fields : List (String × Datum))
  /-- A mock object with its stubbed calls: method, arguments and result. -/
  | mock (owner : ClassName) (stubs : List (String × List Datum × Datum))
  deriving DecidableEq

namespace Object

/-- Write a field, if the object has fields. -/
def write? (name : String) (value : Datum) : Object → Option Object
  | .constructed owner arguments fields =>
    some (.constructed owner arguments (fields ++ [(name, value)]))
  | .bare owner fields => some (.bare owner (fields ++ [(name, value)]))
  | .array .. | .mock .. => none

/-- Stub a call, if the object is a mock. -/
def stub? (method : String) (arguments : List Datum) (returns : Datum) : Object → Option Object
  | .mock owner stubs => some (.mock owner (stubs ++ [(method, arguments, returns)]))
  | .array .. | .constructed .. | .bare .. => none

end Object

/-- Variables with what they are bound to, the last declaration first, and the objects. -/
structure Memory where
  bindings : List (String × Datum)
  objects : List Object

namespace Memory

/-- What a variable is bound to. -/
def lookup? (m : Memory) (name : String) : Option Datum := m.bindings.lookup name

/-- Bind a variable. -/
def bind (m : Memory) (name : String) (value : Datum) : Memory :=
  { m with bindings := (name, value) :: m.bindings }

/-- Put a new object after the others. -/
def allocate (m : Memory) (o : Object) : Datum × Memory :=
  (.object m.objects.length, { m with objects := m.objects ++ [o] })

/-- Change the object that a result refers to, if it refers to one that can be changed so. -/
def change? (m : Memory) (target : Datum) (f : Object → Option Object) : Option Memory :=
  match target with
  | .object place => do
    let o ← m.objects[place]?
    let changed ← f o
    return { m with objects := m.objects.set place changed }
  | .literal _ | .enumConstant .. => none

end Memory

/-- The class of which an expression makes an object without a constructor: by the helper of the JVM,
which finds the class by its name, by `object.__new__` or by `Object.create`. -/
def Expr.allocated? : Expr → Option ClassName
  | .cast (.ofClass owner) (.callHelper .createInstance [.literal (.str name)]) =>
    if name = owner.qualifiedName then some owner else none
  | .callStatic ⟨"", "object"⟩ "__new__" [.classOf owner] => some owner
  | .callStatic ⟨"", "Object"⟩ "create" [.staticField owner "prototype"] => some owner
  | _ => none

mutual

/-- Evaluate an expression; none if it is not one that a rebuilt value needs. -/
def Expr.eval : Expr → Memory → Option (Datum × Memory)
  | .literal l, m => some (.literal l, m)
  | .ref name, m => (m.lookup? name).map fun value => (value, m)
  | .staticField owner name, m => some (.enumConstant owner name, m)
  | .arrayOf type values, m => do
    let (elements, m) ← Expr.evalEach values m
    return m.allocate (.array type elements)
  | .construct owner arguments, m => do
    let (values, m) ← Expr.evalEach arguments m
    return m.allocate (.constructed owner values [])
  | .mock owner, m => some (m.allocate (.mock owner []))
  | e, m => e.allocated?.map fun owner => m.allocate (.bare owner [])

/-- Evaluate expressions one after the other. -/
def Expr.evalEach : List Expr → Memory → Option (List Datum × Memory)
  | [], m => some ([], m)
  | e :: rest, m => do
    let (value, m) ← e.eval m
    let (values, m) ← Expr.evalEach rest m
    return (value :: values, m)

end

namespace Stmt

/-- The object, the field and the value of a statement that writes a field: an assignment, a call of
the helper of the JVM, or a call of `setattr`. -/
def write? : Stmt → Option (Expr × String × Expr)
  | .assign (.field target name) value => some (target, name, value)
  | .eval (.callHelper .setField [target, .literal (.str name), value]) => some (target, name, value)
  | .eval (.callModule ⟨"", "builtins"⟩ "setattr" [target, .literal (.str name), value]) =>
    some (target, name, value)
  | _ => none

/-- Run a statement; none if it is not one that a rebuilt value needs. -/
def run : Stmt → Memory → Option Memory
  | .declare name _ _ (some e), m => do
    let (value, m) ← e.eval m
    return m.bind name value
  | .stub target (.mk method arguments returns), m => do
    let (mock, m) ← target.eval m
    let (values, m) ← Expr.evalEach arguments m
    let (value, m) ← returns.eval m
    m.change? mock (Object.stub? method values value)
  | s, m => do
    let (target, name, e) ← s.write?
    let (object, m) ← target.eval m
    let (value, m) ← e.eval m
    m.change? object (Object.write? name value)

/-- Run statements one after the other. -/
def runAll : List Stmt → Memory → Option Memory
  | [], m => some m
  | s :: rest, m => do
    let m ← s.run m
    runAll rest m

end Stmt

mutual

/-- A result describes a value in a memory: they are the same literal or constant, or it refers to
an object, not before the place `first`, that was made and written like the value. -/
inductive Memory.Describes (m : Memory) (first : Nat) : Datum → Value → Prop
  | literal (l : Literal) : m.Describes first (.literal l) (.literal l)
  | enumConstant (owner : ClassName) (name : String) :
    m.Describes first (.enumConstant owner name) (.enumConstant owner name)
  | array {place : Nat} {element : DataType} {data : List Datum} {values : List Value} :
    first ≤ place → m.objects[place]? = some (.array element data) →
    m.DescribesEach first data values → m.Describes first (.object place) (.array element values)
  | composite {place : Nat} {owner : ClassName} {data : List Datum}
    {writes : List (String × Datum)} {arguments : List Value} {fields : List Field} :
    first ≤ place → m.objects[place]? = some (.constructed owner data writes) →
    m.DescribesEach first data arguments → m.DescribesFields first writes fields →
    m.Describes first (.object place) (.composite owner arguments fields)
  | reflective {place : Nat} {owner : ClassName} {writes : List (String × Datum)}
    {fields : List Field} :
    first ≤ place → m.objects[place]? = some (.bare owner writes) →
    m.DescribesFields first writes fields →
    m.Describes first (.object place) (.reflective owner fields)
  | mock {place : Nat} {owner : ClassName} {calls : List (String × List Datum × Datum)}
    {stubs : List Stub} :
    first ≤ place → m.objects[place]? = some (.mock owner calls) →
    m.DescribesStubs first calls stubs → m.Describes first (.object place) (.mock owner stubs)

/-- Results describe values, one by one. -/
inductive Memory.DescribesEach (m : Memory) (first : Nat) : List Datum → List Value → Prop
  | nil : m.DescribesEach first [] []
  | cons {d : Datum} {v : Value} {data : List Datum} {values : List Value} :
    m.Describes first d v → m.DescribesEach first data values →
    m.DescribesEach first (d :: data) (v :: values)

/-- Written fields describe fields, one by one. -/
inductive Memory.DescribesFields (m : Memory) (first : Nat) :
    List (String × Datum) → List Field → Prop
  | nil : m.DescribesFields first [] []
  | cons {name : String} {d : Datum} {v : Value} {writes : List (String × Datum)}
    {fields : List Field} :
    m.Describes first d v → m.DescribesFields first writes fields →
    m.DescribesFields first ((name, d) :: writes) (.mk name v :: fields)

/-- Stubbed calls describe stubs, one by one. -/
inductive Memory.DescribesStubs (m : Memory) (first : Nat) :
    List (String × List Datum × Datum) → List Stub → Prop
  | nil : m.DescribesStubs first [] []
  | cons {method : String} {data : List Datum} {d : Datum} {arguments : List Value}
    {returns : Value} {calls : List (String × List Datum × Datum)} {stubs : List Stub} :
    m.DescribesEach first data arguments → m.Describes first d returns →
    m.DescribesStubs first calls stubs →
    m.DescribesStubs first ((method, data, d) :: calls) (.mk method arguments returns :: stubs)

end

end TestWriter
