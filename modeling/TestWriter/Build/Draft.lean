import TestWriter.Build.Basic
import TestWriter.Generation

/-!
# Drafts of method bodies

A draft collects the statements of one method.  Values are rebuilt by declarations: a literal and a
constant stand in place, any other value gets a variable of its own, and the values nested in it
come first, or right after it when they are fields and stubs.  A value that the language cannot
rebuild ends the build where it is met, with all that was written and recorded before it.
-/

namespace TestWriter

/-- A method body in the making, in the generation that it belongs to. -/
structure Draft where
  generation : Generation
  /-- The names of its variables. -/
  supply : NameSupply
  statements : List Stmt

/-- Take a name for a method. -/
def Generation.takeName (take : MethodNames → String × MethodNames) : Build Generation String :=
  fun g =>
    let taken := take g.usage.names
    .ok taken.1 { g with usage := { g.usage with names := taken.2 } }

namespace Draft

/-- The draft of a new method. -/
def start (g : Generation) : Draft := ⟨g, .empty, []⟩

/-- Build a part of a method in a generation. -/
def writing {α : Type} (m : Build Draft α) : Build Generation α := fun g =>
  match m (start g) with
  | .ok a d => .ok a d.generation
  | .error e d => .error e d.generation

/-- Take a variable name. -/
def freshVariable (base : String) : Build Draft String := fun d =>
  let claimed := d.supply.claimVariable base
  .ok claimed.1 { d with supply := claimed.2 }

/-- Take variable names one after the other. -/
def takeVariables : List String → Build Draft Unit
  | [] => return ()
  | base :: rest => do
    let _ ← freshVariable base
    takeVariables rest

/-- Add a statement. -/
def push (s : Stmt) : Build Draft Unit := fun d =>
  .ok () { d with statements := d.statements ++ [s] }

/-- Take the statements so far away. -/
def drain : Build Draft (List Stmt) := fun d =>
  .ok d.statements { d with statements := [] }

/-- Record that a helper is called. -/
def require (h : Helper) : Build Draft Unit := fun d =>
  .ok () { d with generation := d.generation.require h }

/-- Record that a mock object is created. -/
def markMocks : Build Draft Unit := fun d =>
  .ok () { d with generation := d.generation.markMocks }

/-- Declare a variable that does not change, and refer to it. -/
def declare (base : String) (type : DataType) (initial : Expr) : Build Draft Expr := do
  let name ← freshVariable base
  push (.declare name type false (some initial))
  return .ref name

/-- The expression that makes an object without a constructor. -/
def allocation (language : Language) (owner : ClassName) : Expr :=
  match language with
  | .java | .kotlin =>
    .cast (.ofClass owner) (.callHelper .createInstance [.str owner.qualifiedName])
  | .python => .callStatic (.global "object") "__new__" [.classOf owner]
  | .javascript => .callStatic (.global "Object") "create" [.staticField owner "prototype"]
  | .go => .construct owner []

/-- Make an object without a constructor. -/
def allocate (language : Language) (base : String) (owner : ClassName) : Build Draft Expr := do
  if language.isJvm then require .createInstance
  declare base (.ofClass owner) (allocation language owner)

/-- A way to write a field of an object. -/
inductive FieldWriting
  | assignment
  /-- By the helper of the JVM. -/
  | helper
  /-- By the function that Python has for it. -/
  | setattr
  deriving DecidableEq, Repr

namespace FieldWriting

/-- How the fields of an object are written that was made without a constructor. -/
def withoutConstructor : Language → FieldWriting
  | .java | .kotlin => .helper
  | .python => .setattr
  | .javascript | .go => .assignment

/-- The statement that writes a field. -/
def statement (w : FieldWriting) (object : Expr) (name : String) (value : Expr) : Stmt :=
  match w with
  | .assignment => .assign (.field object name) value
  | .helper => .eval (.callHelper .setField [object, .str name, value])
  | .setattr => .eval (.callModule (.global "builtins") "setattr" [object, .str name, value])

/-- Record what writing a field calls. -/
def announce (w : FieldWriting) : Build Draft Unit :=
  match w with
  | .helper => require .setField
  | .assignment | .setattr => pure ()

end FieldWriting

mutual

/-- The expression of a value, after the statements that it needs. -/
def express (language : Language) (base : String) : Value → Build Draft Expr
  | .literal l => return .literal l
  | .enumConstant owner name => return .staticField owner name
  | .array element values => do
    let exprs ← expressEach language (fun _ => base ++ "Element") 0 values
    declare base (.array element) (.arrayOf element exprs)
  | .composite owner arguments fields =>
    if language = .go ∧ arguments ≠ [] then Build.refuse (.constructorArguments owner.name)
    else do
      let exprs ← expressEach language (fun i => base ++ "Arg" ++ toString i) 0 arguments
      let object ← declare base (.ofClass owner) (.construct owner exprs)
      writeFields language .assignment object fields
      return object
  | .reflective owner fields => do
    let object ← allocate language base owner
    writeFields language (.withoutConstructor language) object fields
    return object
  | .mock owner stubs =>
    if language.supportsMocking then do
      markMocks
      let object ← declare base (.ofClass owner) (.mock owner)
      addStubs language object stubs
      return object
    else Build.refuse (.mockUnsupported owner.name language)

/-- The expressions of some values, each with a name made from its index. -/
def expressEach (language : Language) (base : Nat → String) (index : Nat) :
    List Value → Build Draft (List Expr)
  | [] => return []
  | v :: rest => do
    let e ← express language (base index) v
    let es ← expressEach language base (index + 1) rest
    return e :: es

/-- Write the fields of an object. -/
def writeFields (language : Language) (way : FieldWriting) (object : Expr) :
    List Field → Build Draft Unit
  | [] => return ()
  | .mk name v :: rest => do
    way.announce
    let e ← express language name v
    push (way.statement object name e)
    writeFields language way object rest

/-- Stub the methods of a mock object. -/
def addStubs (language : Language) (object : Expr) : List Stub → Build Draft Unit
  | [] => return ()
  | .mk method arguments returns :: rest => do
    let es ← expressEach language (fun i => method ++ "Arg" ++ toString i) 0 arguments
    let e ← express language (method ++ "Result") returns
    push (.stub object (.mk method es e))
    addStubs language object rest

end

end Draft

end TestWriter
