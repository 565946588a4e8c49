import TestWriter.Suite.File

/-!
# Mentions

What the code of a test names beyond its own variables: classes, functions of modules, helpers and
members of the frameworks.  Mentions stand in the order in which the code is read, and the target
language decides which of them ask for an import.
-/

namespace TestWriter

/-- Something that code names and that may have to be imported. -/
inductive Mention
  /-- A class. -/
  | ofClass (c : ClassName)
  /-- A class in a declared type, which some languages do not write. -/
  | typeClass (c : ClassName)
  /-- A function of a module. -/
  | function (module : ClassName) (name : String)
  | helper (h : Helper)
  /-- A member of the class of assertions. -/
  | assertion (member : String)
  /-- A member of the mock library. -/
  | mocking (member : String)
  /-- The type of the variable that holds mocked static methods. -/
  | staticMocks
  /-- A number that is infinite or a NaN. -/
  | nonFinite
  deriving DecidableEq, Repr

/-- The classes in a type. -/
def DataType.mentions : DataType → List Mention
  | .ofClass c => [.typeClass c]
  | .array element => element.mentions
  | .void | .primitive _ | .str | .any | .errorClass => []

/-- The classes in the types of parameters. -/
def parameterMentions (ps : List Parameter) : List Mention :=
  ps.flatMap fun p => p.type.mentions

mutual

/-- What an expression names. -/
def Expr.mentions : Expr → List Mention
  | .literal l => if l.isNonFinite then [.nonFinite] else []
  | .ref _ => []
  | .construct owner arguments => .ofClass owner :: Expr.mentionsOf arguments
  | .callOn receiver _ arguments => receiver.mentions ++ Expr.mentionsOf arguments
  | .callStatic owner _ arguments => .ofClass owner :: Expr.mentionsOf arguments
  | .callModule module name arguments => .function module name :: Expr.mentionsOf arguments
  | .callHelper h arguments => .helper h :: Expr.mentionsOf arguments
  | .field target _ => target.mentions
  | .staticField owner _ => [.ofClass owner]
  | .element array index => array.mentions ++ index.mentions
  | .allocate element _ => element.mentions
  | .arrayOf element values => element.mentions ++ Expr.mentionsOf values
  | .lambda ps body => parameterMentions ps ++ Stmt.mentionsOf body
  | .equal left right => left.mentions ++ right.mentions
  | .logical _ left right => left.mentions ++ right.mentions
  | .not operand => operand.mentions
  | .cast type operand => type.mentions ++ operand.mentions
  | .notNull operand => operand.mentions
  | .classOf owner => [.ofClass owner]
  | .length operand => operand.mentions
  | .mock owner => [.mocking "mock", .ofClass owner]

/-- What some expressions name. -/
def Expr.mentionsOf : List Expr → List Mention
  | [] => []
  | e :: rest => e.mentions ++ Expr.mentionsOf rest

/-- What a statement names. -/
def Stmt.mentions : Stmt → List Mention
  | .declare _ type _ none => type.mentions
  | .declare _ type _ (some e) => type.mentions ++ e.mentions
  | .assign target value => target.mentions ++ value.mentions
  | .eval e => e.mentions
  | .ret none => []
  | .ret (some e) => e.mentions
  | .branch condition thenBody elseBody =>
    condition.mentions ++ Stmt.mentionsOf thenBody ++ Stmt.mentionsOf elseBody
  | .switch value cases default =>
    value.mentions ++ SwitchCase.mentionsOf cases ++ Stmt.mentionsOf default
  | .throw value => value.mentions
  | .mockedStatic _ owner stubbings body =>
    [.staticMocks, .mocking "mockStatic", .ofClass owner] ++ Stubbing.mentionsOf stubbings ++
      Stmt.mentionsOf body
  | .stub mock stubbing => .mocking "when" :: (mock.mentions ++ stubbing.mentions)
  | .assertEquals expected actual _ _ =>
    .assertion "assertEquals" :: (expected.mentions ++ actual.mentions)
  | .assertTrue condition => .assertion "assertTrue" :: condition.mentions
  | .assertNull value => .assertion "assertNull" :: value.mentions
  | .assertThrows exception body =>
    .assertion "assertThrows" :: (exception.mentions ++ Stmt.mentionsOf body)
  | .fail _ => [.assertion "fail"]
  | .comment _ => []
  | .comments _ => []
  | .blank => []

/-- What some statements name. -/
def Stmt.mentionsOf : List Stmt → List Mention
  | [] => []
  | s :: rest => s.mentions ++ Stmt.mentionsOf rest

/-- What a stubbed call names. -/
def Stubbing.mentions : Stubbing → List Mention
  | .mk _ arguments returns => Expr.mentionsOf arguments ++ returns.mentions

/-- What some stubbed calls name. -/
def Stubbing.mentionsOf : List Stubbing → List Mention
  | [] => []
  | s :: rest => s.mentions ++ Stubbing.mentionsOf rest

/-- What the cases of a switch name; a label names nothing. -/
def SwitchCase.mentionsOf : List SwitchCase → List Mention
  | [] => []
  | .mk _ body :: rest => Stmt.mentionsOf body ++ SwitchCase.mentionsOf rest

end

/-- What an annotation names. -/
def AnnotationUse.mentions (a : AnnotationUse) : List Mention :=
  .ofClass a.owner :: a.arguments.flatMap fun argument => argument.2.mentions

/-- What a method names, its annotations apart.  The body of a helper uses qualified names only. -/
def Method.mentions (m : Method) : List Mention :=
  match m.kind with
  | .helper _ => []
  | _ => parameterMentions m.parameters ++ m.returnType.mentions ++ Stmt.mentionsOf m.body

end TestWriter
