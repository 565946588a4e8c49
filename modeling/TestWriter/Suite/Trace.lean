import TestWriter.Suite.File

/-!
# Traces

What a body does with variables, in the order in which it runs: it declares, binds and uses them,
and it enters and leaves scopes.  A trace is well scoped when each variable is used within the scope
in which it stands.
-/

namespace TestWriter

/-- What code does with variables. -/
inductive Event
  /-- A variable is declared. -/
  | declare (name : String)
  /-- A variable gets its value from outside: mocked static methods, or the parameter of a
  function. -/
  | bind (name : String)
  | use (name : String)
  | enter
  | leave
  deriving DecidableEq, Repr

mutual

/-- The trace of an expression. -/
def Expr.trace : Expr → List Event
  | .ref name => [.use name]
  | .literal _ | .staticField .. | .allocate .. | .classOf _ | .mock _ => []
  | .construct _ arguments | .callStatic _ _ arguments | .callModule _ _ arguments
  | .callHelper _ arguments => Expr.traceOf arguments
  | .callOn receiver _ arguments => receiver.trace ++ Expr.traceOf arguments
  | .field target _ => target.trace
  | .element array index => array.trace ++ index.trace
  | .arrayOf _ values => Expr.traceOf values
  | .lambda ps body =>
    .enter :: ps.map (fun p => .bind p.name) ++ Stmt.traceOf body ++ [.leave]
  | .equal left right | .logical _ left right => left.trace ++ right.trace
  | .not operand | .cast _ operand | .notNull operand | .length operand => operand.trace

/-- The trace of some expressions. -/
def Expr.traceOf : List Expr → List Event
  | [] => []
  | e :: rest => e.trace ++ Expr.traceOf rest

/-- The trace of a statement.  Of a branch and of a switch it has every part, one after the
other. -/
def Stmt.trace : Stmt → List Event
  | .declare name _ _ none => [.declare name]
  | .declare name _ _ (some e) => e.trace ++ [.declare name]
  | .assign target value => target.trace ++ value.trace
  | .eval e => e.trace
  | .ret none => []
  | .ret (some e) => e.trace
  | .branch condition thenBody elseBody =>
    condition.trace ++ .enter :: Stmt.traceOf thenBody ++ .leave :: .enter ::
      Stmt.traceOf elseBody ++ [.leave]
  | .switch value cases default =>
    value.trace ++ SwitchCase.traceOf cases ++ .enter :: Stmt.traceOf default ++ [.leave]
  | .throw value => value.trace
  | .mockedStatic handle _ stubbings body =>
    .enter :: .bind handle :: Stubbing.traceOf stubbings ++ Stmt.traceOf body ++ [.leave]
  | .stub mock stubbing => mock.trace ++ stubbing.trace
  | .assertEquals expected actual _ _ => expected.trace ++ actual.trace
  | .assertTrue condition => condition.trace
  | .assertNull value => value.trace
  | .assertThrows exception body =>
    exception.trace ++ .enter :: Stmt.traceOf body ++ [.leave]
  | .fail _ | .comment _ | .comments _ | .blank => []

/-- The trace of some statements. -/
def Stmt.traceOf : List Stmt → List Event
  | [] => []
  | s :: rest => s.trace ++ Stmt.traceOf rest

/-- The trace of a stubbed call. -/
def Stubbing.trace : Stubbing → List Event
  | .mk _ arguments returns => Expr.traceOf arguments ++ returns.trace

/-- The trace of some stubbed calls. -/
def Stubbing.traceOf : List Stubbing → List Event
  | [] => []
  | s :: rest => s.trace ++ Stubbing.traceOf rest

/-- The trace of the cases of a switch, each in a scope of its own. -/
def SwitchCase.traceOf : List SwitchCase → List Event
  | [] => []
  | .mk _ body :: rest => .enter :: Stmt.traceOf body ++ .leave :: SwitchCase.traceOf rest

end

/-- The variables in scope, by scopes from the innermost one outward. -/
abbrev Scopes := List (List String)

namespace Scopes

/-- A variable is in one of the scopes. -/
def Holds (scopes : Scopes) (name : String) : Prop := ∃ scope ∈ scopes, name ∈ scope

/-- Put a variable into the innermost scope. -/
def add (name : String) : Scopes → Scopes
  | [] => [[name]]
  | scope :: outer => (name :: scope) :: outer

end Scopes

namespace Event

/-- The scopes after an event. -/
def apply (scopes : Scopes) : Event → Scopes
  | .declare name | .bind name => scopes.add name
  | .use _ => scopes
  | .enter => [] :: scopes
  | .leave => scopes.tail

/-- An event is allowed unless it uses a variable that is in no scope. -/
def Allowed (scopes : Scopes) : Event → Prop
  | .use name => scopes.Holds name
  | _ => True

/-- The variable that an event introduces. -/
def bound? : Event → Option String
  | .declare name | .bind name => some name
  | _ => none

end Event

/-- Every event of a trace is allowed where it stands. -/
def Scoped (scopes : Scopes) : List Event → Prop
  | [] => True
  | event :: rest => event.Allowed scopes ∧ Scoped (event.apply scopes) rest

/-- The variables that a trace introduces, in order. -/
def boundIn (trace : List Event) : List String := trace.filterMap Event.bound?

/-- Every declared variable is used after its declaration. -/
def UsedLater (trace : List Event) : Prop :=
  ∀ before name after, trace = before ++ .declare name :: after → Event.use name ∈ after

/-- A trace within some parameters is well scoped: each variable is used in its scope, no two
variables share a name, nor do a variable and a parameter, and no declared variable is left
unused. -/
structure WellScoped (parameters : List String) (trace : List Event) : Prop where
  inScope : Scoped [parameters] trace
  distinct : (parameters ++ boundIn trace).Nodup
  used : UsedLater trace

/-- A method whose body is well scoped within its parameters. -/
def Method.WellScoped (m : Method) : Prop :=
  TestWriter.WellScoped (m.parameters.map Parameter.name) (Stmt.traceOf m.body)

end TestWriter
