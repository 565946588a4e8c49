import TestWriter.Build.Draft

/-!
# Calls of the code under test

How the receiver and the arguments of a run become a call, and which result of the call a test
looks at.
-/

namespace TestWriter

/-- The names of the arguments: those that are configured, otherwise the declared ones. -/
def argumentNames (config : Config) (e : Executable) : List String :=
  let configured := (config.parameterNames.get? e.name).getD []
  e.parameters.mapIdx fun i p => (configured[i]?).getD p.name

namespace Executable

/-- The name of the variable that holds the receiver. -/
def receiverName (e : Executable) : String := Text.decapitalize e.owner.name

/-- The call of the executable; only a method is called on the receiver. -/
def call (e : Executable) (receiver : Expr) (arguments : List Expr) : Expr :=
  match e.kind with
  | .method => .callOn receiver e.name arguments
  | .staticMethod => .callStatic e.owner e.name arguments
  | .function => .callModule e.owner e.name arguments
  | .constructor => .construct e.owner arguments

end Executable

/-- The result of a run that its test looks at: a value that was returned, unless the executable
has no result. -/
def Execution.result? (run : Execution) (e : Executable) : Option Value :=
  if e.returnType.isVoid then none
  else
    match run.outcome with
    | .success value => value
    | _ => none

namespace Draft

/-- Refuse a run with another number of arguments than the executable has parameters. -/
def checkCount (e : Executable) (run : Execution) : Build Draft Unit :=
  if run.arguments.length = e.parameters.length then pure ()
  else Build.refuse (.argumentCount e.displayName e.parameters.length run.arguments.length)

/-- What an executable is called on in a run; only a method has a receiver. -/
def targetOfRun (language : Language) (e : Executable) (run : Execution) : Build Draft Expr :=
  match e.kind with
  | .method =>
    match run.receiver with
    | some v => express language e.receiverName v
    | none => Build.refuse (.noReceiver e.displayName)
  | .constructor =>
    if language = .go then Build.refuse (.noConstructors e.owner.name) else pure .null
  | .staticMethod | .function => pure .null

/-- The call of a run, after the statements that make its receiver and its arguments. -/
def callOfRun (language : Language) (e : Executable) (names : List String) (run : Execution) :
    Build Draft Expr := do
  checkCount e run
  let target ← targetOfRun language e run
  let arguments ← expressEach language (fun i => names.getD i "") 0 run.arguments
  return e.call target arguments

end Draft

end TestWriter
