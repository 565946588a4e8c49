import TestWriter.Build.Table

/-!
# Builds from steps

Every build of a method body is put together from a handful of steps on a draft.  Main statement: a
property that the steps have and that sequences keep is a property of all builds, so the recursion
over values, runs and tables is done once.
-/

namespace TestWriter

namespace Draft

/-- A property of builds that the steps have and that a sequence inherits from its parts. -/
structure Composable (P : {α : Type} → Build Draft α → Prop) : Prop where
  pure : ∀ {α : Type} (a : α), P (Pure.pure a)
  refuse : ∀ {α : Type} (cause : BuildFailure), P (Build.refuse cause : Build Draft α)
  bind : ∀ {α β : Type} {m : Build Draft α} {k : α → Build Draft β},
    P m → (∀ a, P (k a)) → P (m >>= k)
  freshVariable : ∀ base, P (Draft.freshVariable base)
  push : ∀ s, P (Draft.push s)
  drain : P Draft.drain
  require : ∀ h, P (Draft.require h)
  markMocks : P Draft.markMocks

namespace Composable

variable {P : {α : Type} → Build Draft α → Prop} (hP : Composable P)

include hP

theorem takeVariables (names : List String) : P (Draft.takeVariables names) := by
  induction names with
  | nil => exact hP.pure ()
  | cons base rest ih => exact hP.bind (hP.freshVariable base) fun _ => ih

theorem declare (base : String) (type : DataType) (initial : Expr) :
    P (Draft.declare base type initial) :=
  hP.bind (hP.freshVariable base) fun _ => hP.bind (hP.push _) fun _ => hP.pure _

theorem allocate (language : Language) (base : String) (owner : ClassName) :
    P (Draft.allocate language base owner) := by
  simp only [Draft.allocate]
  split
  · exact hP.bind (hP.require _) fun _ => hP.declare _ _ _
  · exact hP.declare _ _ _

theorem announce (way : FieldWriting) : P way.announce := by
  cases way with
  | assignment => exact hP.pure ()
  | helper => exact hP.require _
  | setattr => exact hP.pure ()

mutual

theorem express (language : Language) (base : String) :
    ∀ v : Value, P (Draft.express language base v)
  | .literal l => hP.pure _
  | .enumConstant owner name => hP.pure _
  | .array element values =>
      hP.bind (expressEach language _ 0 values) fun _ => hP.declare _ _ _
  | .composite owner arguments fields => by
      simp only [Draft.express]
      split
      · exact hP.refuse _
      · refine hP.bind (expressEach language _ 0 arguments) fun exprs => ?_
        refine hP.bind (hP.declare _ _ _) fun object => ?_
        exact hP.bind (writeFields language _ object fields) fun _ => hP.pure object
  | .reflective owner fields =>
      hP.bind (hP.allocate language base owner) fun object =>
        hP.bind (writeFields language _ object fields) fun _ => hP.pure object
  | .mock owner stubs => by
      simp only [Draft.express]
      split
      · refine hP.bind hP.markMocks fun _ => hP.bind (hP.declare _ _ _) fun object => ?_
        exact hP.bind (addStubs language object stubs) fun _ => hP.pure object
      · exact hP.refuse _

theorem expressEach (language : Language) (base : Nat → String) (index : Nat) :
    ∀ vs : List Value, P (Draft.expressEach language base index vs)
  | [] => hP.pure []
  | v :: rest =>
      hP.bind (express language (base index) v) fun _ =>
        hP.bind (expressEach language base (index + 1) rest) fun _ => hP.pure _

theorem writeFields (language : Language) (way : FieldWriting) (object : Expr) :
    ∀ fields : List Field, P (Draft.writeFields language way object fields)
  | [] => hP.pure ()
  | .mk name v :: rest => by
      simp only [Draft.writeFields]
      refine hP.bind (hP.announce way) fun _ => ?_
      refine hP.bind (express language name v) fun e => ?_
      exact hP.bind (hP.push _) fun _ => writeFields language way object rest

theorem addStubs (language : Language) (object : Expr) :
    ∀ stubs : List Stub, P (Draft.addStubs language object stubs)
  | [] => hP.pure ()
  | .mk method arguments returns :: rest => by
      simp only [Draft.addStubs]
      refine hP.bind (expressEach language _ 0 arguments) fun es => ?_
      refine hP.bind (express language (method ++ "Result") returns) fun e => ?_
      exact hP.bind (hP.push _) fun _ => addStubs language object rest

end

theorem checkCount (e : Executable) (run : Execution) : P (Draft.checkCount e run) := by
  simp only [Draft.checkCount]
  split
  · exact hP.pure ()
  · exact hP.refuse _

theorem targetOfRun (language : Language) (e : Executable) (run : Execution) :
    P (Draft.targetOfRun language e run) := by
  simp only [Draft.targetOfRun]
  cases e.kind with
  | method =>
      cases run.receiver with
      | some v => exact hP.express language _ v
      | none => exact hP.refuse _
  | constructor =>
      dsimp only
      split
      · exact hP.refuse _
      · exact hP.pure _
  | staticMethod => exact hP.pure _
  | function => exact hP.pure _

theorem callOfRun (language : Language) (e : Executable) (names : List String)
    (run : Execution) : P (Draft.callOfRun language e names run) :=
  hP.bind (hP.checkCount e run) fun _ =>
    hP.bind (hP.targetOfRun language e run) fun _ =>
      hP.bind (hP.expressEach language _ 0 run.arguments) fun _ => hP.pure _

theorem staticStubbings (language : Language) (stubs : List StaticStub) :
    P (Draft.staticStubbings language stubs) := by
  induction stubs with
  | nil => exact hP.pure []
  | cons s rest ih =>
      refine hP.bind (hP.express language _ s.returns) fun _ => ?_
      exact hP.bind ih fun _ => hP.pure _

theorem staticScopes (language : Language) (groups : List (ClassName × List StaticStub)) :
    P (Draft.staticScopes language groups) := by
  induction groups with
  | nil => exact hP.pure []
  | cons group rest ih =>
      refine hP.bind (hP.staticStubbings language group.2) fun _ => ?_
      exact hP.bind (hP.freshVariable _) fun _ => hP.bind ih fun _ => hP.pure _

theorem declareActual (e : Executable) (call : Expr) : P (Draft.declareActual e call) :=
  hP.bind (hP.declare _ _ _) fun _ => hP.bind (hP.push _) fun _ => hP.pure _

theorem assertEqual (language : Language) (v : Value) (actual : Expr) :
    P (Draft.assertEqual language v actual) := by
  refine hP.bind (hP.express language _ v) fun expected => ?_
  split
  · exact hP.bind (hP.require _) fun _ => hP.push _
  · exact hP.push _

theorem checkResult (language : Language) (e : Executable) (call : Expr) (check : ResultCheck) :
    P (Draft.checkResult language e call check) := by
  cases check with
  | ignored => exact hP.push _
  | isNull => exact hP.bind (hP.declareActual e call) fun _ => hP.push _
  | isNaN => exact hP.bind (hP.declareActual e call) fun _ => hP.push _
  | equals v => exact hP.bind (hP.declareActual e call) fun _ => hP.assertEqual language v _

theorem checkOutcome (config : Config) (e : Executable) (run : Execution) (call : Expr) :
    P (Draft.checkOutcome config e run call) := by
  simp only [Draft.checkOutcome]
  cases run.outcome with
  | success value => exact hP.checkResult _ e call _
  | runtimeFailure exception message kind =>
      dsimp only
      split
      · exact hP.push _
      · exact hP.bind (hP.push _) fun _ => hP.push _
  | timeout limit =>
      dsimp only
      split
      · exact hP.bind (hP.push _) fun _ => hP.push _
      · exact hP.bind (hP.pure _) fun _ => hP.push _
  | crash reason => exact hP.bind (hP.push _) fun _ => hP.push _

theorem markStatics (stubs : List (ClassName × List StaticStub)) :
    P (Draft.markStatics stubs) := by
  simp only [Draft.markStatics]
  split
  · exact hP.pure ()
  · exact hP.markMocks

/-- The body of the test of a run has every composable property. -/
theorem bodyOfRun (config : Config) (e : Executable) (run : Execution) :
    P (Draft.bodyOfRun config e run) := by
  refine hP.bind (hP.callOfRun _ e _ run) fun call => ?_
  refine hP.bind (hP.markStatics _) fun _ => ?_
  refine hP.bind (hP.staticScopes _ _) fun scopes => hP.bind hP.drain fun arrange => ?_
  refine hP.bind (hP.checkOutcome config e run call) fun _ => ?_
  exact hP.bind hP.drain fun act => hP.pure _

theorem cellExpr (language : Language) (e : Executable) (run : Execution) (c : Column) :
    P (Draft.cellExpr language e run c) := by
  simp only [Draft.cellExpr]
  cases run.cell c.role with
  | value v => exact hP.express language _ v
  | exception owner => exact hP.pure _
  | absent =>
      dsimp only
      split
      · exact hP.refuse _
      · exact hP.pure _

theorem cellExprs (language : Language) (e : Executable) (run : Execution)
    (columns : List Column) : P (Draft.cellExprs language e run columns) := by
  induction columns with
  | nil => exact hP.pure []
  | cons c rest ih =>
      exact hP.bind (hP.cellExpr language e run c) fun _ => hP.bind ih fun _ => hP.pure _

theorem tableRows (language : Language) (e : Executable) (columns : List Column)
    (rows : List Execution) : P (Draft.tableRows language e columns rows) := by
  induction rows with
  | nil => exact hP.pure []
  | cons run rest ih =>
      refine hP.bind (hP.checkCount e run) fun _ => ?_
      refine hP.bind (hP.cellExprs language e run columns) fun _ => ?_
      exact hP.bind ih fun _ => hP.pure _

/-- The body of a data provider has every composable property. -/
theorem providerBody (language : Language) (e : Executable) (columns : List Column)
    (rows : List Execution) : P (Draft.providerBody language e columns rows) :=
  hP.bind (hP.tableRows language e columns rows) fun _ =>
    hP.bind hP.drain fun _ => hP.pure _

theorem assertExpected (language : Language) (returnType : DataType) (expected actual : Expr) :
    P (Draft.assertExpected language returnType expected actual) := by
  simp only [Draft.assertExpected]
  split
  · exact hP.bind (hP.require _) fun _ => hP.push _
  · split <;> exact hP.push _

theorem checkRow (language : Language) (e : Executable) (columns : List Column) :
    P (Draft.checkRow language e columns) := by
  simp only [Draft.checkRow]
  split
  · exact hP.bind (hP.declareActual e _) fun actual => hP.assertExpected _ _ _ actual
  · exact hP.push _

/-- The body of a parameterized test has every composable property. -/
theorem tableBody (language : Language) (e : Executable) (columns : List Column) :
    P (Draft.tableBody language e columns) := by
  refine hP.bind (hP.takeVariables _) fun _ => ?_
  refine hP.bind (hP.checkRow language e columns) fun _ => ?_
  exact hP.bind hP.drain fun success => hP.pure _

end Composable

end Draft

end TestWriter
