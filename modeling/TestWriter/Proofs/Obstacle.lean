import TestWriter.Build.Table

/-!
# Obstacles

What keeps a value, a run or a table from being built: a mock where mocking is unknown, an object
made by a constructor with arguments for Go, and what is missing in a run.  Main statements: a build
is given up exactly when there is an obstacle, the reason is the first one in the order in which the
parts are built, and the state in which the build starts has no say in it.
-/

namespace TestWriter

namespace Build

variable {σ α β : Type}

/-- A build is given up from every state if there is an obstacle, and for that reason; without one
it succeeds from every state. -/
def Meets (m : Build σ α) (obstacle : Option BuildFailure) : Prop :=
  ∀ s, match obstacle with
    | none => ∃ a s', m s = .ok a s'
    | some cause => ∃ s', m s = .error (.build cause) s'

theorem Meets.pure (a : α) : (Pure.pure a : Build σ α).Meets none :=
  fun s => ⟨a, s, rfl⟩

theorem Meets.refuse (cause : BuildFailure) : (refuse cause : Build σ α).Meets (some cause) :=
  fun s => ⟨s, rfl⟩

theorem Meets.bind {m : Build σ α} {f : α → Build σ β} {o p : Option BuildFailure}
    (hm : m.Meets o) (hf : ∀ a, (f a).Meets p) : (m >>= f).Meets (o.or p) := by
  intro s
  cases o with
  | some cause =>
      obtain ⟨s', h⟩ := hm s
      exact ⟨s', bind_eq_error.mpr (Or.inl h)⟩
  | none =>
      obtain ⟨a, s', h⟩ := hm s
      have hfa := hf a s'
      cases p with
      | none =>
          obtain ⟨b, t, hb⟩ := hfa
          exact ⟨b, t, bind_eq_ok.mpr ⟨a, s', h, hb⟩⟩
      | some cause =>
          obtain ⟨t, ht⟩ := hfa
          exact ⟨t, bind_eq_error.mpr (Or.inr ⟨a, s', h, ht⟩)⟩

/-- What comes after the last part that can fail adds no obstacle. -/
theorem Meets.andThen {m : Build σ α} {f : α → Build σ β} {o : Option BuildFailure}
    (hm : m.Meets o) (hf : ∀ a, (f a).Meets none) : (m >>= f).Meets o := by
  simpa using hm.bind hf

/-- What comes before the first part that can fail adds no obstacle. -/
theorem Meets.after {m : Build σ α} {f : α → Build σ β} {o : Option BuildFailure}
    (hm : m.Meets none) (hf : ∀ a, (f a).Meets o) : (m >>= f).Meets o := by
  simpa using hm.bind hf

theorem Meets.isError_iff {m : Build σ α} {o : Option BuildFailure} (hm : m.Meets o) (s : σ) :
    (∃ e s', m s = .error e s') ↔ o.isSome = true := by
  have h := hm s
  cases o with
  | none =>
      obtain ⟨a, s', h⟩ := h
      simp [h]
  | some cause =>
      obtain ⟨s', h⟩ := h
      simp [h]

theorem Meets.eq_of_error {m : Build σ α} {o : Option BuildFailure} (hm : m.Meets o) {s s' : σ}
    {e : Error} (he : m s = .error e s') : ∃ cause, o = some cause ∧ e = .build cause := by
  have h := hm s
  cases o with
  | none =>
      obtain ⟨a, t, h⟩ := h
      rw [h] at he
      cases he
  | some cause =>
      obtain ⟨t, h⟩ := h
      rw [h] at he
      cases he
      exact ⟨cause, rfl, rfl⟩

theorem Meets.eq_none_of_ok {m : Build σ α} {o : Option BuildFailure} (hm : m.Meets o) {s s' : σ}
    {a : α} (ha : m s = .ok a s') : o = none := by
  have h := hm s
  cases o with
  | none => rfl
  | some cause =>
      obtain ⟨t, h⟩ := h
      rw [h] at ha
      cases ha

end Build

namespace Value

mutual

/-- The first obstacle to building a value, if there is one. -/
def obstacle (language : Language) : Value → Option BuildFailure
  | .literal _ | .enumConstant .. => none
  | .array _ values => obstacleIn language values
  | .composite owner arguments fields =>
    if language = .go ∧ arguments ≠ [] then some (.constructorArguments owner.name)
    else (obstacleIn language arguments).or (fieldObstacle language fields)
  | .reflective _ fields => fieldObstacle language fields
  | .mock owner stubs =>
    if language.supportsMocking then stubObstacle language stubs
    else some (.mockUnsupported owner.name language)

/-- The first obstacle to building some values. -/
def obstacleIn (language : Language) : List Value → Option BuildFailure
  | [] => none
  | v :: rest => (obstacle language v).or (obstacleIn language rest)

/-- The first obstacle to building the values of some fields. -/
def fieldObstacle (language : Language) : List Field → Option BuildFailure
  | [] => none
  | .mk _ v :: rest => (obstacle language v).or (fieldObstacle language rest)

/-- The first obstacle to building some stubs. -/
def stubObstacle (language : Language) : List Stub → Option BuildFailure
  | [] => none
  | .mk _ arguments returns :: rest =>
    ((obstacleIn language arguments).or (obstacle language returns)).or
      (stubObstacle language rest)

end

end Value

namespace Draft

open Build

theorem freshVariable_meets (base : String) : (freshVariable base).Meets none :=
  fun _ => ⟨_, _, rfl⟩

theorem push_meets (s : Stmt) : (push s).Meets none := fun _ => ⟨_, _, rfl⟩

theorem drain_meets : drain.Meets none := fun _ => ⟨_, _, rfl⟩

theorem require_meets (h : Helper) : (require h).Meets none := fun _ => ⟨_, _, rfl⟩

theorem markMocks_meets : markMocks.Meets none := fun _ => ⟨_, _, rfl⟩

theorem declare_meets (base : String) (type : DataType) (initial : Expr) :
    (declare base type initial).Meets none :=
  fun _ => ⟨_, _, rfl⟩

theorem allocate_meets (language : Language) (base : String) (owner : ClassName) :
    (allocate language base owner).Meets none := by
  cases language <;> exact fun _ => ⟨_, _, rfl⟩

theorem announce_meets (way : FieldWriting) : way.announce.Meets none := by
  cases way <;> exact fun _ => ⟨_, _, rfl⟩

theorem takeVariables_meets (names : List String) : (takeVariables names).Meets none := by
  induction names with
  | nil => exact Meets.pure ()
  | cons base rest ih => exact (freshVariable_meets base).after fun _ => ih

mutual

theorem express_meets (language : Language) (base : String) :
    ∀ v : Value, (express language base v).Meets (v.obstacle language)
  | .literal l => Meets.pure _
  | .enumConstant owner name => Meets.pure _
  | .array element values =>
      (expressEach_meets language _ 0 values).andThen fun _ => declare_meets _ _ _
  | .composite owner arguments fields => by
      simp only [express, Value.obstacle]
      split
      · exact Meets.refuse _
      · refine (expressEach_meets language _ 0 arguments).bind fun exprs => ?_
        refine (declare_meets _ _ _).after fun object => ?_
        exact (writeFields_meets language _ object fields).andThen fun _ => Meets.pure object
  | .reflective owner fields =>
      (allocate_meets language base owner).after fun object =>
        (writeFields_meets language _ object fields).andThen fun _ => Meets.pure object
  | .mock owner stubs => by
      simp only [express, Value.obstacle]
      split
      · refine markMocks_meets.after fun _ => ?_
        refine (declare_meets _ _ _).after fun object => ?_
        exact (addStubs_meets language object stubs).andThen fun _ => Meets.pure object
      · exact Meets.refuse _

theorem expressEach_meets (language : Language) (base : Nat → String) (index : Nat) :
    ∀ vs : List Value, (expressEach language base index vs).Meets (Value.obstacleIn language vs)
  | [] => Meets.pure []
  | v :: rest =>
      (express_meets language (base index) v).bind fun _ =>
        (expressEach_meets language base (index + 1) rest).andThen fun _ => Meets.pure _

theorem writeFields_meets (language : Language) (way : FieldWriting) (object : Expr) :
    ∀ fields : List Field,
      (writeFields language way object fields).Meets (Value.fieldObstacle language fields)
  | [] => Meets.pure ()
  | .mk name v :: rest => by
      simp only [writeFields, Value.fieldObstacle]
      refine (announce_meets way).after fun _ => ?_
      refine (express_meets language name v).bind fun e => ?_
      exact (push_meets _).after fun _ => writeFields_meets language way object rest

theorem addStubs_meets (language : Language) (object : Expr) :
    ∀ stubs : List Stub,
      (addStubs language object stubs).Meets (Value.stubObstacle language stubs)
  | [] => Meets.pure ()
  | .mk method arguments returns :: rest => by
      simp only [addStubs, Value.stubObstacle]
      rw [Option.or_assoc]
      refine (expressEach_meets language _ 0 arguments).bind fun es => ?_
      refine (express_meets language (method ++ "Result") returns).bind fun e => ?_
      exact (push_meets _).after fun _ => addStubs_meets language object rest

end

end Draft

namespace Execution

/-- The obstacle in the number of arguments. -/
def countObstacle (run : Execution) (e : Executable) : Option BuildFailure :=
  if run.arguments.length = e.parameters.length then none
  else some (.argumentCount e.displayName e.parameters.length run.arguments.length)

/-- The obstacle in what the executable is called on. -/
def targetObstacle (run : Execution) (language : Language) (e : Executable) :
    Option BuildFailure :=
  match e.kind with
  | .method =>
    match run.receiver with
    | some v => v.obstacle language
    | none => some (.noReceiver e.displayName)
  | .constructor => if language = .go then some (.noConstructors e.owner.name) else none
  | .staticMethod | .function => none

/-- The first obstacle to the call of a run. -/
def callObstacle (run : Execution) (language : Language) (e : Executable) : Option BuildFailure :=
  (run.countObstacle e).or
    ((run.targetObstacle language e).or (Value.obstacleIn language run.arguments))

/-- The obstacle in the configuration. -/
def configObstacle (run : Execution) (config : Config) : Option BuildFailure :=
  match config.staticMocking, config.staticMockingFallback, run.staticStubs with
  | .off, .noTest, s :: _ => some (.staticMockingOff s.owner)
  | _, _, _ => none

/-- The first obstacle in the results of stubbed static methods. -/
def stubObstacle (run : Execution) (config : Config) : Option BuildFailure :=
  Value.obstacleIn config.language
    ((run.writtenStubs config).flatMap fun (_, stubs) => stubs.map StaticStub.returns)

/-- The obstacle in the result of a run. -/
def resultObstacle (run : Execution) (language : Language) (e : Executable) :
    Option BuildFailure :=
  (run.result? e).bind fun v => v.obstacle language

/-- The first obstacle to the test of a run. -/
def obstacle (run : Execution) (config : Config) (e : Executable) : Option BuildFailure :=
  (run.configObstacle config).or ((run.callObstacle config.language e).or
    ((run.stubObstacle config).or (run.resultObstacle config.language e)))

/-- Whether building the test of a run is given up. -/
def fails (run : Execution) (config : Config) (e : Executable) : Bool :=
  (run.obstacle config e).isSome

/-- The obstacle in a cell of the row of a run. -/
def cellObstacle (run : Execution) (language : Language) (e : Executable) (c : Column) :
    Option BuildFailure :=
  match run.cell c.role with
  | .value v => v.obstacle language
  | .exception _ => none
  | .absent => if c.role = .receiver then some (.noReceiver e.displayName) else none

/-- The first obstacle to the row of a run. -/
def rowObstacle (run : Execution) (language : Language) (e : Executable) (columns : List Column) :
    Option BuildFailure :=
  (run.countObstacle e).or (columns.findSome? (run.cellObstacle language e))

end Execution

/-- The first obstacle to the table of a set. -/
def TestSet.tableObstacle (set : TestSet) (config : Config) : Option BuildFailure :=
  let e := set.executable
  if !config.language.supportsParameterized config.framework then
    some (.parameterizedUnsupported config.framework config.language)
  else if set.rows.isEmpty then some (.nothingToParameterize e.displayName)
  else if set.rows.any fun run => !run.staticStubs.isEmpty then some .staticMockingParameterized
  else
    set.rows.findSome? fun run =>
      run.rowObstacle config.language e (Column.ofRuns config e set.rows)

namespace Value

theorem obstacleIn_append (language : Language) (vs ws : List Value) :
    obstacleIn language (vs ++ ws) = (obstacleIn language vs).or (obstacleIn language ws) := by
  induction vs with
  | nil => simp [obstacleIn]
  | cons v rest ih => simp [obstacleIn, ih, Option.or_assoc]

theorem obstacle_of_isNull {language : Language} {v : Value} (h : v.isNull = true) :
    v.obstacle language = none := by
  cases v <;> simp_all [isNull, obstacle]

theorem obstacle_of_isNaN {language : Language} {v : Value} (h : v.isNaN = true) :
    v.obstacle language = none := by
  cases v <;> simp_all [isNaN, obstacle]

end Value

namespace Draft

open Build

theorem checkCount_meets (e : Executable) (run : Execution) :
    (checkCount e run).Meets (run.countObstacle e) := by
  simp only [checkCount, Execution.countObstacle]
  split
  · exact Meets.pure ()
  · exact Meets.refuse _

theorem targetOfRun_meets (language : Language) (e : Executable) (run : Execution) :
    (targetOfRun language e run).Meets (run.targetObstacle language e) := by
  simp only [targetOfRun, Execution.targetObstacle]
  cases e.kind with
  | method =>
      cases run.receiver with
      | some v => exact express_meets language _ v
      | none => exact Meets.refuse _
  | constructor =>
      dsimp only
      split
      · exact Meets.refuse _
      · exact Meets.pure _
  | staticMethod => exact Meets.pure _
  | function => exact Meets.pure _

theorem callOfRun_meets (language : Language) (e : Executable) (names : List String)
    (run : Execution) :
    (callOfRun language e names run).Meets (run.callObstacle language e) :=
  (checkCount_meets e run).bind fun _ =>
    (targetOfRun_meets language e run).bind fun _ =>
      (expressEach_meets language _ 0 run.arguments).andThen fun _ => Meets.pure _

theorem staticStubbings_meets (language : Language) (stubs : List StaticStub) :
    (staticStubbings language stubs).Meets
      (Value.obstacleIn language (stubs.map StaticStub.returns)) := by
  induction stubs with
  | nil => exact Meets.pure []
  | cons s rest ih =>
      exact (express_meets language _ s.returns).bind fun _ => ih.andThen fun _ => Meets.pure _

theorem staticScopes_meets (language : Language) (groups : List (ClassName × List StaticStub)) :
    (staticScopes language groups).Meets
      (Value.obstacleIn language
        (groups.flatMap fun (_, stubs) => stubs.map StaticStub.returns)) := by
  induction groups with
  | nil => exact Meets.pure []
  | cons group rest ih =>
      rw [List.flatMap_cons, Value.obstacleIn_append]
      refine (staticStubbings_meets language group.2).bind fun _ => ?_
      exact (freshVariable_meets _).after fun _ => ih.andThen fun _ => Meets.pure _

theorem declareActual_meets (e : Executable) (call : Expr) :
    (declareActual e call).Meets none :=
  fun _ => ⟨_, _, rfl⟩

theorem assertEqual_meets (language : Language) (v : Value) (actual : Expr) :
    (assertEqual language v actual).Meets (v.obstacle language) := by
  refine (express_meets language _ v).andThen fun expected => ?_
  split
  · exact (require_meets _).after fun _ => push_meets _
  · exact push_meets _

theorem checkResult_meets (language : Language) (e : Executable) (call : Expr)
    (result : Option Value) :
    (checkResult language e call (.ofResult language result)).Meets
      (result.bind fun v => v.obstacle language) := by
  cases result with
  | none => exact push_meets _
  | some v =>
      rw [Option.bind_some]
      simp only [ResultCheck.ofResult]
      split
      · next hnull =>
        rw [Value.obstacle_of_isNull hnull]
        exact (declareActual_meets e call).after fun _ => push_meets _
      · split
        · next hnan =>
          rw [Value.obstacle_of_isNaN (by simp_all)]
          exact (declareActual_meets e call).after fun _ => push_meets _
        · exact (declareActual_meets e call).after fun _ => assertEqual_meets language v _

theorem checkOutcome_meets (config : Config) (e : Executable) (run : Execution) (call : Expr) :
    (checkOutcome config e run call).Meets (run.resultObstacle config.language e) := by
  simp only [checkOutcome, Execution.resultObstacle]
  cases h : run.outcome with
  | success value => exact checkResult_meets config.language e call (run.result? e)
  | runtimeFailure exception message kind =>
      have hr : run.result? e = none := by simp [Execution.result?, h]
      rw [hr]
      dsimp only
      split
      · exact push_meets _
      · exact (push_meets _).after fun _ => push_meets _
  | timeout limit =>
      have hr : run.result? e = none := by simp [Execution.result?, h]
      rw [hr]
      dsimp only
      split
      · exact (push_meets _).after fun _ => push_meets _
      · exact push_meets _
  | crash reason =>
      have hr : run.result? e = none := by simp [Execution.result?, h]
      rw [hr]
      exact (push_meets _).after fun _ => push_meets _

theorem markStatics_meets (stubs : List (ClassName × List StaticStub)) :
    (markStatics stubs).Meets none := by
  simp only [markStatics]
  split
  · exact Meets.pure ()
  · exact markMocks_meets

theorem bodyOfRun_meets (config : Config) (e : Executable) (run : Execution) :
    (bodyOfRun config e run).Meets
      ((run.callObstacle config.language e).or
        ((run.stubObstacle config).or (run.resultObstacle config.language e))) := by
  refine (callOfRun_meets _ e _ run).bind fun call => ?_
  refine (markStatics_meets _).after fun _ => ?_
  refine (staticScopes_meets _ _).bind fun scopes => ?_
  refine drain_meets.after fun arrange => ?_
  refine (checkOutcome_meets config e run call).andThen fun _ => ?_
  exact drain_meets.andThen fun _ => Meets.pure _

theorem cellExpr_meets (language : Language) (e : Executable) (run : Execution) (c : Column) :
    (cellExpr language e run c).Meets (run.cellObstacle language e c) := by
  simp only [cellExpr, Execution.cellObstacle]
  cases run.cell c.role with
  | value v => exact express_meets language _ v
  | exception owner => exact Meets.pure _
  | absent =>
      dsimp only
      split
      · exact Meets.refuse _
      · exact Meets.pure _

theorem cellExprs_meets (language : Language) (e : Executable) (run : Execution)
    (columns : List Column) :
    (cellExprs language e run columns).Meets
      (columns.findSome? (run.cellObstacle language e)) := by
  induction columns with
  | nil => exact Meets.pure []
  | cons c rest ih =>
      rw [List.findSome?_cons]
      have h := (cellExpr_meets language e run c).bind fun x =>
        ih.andThen fun xs => Meets.pure (x :: xs)
      cases hc : run.cellObstacle language e c with
      | none =>
          rw [hc, Option.none_or] at h
          exact h
      | some cause =>
          rw [hc, Option.some_or] at h
          exact h

theorem tableRows_meets (language : Language) (e : Executable) (columns : List Column)
    (rows : List Execution) :
    (tableRows language e columns rows).Meets
      (rows.findSome? fun run => run.rowObstacle language e columns) := by
  induction rows with
  | nil => exact Meets.pure []
  | cons run rest ih =>
      rw [List.findSome?_cons]
      have h := (checkCount_meets e run).bind fun _ =>
        (cellExprs_meets language e run columns).bind fun xs =>
          ih.andThen fun rows => Meets.pure (.arrayOf .any xs :: rows)
      rw [← Option.or_assoc] at h
      change (tableRows language e columns (run :: rest)).Meets
        ((run.rowObstacle language e columns).or _) at h
      cases hr : run.rowObstacle language e columns with
      | none =>
          rw [hr, Option.none_or] at h
          exact h
      | some cause =>
          rw [hr, Option.some_or] at h
          exact h

theorem assertExpected_meets (language : Language) (returnType : DataType)
    (expected actual : Expr) :
    (assertExpected language returnType expected actual).Meets none := by
  simp only [assertExpected]
  split
  · exact (require_meets _).after fun _ => push_meets _
  · split <;> exact push_meets _

theorem checkRow_meets (language : Language) (e : Executable) (columns : List Column) :
    (checkRow language e columns).Meets none := by
  simp only [checkRow]
  split
  · exact (declareActual_meets e _).after fun actual => assertExpected_meets _ _ _ actual
  · exact push_meets _

theorem tableBody_meets (language : Language) (e : Executable) (columns : List Column) :
    (tableBody language e columns).Meets none := by
  refine (takeVariables_meets _).after fun _ => ?_
  exact (checkRow_meets language e columns).after fun _ => drain_meets.after fun _ => Meets.pure _

theorem writing_meets {α : Type} {m : Build Draft α} {o : Option BuildFailure} (hm : m.Meets o) :
    (writing m).Meets o := by
  intro g
  have h := hm (start g)
  simp only [writing]
  cases o with
  | none =>
      obtain ⟨a, d, h⟩ := h
      exact ⟨a, d.generation, by rw [h]⟩
  | some cause =>
      obtain ⟨d, h⟩ := h
      exact ⟨d.generation, by rw [h]⟩

end Draft

theorem Generation.takeName_meets (take : MethodNames → String × MethodNames) :
    (takeName take).Meets none :=
  fun _ => ⟨_, _, rfl⟩

namespace Execution

open Build

theorem checkStaticMocking_meets (run : Execution) (config : Config) :
    (run.checkStaticMocking config).Meets (run.configObstacle config) := by
  simp only [checkStaticMocking, configObstacle]
  cases config.staticMocking with
  | mockito => exact Meets.pure ()
  | off =>
      cases config.staticMockingFallback with
      | disabledTest => exact Meets.pure ()
      | noTest =>
          cases run.staticStubs with
          | nil => exact Meets.pure ()
          | cons s rest => exact Meets.refuse _

theorem toTestUnder_meets (run : Execution) (config : Config) (e : Executable) :
    (run.toTestUnder config e).Meets (run.obstacle config e) :=
  (checkStaticMocking_meets run config).bind fun _ =>
    (Draft.writing_meets (Draft.bodyOfRun_meets config e run)).andThen fun _ =>
      (Generation.takeName_meets _).andThen fun _ => Meets.pure _

/-- The test of a run is given up exactly when the run has an obstacle; nothing that the generation
has gathered so far matters. -/
theorem toTest_isError_iff (run : Execution) (e : Executable) (g : Generation) :
    (∃ err h, run.toTest e g = .error err h) ↔ run.fails g.config e = true :=
  (toTestUnder_meets run g.config e).isError_iff g

end Execution

namespace TestSet

open Build

theorem checkTable_meets (set : TestSet) (config : Config) {m : Build Generation ParameterizedTest}
    (hm : m.Meets (set.rows.findSome? fun run => run.rowObstacle config.language set.executable
      (Column.ofRuns config set.executable set.rows))) :
    (set.checkTable config >>= fun _ => m).Meets (set.tableObstacle config) := by
  unfold checkTable tableObstacle
  dsimp only
  split
  · exact (Meets.refuse _).bind fun _ => hm
  · split
    · exact (Meets.refuse _).bind fun _ => hm
    · split
      · exact (Meets.refuse _).bind fun _ => hm
      · exact (Meets.pure ()).after fun _ => hm

theorem toTableUnder_meets (set : TestSet) (config : Config) :
    (set.toTableUnder config).Meets (set.tableObstacle config) := by
  refine checkTable_meets set config ?_
  refine (Generation.takeName_meets _).after fun providerName => ?_
  refine (Draft.writing_meets (Draft.tableRows_meets _ _ _ _ |>.andThen fun _ =>
    Draft.drain_meets.andThen fun _ => Meets.pure _)).andThen fun providerBody => ?_
  refine (Draft.writing_meets (Draft.tableBody_meets _ _ _)).andThen fun testBody => ?_
  exact (Generation.takeName_meets _).andThen fun _ => Meets.pure _

end TestSet

end TestWriter
