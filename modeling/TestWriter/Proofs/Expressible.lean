import TestWriter.Proofs.Obstacle

/-!
# Expressible values

A value can be rebuilt unless it contains a mock where there are none, or Go would have to make one
of its parts by a constructor with arguments.  Main statements: a value has no obstacle exactly when
it is expressible, and the test of a run is given up exactly when static mocking is needed and not
to be had, the call does not fit the executable, or a value that the test writes is not expressible.
-/

namespace TestWriter

namespace Value

/-- A value occurs in itself, and in every value that has a part in which it occurs. -/
inductive Occurs (part : Value) : Value → Prop
  | self : Occurs part part
  | element {type : DataType} {values : List Value} {v : Value} (hv : v ∈ values)
      (h : Occurs part v) : Occurs part (.array type values)
  | argument {owner : ClassName} {arguments : List Value} {fields : List Field} {v : Value}
      (hv : v ∈ arguments) (h : Occurs part v) : Occurs part (.composite owner arguments fields)
  | field {owner : ClassName} {arguments : List Value} {fields : List Field} {name : String}
      {v : Value} (hv : .mk name v ∈ fields) (h : Occurs part v) :
      Occurs part (.composite owner arguments fields)
  | reflectiveField {owner : ClassName} {fields : List Field} {name : String} {v : Value}
      (hv : .mk name v ∈ fields) (h : Occurs part v) : Occurs part (.reflective owner fields)
  | stubArgument {owner : ClassName} {stubs : List Stub} {method : String}
      {arguments : List Value} {returns v : Value} (hs : .mk method arguments returns ∈ stubs)
      (hv : v ∈ arguments) (h : Occurs part v) : Occurs part (.mock owner stubs)
  | stubResult {owner : ClassName} {stubs : List Stub} {method : String}
      {arguments : List Value} {returns : Value} (hs : .mk method arguments returns ∈ stubs)
      (h : Occurs part returns) : Occurs part (.mock owner stubs)

/-- An object that is made by a constructor with arguments occurs in the value. -/
def HasConstructorArguments (v : Value) : Prop :=
  ∃ owner arguments fields, arguments ≠ [] ∧ Occurs (.composite owner arguments fields) v

/-- A language can rebuild the value: outside the JVM it contains no mock, and for Go no object in
it is made by a constructor with arguments. -/
def IsExpressible (language : Language) (v : Value) : Prop :=
  ¬((language.isJvm = false ∧ v.containsMock = true) ∨
    (language = .go ∧ v.HasConstructorArguments))

section Parts

variable {language : Language}

theorem anyContainsMock_iff {vs : List Value} :
    anyContainsMock vs = true ↔ ∃ v ∈ vs, v.containsMock = true := by
  induction vs with
  | nil => simp [anyContainsMock]
  | cons v rest ih => simp [anyContainsMock, ih]

theorem fieldsContainMock_iff {fields : List Field} :
    fieldsContainMock fields = true ↔ ∃ name v, .mk name v ∈ fields ∧ v.containsMock = true := by
  induction fields with
  | nil => simp [fieldsContainMock]
  | cons f rest ih =>
      obtain ⟨name, v⟩ := f
      simp only [fieldsContainMock, Bool.or_eq_true, ih, List.mem_cons, Field.mk.injEq]
      constructor
      · rintro (h | ⟨n, w, hw, h⟩)
        · exact ⟨name, v, Or.inl ⟨rfl, rfl⟩, h⟩
        · exact ⟨n, w, Or.inr hw, h⟩
      · rintro ⟨n, w, ⟨-, rfl⟩ | hw, h⟩
        · exact Or.inl h
        · exact Or.inr ⟨n, w, hw, h⟩

theorem hasConstructorArguments_array {type : DataType} {values : List Value} :
    (array type values).HasConstructorArguments ↔
      ∃ v ∈ values, v.HasConstructorArguments := by
  constructor
  · rintro ⟨owner, arguments, fields, hne, _ | ⟨hv, h⟩⟩
    exact ⟨_, hv, owner, arguments, fields, hne, h⟩
  · rintro ⟨v, hv, owner, arguments, fields, hne, h⟩
    exact ⟨owner, arguments, fields, hne, .element hv h⟩

theorem hasConstructorArguments_composite {owner : ClassName} {arguments : List Value}
    {fields : List Field} :
    (composite owner arguments fields).HasConstructorArguments ↔
      arguments ≠ [] ∨ (∃ v ∈ arguments, v.HasConstructorArguments) ∨
        ∃ name v, .mk name v ∈ fields ∧ v.HasConstructorArguments := by
  constructor
  · rintro ⟨o, as, fs, hne, h⟩
    cases h with
    | self => exact Or.inl hne
    | argument hv h => exact Or.inr (Or.inl ⟨_, hv, o, as, fs, hne, h⟩)
    | field hv h => exact Or.inr (Or.inr ⟨_, _, hv, o, as, fs, hne, h⟩)
  · rintro (hne | ⟨v, hv, o, as, fs, hne, h⟩ | ⟨name, v, hv, o, as, fs, hne, h⟩)
    · exact ⟨owner, arguments, fields, hne, .self⟩
    · exact ⟨o, as, fs, hne, .argument hv h⟩
    · exact ⟨o, as, fs, hne, .field hv h⟩

theorem hasConstructorArguments_reflective {owner : ClassName} {fields : List Field} :
    (reflective owner fields).HasConstructorArguments ↔
      ∃ name v, .mk name v ∈ fields ∧ v.HasConstructorArguments := by
  constructor
  · rintro ⟨o, as, fs, hne, _ | _ | _ | _ | ⟨hv, h⟩⟩
    exact ⟨_, _, hv, o, as, fs, hne, h⟩
  · rintro ⟨name, v, hv, o, as, fs, hne, h⟩
    exact ⟨o, as, fs, hne, .reflectiveField hv h⟩

theorem isExpressible_literal (l : Literal) : (literal l).IsExpressible language := by
  rintro (⟨-, hmock⟩ | ⟨-, owner, arguments, fields, -, h⟩)
  · cases hmock
  · cases h

theorem isExpressible_enumConstant (owner : ClassName) (name : String) :
    (enumConstant owner name).IsExpressible language := by
  rintro (⟨-, hmock⟩ | ⟨-, owner, arguments, fields, -, h⟩)
  · cases hmock
  · cases h

theorem isExpressible_array {type : DataType} {values : List Value} :
    (array type values).IsExpressible language ↔ ∀ v ∈ values, v.IsExpressible language := by
  simp only [IsExpressible, containsMock, anyContainsMock_iff, hasConstructorArguments_array]
  grind

theorem isExpressible_composite {owner : ClassName} {arguments : List Value}
    {fields : List Field} :
    (composite owner arguments fields).IsExpressible language ↔
      ¬(language = .go ∧ arguments ≠ []) ∧ (∀ v ∈ arguments, v.IsExpressible language) ∧
        ∀ name v, .mk name v ∈ fields → v.IsExpressible language := by
  simp only [IsExpressible, containsMock, Bool.or_eq_true, anyContainsMock_iff,
    fieldsContainMock_iff, hasConstructorArguments_composite]
  grind

theorem isExpressible_reflective {owner : ClassName} {fields : List Field} :
    (reflective owner fields).IsExpressible language ↔
      ∀ name v, .mk name v ∈ fields → v.IsExpressible language := by
  simp only [IsExpressible, containsMock, fieldsContainMock_iff,
    hasConstructorArguments_reflective]
  grind

/-- The JVM has mocks and constructors, so it rebuilds every value. -/
theorem isExpressible_of_isJvm (hjvm : language.isJvm = true) (v : Value) :
    v.IsExpressible language := by
  rintro (⟨hnot, -⟩ | ⟨rfl, -⟩)
  · rw [hjvm] at hnot
    cases hnot
  · cases hjvm

theorem isExpressible_mock {owner : ClassName} {stubs : List Stub} :
    (mock owner stubs).IsExpressible language ↔ language.isJvm = true := by
  refine ⟨fun h => ?_, fun h => isExpressible_of_isJvm h _⟩
  cases hjvm : language.isJvm with
  | true => rfl
  | false => exact absurd (Or.inl ⟨hjvm, rfl⟩) h

end Parts

mutual

/-- A value has no obstacle exactly when it is expressible. -/
theorem obstacle_eq_none_iff (language : Language) :
    ∀ v : Value, v.obstacle language = none ↔ v.IsExpressible language
  | .literal l => iff_of_true rfl (isExpressible_literal l)
  | .enumConstant owner name => iff_of_true rfl (isExpressible_enumConstant owner name)
  | .array _ values => by
      rw [obstacle, isExpressible_array]
      exact obstacleIn_eq_none_iff language values
  | .composite owner arguments fields => by
      rw [obstacle, isExpressible_composite, ← obstacleIn_eq_none_iff language arguments,
        ← fieldObstacle_eq_none_iff language fields, ← Option.or_eq_none_iff]
      split
      · next hgo => simp [hgo]
      · next hgo => simp [hgo]
  | .reflective _ fields => by
      rw [obstacle, isExpressible_reflective]
      exact fieldObstacle_eq_none_iff language fields
  | .mock owner stubs => by
      rw [obstacle, isExpressible_mock]
      split
      · next hjvm =>
        have hstubs := stubObstacle_eq_none_iff language stubs
        refine iff_of_true (hstubs.mpr fun method arguments returns _ => ?_) hjvm
        exact ⟨fun v _ => isExpressible_of_isJvm hjvm v, isExpressible_of_isJvm hjvm returns⟩
      · next hjvm => exact iff_of_false (Option.some_ne_none _) hjvm

/-- Some values have no obstacle exactly when they are all expressible. -/
theorem obstacleIn_eq_none_iff (language : Language) :
    ∀ vs : List Value, obstacleIn language vs = none ↔ ∀ v ∈ vs, v.IsExpressible language
  | [] => iff_of_true rfl (List.forall_mem_nil _)
  | v :: rest => by
      rw [obstacleIn, Option.or_eq_none_iff, obstacle_eq_none_iff language v,
        obstacleIn_eq_none_iff language rest, List.forall_mem_cons]

/-- Some fields have no obstacle exactly when their values are all expressible. -/
theorem fieldObstacle_eq_none_iff (language : Language) :
    ∀ fields : List Field, fieldObstacle language fields = none ↔
      ∀ name v, .mk name v ∈ fields → v.IsExpressible language
  | [] => iff_of_true rfl fun _ _ h => absurd h List.not_mem_nil
  | .mk name v :: rest => by
      rw [fieldObstacle, Option.or_eq_none_iff, obstacle_eq_none_iff language v,
        fieldObstacle_eq_none_iff language rest]
      simp only [List.mem_cons, Field.mk.injEq]
      constructor
      · rintro ⟨hv, hrest⟩ n w (⟨-, rfl⟩ | hw)
        · exact hv
        · exact hrest n w hw
      · exact fun h => ⟨h name v (Or.inl ⟨rfl, rfl⟩), fun n w hw => h n w (Or.inr hw)⟩

/-- Some stubs have no obstacle exactly when their arguments and results are all expressible. -/
theorem stubObstacle_eq_none_iff (language : Language) :
    ∀ stubs : List Stub, stubObstacle language stubs = none ↔
      ∀ method arguments returns, .mk method arguments returns ∈ stubs →
        (∀ v ∈ arguments, v.IsExpressible language) ∧ returns.IsExpressible language
  | [] => iff_of_true rfl fun _ _ _ h => absurd h List.not_mem_nil
  | .mk method arguments returns :: rest => by
      rw [stubObstacle, Option.or_eq_none_iff, Option.or_eq_none_iff,
        obstacleIn_eq_none_iff language arguments, obstacle_eq_none_iff language returns,
        stubObstacle_eq_none_iff language rest]
      simp only [List.mem_cons, Stub.mk.injEq]
      constructor
      · rintro ⟨hstub, hrest⟩ m as r (⟨-, rfl, rfl⟩ | hs)
        · exact hstub
        · exact hrest m as r hs
      · exact fun h =>
          ⟨h method arguments returns (Or.inl ⟨rfl, rfl, rfl⟩),
            fun m as r hs => h m as r (Or.inr hs)⟩

end

theorem obstacle_isSome_iff {language : Language} {v : Value} :
    (v.obstacle language).isSome = true ↔ ¬v.IsExpressible language := by
  rw [Option.isSome_iff_ne_none, ne_eq, obstacle_eq_none_iff]

theorem obstacleIn_isSome_iff {language : Language} {vs : List Value} :
    (obstacleIn language vs).isSome = true ↔ ∃ v, v ∈ vs ∧ ¬v.IsExpressible language := by
  rw [Option.isSome_iff_ne_none, ne_eq, obstacleIn_eq_none_iff]
  simp only [Classical.not_forall, exists_prop]

end Value

namespace Execution

/-- The values that the test of a run writes: what a method is called on, the arguments, the results
of stubbed static methods if they can be mocked, and a returned value, unless the result is not
looked at or is checked without a copy of it. -/
def Reproduces (run : Execution) (config : Config) (e : Executable) (v : Value) : Prop :=
  (e.kind = .method ∧ run.receiver = some v) ∨ v ∈ run.arguments ∨
    (config.staticMocking = .mockito ∧ ∃ s ∈ run.staticStubs, s.returns = v) ∨
      (run.outcome = .success (some v) ∧ e.returnType.isVoid = false ∧ v.isNull = false ∧
        ¬(v.isNaN = true ∧ config.language.isJvm = false))

/-- The entries after one more stub are those before with the stub added to one of them. -/
theorem mem_flatMap_alterEntries {stub s : StaticStub}
    {groups : List (ClassName × List StaticStub)} :
    s ∈ (OrderedMap.alterEntries stub.owner (fun old => old.getD [] ++ [stub]) groups).flatMap
        Prod.snd ↔ s ∈ groups.flatMap Prod.snd ∨ s = stub := by
  induction groups with
  | nil => simp [OrderedMap.alterEntries]
  | cons group rest ih =>
      rw [OrderedMap.alterEntries]
      split
      · simp only [Option.getD_some, List.flatMap_cons, List.mem_append, List.mem_singleton]
        exact or_right_comm
      · simp only [List.flatMap_cons, List.mem_append, ih, or_assoc]

/-- The stubs by class are the stubs of the run. -/
theorem mem_stubsByClass_iff (run : Execution) {s : StaticStub} :
    s ∈ run.stubsByClass.entries.flatMap Prod.snd ↔ s ∈ run.staticStubs := by
  suffices h : ∀ (stubs : List StaticStub) (groups : OrderedMap ClassName (List StaticStub)),
      s ∈ (stubs.foldl (fun groups s => groups.alter s.owner fun old => old.getD [] ++ [s])
        groups).entries.flatMap Prod.snd ↔ s ∈ groups.entries.flatMap Prod.snd ∨ s ∈ stubs by
    have hrun := h run.staticStubs .empty
    rwa [OrderedMap.empty, List.flatMap_nil, List.mem_nil_iff, false_or] at hrun
  intro stubs
  induction stubs with
  | nil => simp
  | cons stub rest ih =>
      intro groups
      rw [List.foldl_cons, ih, OrderedMap.alter, mem_flatMap_alterEntries, List.mem_cons, or_assoc]

variable (run : Execution) (config : Config) (e : Executable)

theorem configObstacle_isSome_iff :
    (run.configObstacle config).isSome = true ↔
      run.staticStubs ≠ [] ∧ config.staticMocking = .off ∧
        config.staticMockingFallback = .noTest := by
  simp only [configObstacle]
  cases config.staticMocking <;> cases config.staticMockingFallback <;>
    cases run.staticStubs <;> simp

theorem countObstacle_isSome_iff :
    (run.countObstacle e).isSome = true ↔ run.arguments.length ≠ e.parameters.length := by
  simp only [countObstacle]
  split <;> simp_all

theorem targetObstacle_isSome_iff (language : Language) :
    (run.targetObstacle language e).isSome = true ↔
      (e.kind = .method ∧ run.receiver = none) ∨ (e.kind = .constructor ∧ language = .go) ∨
        ∃ v, (e.kind = .method ∧ run.receiver = some v) ∧ ¬v.IsExpressible language := by
  simp only [targetObstacle]
  cases e.kind with
  | method =>
      cases run.receiver with
      | none => simp
      | some v => simp [Value.obstacle_isSome_iff]
  | constructor => by_cases hgo : language = .go <;> simp [hgo]
  | staticMethod => simp
  | function => simp

theorem stubObstacle_isSome_iff :
    (run.stubObstacle config).isSome = true ↔
      ∃ v, (config.staticMocking = .mockito ∧ ∃ s ∈ run.staticStubs, s.returns = v) ∧
        ¬v.IsExpressible config.language := by
  rw [stubObstacle, Value.obstacleIn_isSome_iff]
  refine exists_congr fun v => and_congr_left' ?_
  simp only [writtenStubs]
  cases config.staticMocking with
  | off => simp
  | mockito =>
      rw [if_neg (by decide), ← List.map_flatMap, List.mem_map]
      simp only [mem_stubsByClass_iff, true_and]

/-- The absent value and a NaN have no obstacle, so it does not matter that they are not copied. -/
theorem resultObstacle_isSome_iff (language : Language) :
    (run.resultObstacle language e).isSome = true ↔
      ∃ v, (run.outcome = .success (some v) ∧ e.returnType.isVoid = false ∧ v.isNull = false ∧
        ¬(v.isNaN = true ∧ language.isJvm = false)) ∧ ¬v.IsExpressible language := by
  have hresult : ∀ v, run.result? e = some v ↔
      run.outcome = .success (some v) ∧ e.returnType.isVoid = false := by
    intro v
    simp only [result?]
    cases hvoid : e.returnType.isVoid <;> cases run.outcome <;> simp
  rw [resultObstacle, Option.isSome_bind, Option.any_eq_true]
  constructor
  · rintro ⟨v, hv, hobstacle⟩
    obtain ⟨hsuccess, hvoid⟩ := (hresult v).mp hv
    refine ⟨v, ⟨hsuccess, hvoid, ?_, ?_⟩, Value.obstacle_isSome_iff.mp hobstacle⟩
    · refine (Bool.not_eq_true _).mp fun hnull => ?_
      simp [Value.obstacle_of_isNull hnull] at hobstacle
    · rintro ⟨hnan, -⟩
      simp [Value.obstacle_of_isNaN hnan] at hobstacle
  · rintro ⟨v, ⟨hsuccess, hvoid, -⟩, hv⟩
    exact ⟨v, (hresult v).mpr ⟨hsuccess, hvoid⟩, Value.obstacle_isSome_iff.mpr hv⟩

/-- Building the test of a run is given up exactly when static mocking is needed, off and not worked
around, the arguments do not fit the parameters, a method has no receiver, Go would need a
constructor, or a value that the test writes cannot be rebuilt.  The error is a build failure. -/
theorem toTest_isError_iff_causes (g : Generation) :
    ((∃ err h, run.toTest e g = .error err h) ↔
      (run.staticStubs ≠ [] ∧ g.config.staticMocking = .off ∧
          g.config.staticMockingFallback = .noTest) ∨
        run.arguments.length ≠ e.parameters.length ∨
        (e.kind = .method ∧ run.receiver = none) ∨
        (e.kind = .constructor ∧ g.config.language = .go) ∨
        ∃ v, run.Reproduces g.config e v ∧ ¬v.IsExpressible g.config.language) ∧
      ∀ err h, run.toTest e g = .error err h → ∃ cause, err = .build cause := by
  constructor
  · rw [toTest_isError_iff, fails, obstacle, callObstacle]
    simp only [Option.isSome_or, Bool.or_eq_true, configObstacle_isSome_iff,
      countObstacle_isSome_iff, targetObstacle_isSome_iff, Value.obstacleIn_isSome_iff,
      stubObstacle_isSome_iff, resultObstacle_isSome_iff, Reproduces, or_and_right, exists_or]
    grind
  · intro err h herr
    obtain ⟨cause, -, rfl⟩ := (toTestUnder_meets run g.config e).eq_of_error herr
    exact ⟨cause, rfl⟩

end Execution

end TestWriter
