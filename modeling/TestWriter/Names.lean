import TestWriter.Evidence.Execution
import TestWriter.Language
import TestWriter.Text.Case

/-!
# Names

A supply hands out names that were not taken before: the base itself, or the base followed by a
separator and a counter.  Each taken name keeps the last counter tried for it, so a base that is
asked for again goes on where it stopped.  On top of it stand the names of test methods, data
providers and variables.
-/

namespace TestWriter

/-- The names taken so far, each with the last counter tried for it. -/
structure NameSupply where
  taken : List (String × Nat)
  deriving DecidableEq, Repr

namespace NameSupply

/-- The supply with nothing taken. -/
def empty : NameSupply := ⟨[]⟩

/-- The last counter tried for a name; `none` when the name is free. -/
def counter? (s : NameSupply) (name : String) : Option Nat := s.taken.lookup name

/-- Whether a name is taken. -/
def isTaken (s : NameSupply) (name : String) : Bool := (s.counter? name).isSome

/-- Take a name, with a counter. -/
def record (s : NameSupply) (name : String) (counter : Nat) : NameSupply :=
  ⟨(name, counter) :: s.taken.filter fun entry => entry.1 ≠ name⟩

theorem counter?_record (s : NameSupply) (name k : String) (counter : Nat) :
    (s.record name counter).counter? k = if k = name then some counter else s.counter? k := by
  simp only [record, counter?, List.lookup_cons]
  by_cases h : k = name
  · simp [h]
  · have hb : (k == name) = false := by simpa using h
    simp only [hb, h, if_false]
    induction s.taken with
    | nil => rfl
    | cons entry rest ih =>
      obtain ⟨taken, n⟩ := entry
      by_cases he : taken = name
      · simpa [he, List.lookup_cons, hb] using ih
      · simp only [List.filter_cons, ne_eq, he, not_false_eq_true, decide_true, if_true,
          List.lookup_cons]
        cases k == taken
        · exact ih
        · rfl

theorem isTaken_record (s : NameSupply) (name k : String) (counter : Nat) :
    (s.record name counter).isTaken k = (decide (k = name) || s.isTaken k) := by
  unfold isTaken
  rw [counter?_record]
  by_cases h : k = name <;> simp [h]

/-- Take a name that exists already; a name that is taken keeps its counter. -/
def reserve (s : NameSupply) (name : String) : NameSupply :=
  if s.isTaken name then s else s.record name 0

/-- The candidate of a counter. -/
def numbered (base separator : String) (n : Nat) : String :=
  base ++ separator ++ toString n

/-- The first counter after `n` whose candidate is free, trying at most `fuel` of them. -/
def nextFree (s : NameSupply) (base separator : String) : Nat → Nat → Nat
  | 0, n => n + 1
  | fuel + 1, n =>
    if s.isTaken (numbered base separator (n + 1)) then s.nextFree base separator fuel (n + 1)
    else n + 1

/-- Take the base, or the first free candidate made from it.  Candidates of different counters
differ, so one more than there are names taken is tried at most. -/
def claim (s : NameSupply) (base separator : String) : String × NameSupply :=
  match s.counter? base with
  | none => (base, s.record base 0)
  | some n =>
    let m := s.nextFree base separator s.taken.length n
    let name := numbered base separator m
    (name, (s.record base m).record name 0)

end NameSupply

/-- The names of the methods of one class. -/
structure MethodNames where
  language : Language
  supply : NameSupply
  deriving DecidableEq, Repr

namespace MethodNames

/-- The names of a class without methods. -/
def new (language : Language) : MethodNames := ⟨language, .empty⟩

/-- What stands between a base and its counter. -/
def separator : Language → String
  | .python => "_"
  | _ => ""

/-- Take a name like the given one. -/
def unique (names : MethodNames) (base : String) : String × MethodNames :=
  let (name, supply) := names.supply.claim base (separator names.language)
  (name, { names with supply := supply })

/-- Take a name that exists already. -/
def reserve (names : MethodNames) (name : String) : MethodNames :=
  { names with supply := names.supply.reserve name }

/-- A name in the style in which the language finds its tests. -/
def style (language : Language) (camel : String) : String :=
  match language with
  | .python =>
    let snake := Text.snakeCase camel
    if "test".toList.isPrefixOf snake.toList then snake else "test_" ++ snake
  | .go => Text.capitalize camel
  | _ => camel

/-- What a failure adds to the name of its test. -/
def failureSuffix (language : Language) : Outcome → String
  | .runtimeFailure exception _ _ =>
    match language with
    | .go => "Panics"
    | _ => "Throws" ++ exception.name
  | _ => ""

/-- The name from which that of a test is made: the one suggested by the evidence, or one made from
the executable and its outcome. -/
def testBase (language : Language) (e : Executable) (run : Execution) : String :=
  style language <|
    run.testName.getD
      ("test" ++ Text.capitalize e.displayName ++ failureSuffix language run.outcome)

/-- Take a name for the test of a run. -/
def test (names : MethodNames) (e : Executable) (run : Execution) : String × MethodNames :=
  names.unique (testBase names.language e run)

/-- Take a name for the data provider of an executable. -/
def dataProvider (names : MethodNames) (e : Executable) : String × MethodNames :=
  let camel := "provideDataFor" ++ Text.capitalize e.displayName
  names.unique (if names.language = .python then Text.snakeCase camel else camel)

/-- Take a name for the parameterized test of an executable. -/
def parameterizedTest (names : MethodNames) (e : Executable) : String × MethodNames :=
  let camel := "parameterizedTestsFor" ++ Text.capitalize e.displayName
  names.unique (if names.language = .python then "test_" ++ Text.snakeCase camel else camel)

/-- Take a name for the test that lists the errors of an executable. -/
def errorReport (names : MethodNames) (e : Executable) : String × MethodNames :=
  names.unique (style names.language ("test" ++ Text.capitalize e.displayName ++ "_errors"))

end MethodNames

/-- Take a variable name like the given one; an empty base stands for `value`. -/
def NameSupply.claimVariable (s : NameSupply) (base : String) : String × NameSupply :=
  s.claim (if base.isEmpty then "value" else base) ""

end TestWriter
