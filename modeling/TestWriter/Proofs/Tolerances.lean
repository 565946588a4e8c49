import TestWriter.Proofs.BuiltForms
import TestWriter.Proofs.Checks
import TestWriter.Proofs.PytestRows
import TestWriter.Proofs.PythonSuites
import TestWriter.Proofs.ScriptNumbers
import TestWriter.Proofs.SkippedTests

/-!
# Comparisons within a tolerance

JavaScript compares a number with a literal by the size of their difference.  Main statement: the
test of a run does so exactly when the run returned a number other than NaN, and its condition holds
for this very number exactly when the number is finite.
-/

namespace TestWriter

open Decimal (Binary64)

/-! ## Comparisons in statements -/

/-- A comparison of two expressions within a tolerance. -/
structure Comparison where
  expected : Expr
  actual : Expr
  delta : Literal
  deep : Bool

/-- The assertion of a comparison. -/
def Comparison.stmt (c : Comparison) : Stmt := .assertEquals c.expected c.actual (some c.delta) c.deep

mutual

/-- The comparisons within a tolerance that a statement asserts, itself or by statements inside it. -/
def Stmt.comparisons : Stmt → List Comparison
  | .assertEquals expected actual (some delta) deep => [⟨expected, actual, delta, deep⟩]
  | .branch _ thenBody elseBody => Stmt.comparisonsIn thenBody ++ Stmt.comparisonsIn elseBody
  | .switch _ cases fallback => SwitchCase.comparisonsIn cases ++ Stmt.comparisonsIn fallback
  | .mockedStatic _ _ _ body | .assertThrows _ body => Stmt.comparisonsIn body
  | _ => []

/-- The comparisons within a tolerance that some statements assert. -/
def Stmt.comparisonsIn : List Stmt → List Comparison
  | [] => []
  | s :: rest => s.comparisons ++ Stmt.comparisonsIn rest

/-- The comparisons within a tolerance in the cases of a switch. -/
def SwitchCase.comparisonsIn : List SwitchCase → List Comparison
  | [] => []
  | .mk _ body :: rest => Stmt.comparisonsIn body ++ SwitchCase.comparisonsIn rest

end

namespace Stmt

theorem comparisonsIn_append (body more : List Stmt) :
    comparisonsIn (body ++ more) = comparisonsIn body ++ comparisonsIn more := by
  induction body with
  | nil => simp [comparisonsIn]
  | cons s rest ih => simp [comparisonsIn, ih]

theorem comparisonsIn_eq_nil {body : List Stmt} (h : ∀ s ∈ body, s.comparisons = []) :
    comparisonsIn body = [] := by
  induction body with
  | nil => rw [comparisonsIn]
  | cons s rest ih =>
      obtain ⟨hs, hrest⟩ := List.forall_mem_cons.mp h
      rw [comparisonsIn, hs, ih hrest]
      rfl

/-- A statement that rebuilds a value compares nothing. -/
theorem Rebuilds.comparisons_eq {language : Language} {s : Stmt} (h : s.Rebuilds language) :
    s.comparisons = [] := by
  cases h with
  | field name hway hobject hvalue => rename_i way object value; cases way <;> rfl
  | _ => rfl

/-- Scopes compare nothing but what stands inside them. -/
theorem comparisonsIn_enclose (scopes : List StaticScope) (body : List Stmt) :
    comparisonsIn (StaticScope.enclose scopes body) = comparisonsIn body := by
  induction scopes with
  | nil => rfl
  | cons scope rest ih =>
      change comparisonsIn [.mockedStatic _ _ _ (StaticScope.enclose rest body)] = _
      rw [comparisonsIn, comparisons, comparisonsIn, ih, List.append_nil]

end Stmt

/-! ## Recorded numbers -/

/-- The number of JavaScript that a literal is, if it is one of floating point. -/
def Literal.number? : Literal → Option Binary64
  | .float x => some x.widen
  | .double x => some x
  | _ => none

/-- The number of JavaScript that a value is, if it is one of floating point. -/
def Value.number? (v : Value) : Option Binary64 := v.literal?.bind Literal.number?

/-- The number of JavaScript that a run returned. -/
def Execution.number? (run : Execution) (e : Executable) : Option Binary64 :=
  (run.result? e).bind Value.number?

/-- The tolerance with which a literal is compared. -/
def Literal.delta? (l : Literal) : Option Literal := l.type.primitive?.bind Primitive.delta?

/-- The tolerances are numbers that are not negative. -/
theorem Literal.exists_delta {l : Literal} {x : Binary64} (h : l.number? = some x) :
    ∃ delta y, l.delta? = some delta ∧ delta.number? = some y ∧ y.isNaN = false ∧
      y.negative = false := by
  cases l with
  | float x =>
      let delta := Decimal.Binary32.ofPattern false (Decimal.single.ofDecimal 1 (-6))
      refine ⟨.float delta, delta.widen, rfl, rfl, ?_, ?_⟩
      · rw [delta.isNaN_widen]
        decide
      · rw [delta.widen_same.1]
        decide
  | double x => exact ⟨_, _, rfl, rfl, by decide, by decide⟩
  | _ => cases h

theorem Literal.isNaN_eq {l : Literal} {x : Binary64} (h : l.number? = some x) :
    l.isNaN = x.isNaN := by
  cases l with
  | float y =>
      cases h
      exact y.isNaN_widen.symm
  | double y =>
      cases h
      rfl
  | _ => cases h

/-- Only numbers are compared within a tolerance. -/
theorem Value.exists_number {v : Value} {delta : Literal}
    (h : v.type.primitive?.bind Primitive.delta? = some delta) :
    ∃ l x, v = .literal l ∧ l.number? = some x ∧ l.delta? = some delta := by
  cases v with
  | literal l =>
      cases l with
      | float x => exact ⟨_, _, rfl, rfl, h⟩
      | double x => exact ⟨_, _, rfl, rfl, h⟩
      | _ => cases h
  | _ => cases h

theorem Value.number?_eq_none {v : Value} (h : v.type.primitive?.bind Primitive.delta? = none) :
    v.number? = none := by
  cases v with
  | literal l =>
      cases hx : l.number? with
      | none => exact hx
      | some x =>
          obtain ⟨delta, -, hdelta, -⟩ := l.exists_delta hx
          cases h.symm.trans hdelta
  | _ => rfl

/-! ## What a test compares -/

/-- What the statements for a result compare within a tolerance: the variable that holds the result
with the number, unless there is none but a NaN. -/
inductive Stmt.CompareWith (e : Executable) (call : Expr) (result : Option Value) :
    List Stmt → Prop
  | number {l delta : Literal} {x : Binary64} (s : NameSupply) (hresult : result = some (.literal l))
    (hx : l.number? = some x) (hnan : x.isNaN = false) (hdelta : l.delta? = some delta) :
    CompareWith e call result
      [.declare (s.claimVariable "actual").1 e.returnType false (some call), .blank,
        .assertEquals (.literal l) (.ref (s.claimVariable "actual").1) (some delta) false]
  | other {body : List Stmt} (hresult : ∀ x, result.bind Value.number? = some x → x.isNaN = true)
    (hbody : comparisonsIn body = []) : CompareWith e call result body

namespace Draft

variable {e : Executable} {run : Execution} {call : Expr} {d d' : Draft}

/-- What follows the declaration of a result refers to it. -/
theorem exists_draft_of_declareActual_bind_ok {f : Expr → Build Draft Unit} {u : Unit}
    (h : (declareActual e call >>= f) d = .ok u d') :
    ∃ d₁, f (.ref (d.supply.claimVariable "actual").1) d₁ = .ok u d' ∧
      d₁.statements = d.statements ++
        [.declare (d.supply.claimVariable "actual").1 e.returnType false (some call), .blank] := by
  obtain ⟨actual, d₂, hactual, h⟩ := Build.bind_eq_ok.mp h
  obtain ⟨d₁, hdeclare, hblank⟩ := exists_draft_of_declareActual_ok hactual
  obtain ⟨rfl, rfl⟩ := eq_of_declare_ok hdeclare
  cases hblank
  exact ⟨_, h, List.append_assoc ..⟩

/-- The assertion of a value compares it within a tolerance if it is a number. -/
theorem assertEqual_compares {v : Value} {name : String} {u : Unit}
    (hd : d.statements = [.declare name e.returnType false (some call), .blank])
    (h : assertEqual .javascript v (.ref name) d = .ok u d') :
    (∃ l x delta, v = .literal l ∧ l.number? = some x ∧ l.delta? = some delta ∧
        d'.statements = [.declare name e.returnType false (some call), .blank,
          .assertEquals (.literal l) (.ref name) (some delta) false]) ∨
      v.number? = none ∧ Stmt.comparisonsIn d'.statements = [] := by
  obtain ⟨expected, d₁, hexpected, h⟩ := Build.bind_eq_ok.mp h
  have hhelper : v.comparedByHelper .javascript = false := rfl
  rw [hhelper] at h
  cases h
  cases hdelta : v.type.primitive?.bind Primitive.delta? with
  | none =>
      obtain ⟨⟨added, hadded, hrebuild, -⟩, -⟩ := express_lays _ _ _ _ _ _ hexpected
      have hnone : Stmt.comparisonsIn added = [] :=
        Stmt.comparisonsIn_eq_nil fun s hs => (hrebuild s hs).comparisons_eq
      refine Or.inr ⟨Value.number?_eq_none hdelta, ?_⟩
      rw [hadded, hd, Stmt.comparisonsIn_append, Stmt.comparisonsIn_append, hnone]
      rfl
  | some delta =>
      obtain ⟨l, x, rfl, hx, hl⟩ := Value.exists_number hdelta
      obtain ⟨rfl, rfl⟩ := Build.pure_eq_ok.mp hexpected
      refine Or.inl ⟨l, x, delta, rfl, hx, hl, ?_⟩
      rw [hd]
      rfl

/-- The statements for a result compare it as a number. -/
theorem checkResult_compares {result : Option Value} {u : Unit} (hd : d.statements = [])
    (h : checkResult .javascript e call (.ofResult .javascript result) d = .ok u d') :
    Stmt.CompareWith e call result d'.statements := by
  cases result with
  | none =>
      cases h
      refine .other (fun _ hx => by cases hx) ?_
      rw [hd]
      rfl
  | some v =>
      have hnumber : ∀ {l : Literal} {x : Binary64}, v = .literal l → l.number? = some x →
          v.isNull = false ∧ v.isNaN = x.isNaN := by
        rintro l x rfl hx
        refine ⟨?_, l.isNaN_eq hx⟩
        cases l with
        | null => cases hx
        | _ => rfl
      have hnan : ∀ x, v.number? = some x → (v.isNull || v.isNaN) = true → x.isNaN = true := by
        intro x hx hspecial
        cases v with
        | literal l =>
            obtain ⟨hnull, heq⟩ := hnumber rfl hx
            rwa [hnull, heq, Bool.false_or] at hspecial
        | _ => cases hx
      simp only [ResultCheck.ofResult] at h
      split at h
      · next hnull =>
        obtain ⟨d₁, h, hstatements⟩ := exists_draft_of_declareActual_bind_ok h
        cases h
        refine .other (fun x hx => hnan x hx (by rw [hnull, Bool.true_or])) ?_
        rw [hstatements, hd]
        rfl
      · split at h
        · next hspecial =>
          obtain ⟨d₁, h, hstatements⟩ := exists_draft_of_declareActual_bind_ok h
          cases h
          have hisNaN := (Bool.and_eq_true_iff.mp hspecial).1
          refine .other (fun x hx => hnan x hx (by rw [hisNaN, Bool.or_true])) ?_
          rw [hstatements, hd]
          rfl
        · next hordinary =>
          obtain ⟨d₁, h, hstatements⟩ := exists_draft_of_declareActual_bind_ok h
          rw [hd, List.nil_append] at hstatements
          rcases assertEqual_compares hstatements h with
            ⟨l, x, delta, rfl, hx, hdelta, hafter⟩ | ⟨hnone, hafter⟩
          · have hisNaN : x.isNaN = false := by
              rw [← (hnumber rfl hx).2]
              simpa [Language.isJvm] using hordinary
            rw [hafter]
            exact .number d.supply rfl hx hisNaN hdelta
          · refine .other (fun x hx => ?_) hafter
            cases hnone.symm.trans hx

/-- The statements for an outcome compare the result of the run, if there is one. -/
theorem checkOutcome_compares {config : Config} (hlanguage : config.language = .javascript)
    {u : Unit} (hd : d.statements = []) (h : checkOutcome config e run call d = .ok u d') :
    Stmt.CompareWith e call (run.result? e) d'.statements := by
  have hother : run.result? e = none → Stmt.comparisonsIn d'.statements = [] →
      Stmt.CompareWith e call (run.result? e) d'.statements := by
    intro hnone hbody
    refine .other (fun x hx => ?_) hbody
    rw [hnone] at hx
    cases hx
  simp only [checkOutcome, hlanguage] at h
  cases houtcome : run.outcome with
  | success value =>
      simp only [houtcome] at h
      exact checkResult_compares hd h
  | runtimeFailure exception message kind =>
      simp only [houtcome] at h
      refine hother (by simp [Execution.result?, houtcome]) ?_
      split at h
      · cases h
        rw [hd]
        rfl
      · cases h
        rw [hd]
        rfl
  | timeout limit =>
      simp only [houtcome] at h
      refine hother (by simp [Execution.result?, houtcome]) ?_
      split at h
      · cases h
        rw [hd]
        rfl
      · cases h
        rw [hd]
        rfl
  | crash reason =>
      simp only [houtcome] at h
      refine hother (by simp [Execution.result?, houtcome]) ?_
      cases h
      rw [hd]
      rfl

end Draft

/-- The body of a test of a run ends with the statements for its result, inside the scopes of its
stubs, and compares nothing else. -/
theorem Execution.exists_compareWith {run : Execution} {e : Executable} {g g' : Generation}
    {t : Method} (hlanguage : g.config.language = .javascript) (h : run.toTest e g = .ok t g') :
    ∃ before scopes act call, t.body = before ++ StaticScope.enclose scopes act ∧
      Stmt.comparisonsIn before = [] ∧ call.Calls .javascript e ∧
      Stmt.CompareWith e call (run.result? e) act := by
  obtain ⟨body, d, name, names, hbody, rfl, -⟩ := Execution.eq_of_toTest_ok h
  obtain ⟨call, d₁, d₂, scopes, d₃, d₄, hcall, hmark, hscopes, hcheck, rfl, -⟩ :=
    Draft.exists_drafts_of_bodyOfRun_ok hbody
  rw [hlanguage] at hcall hscopes
  obtain ⟨hcalllaid, hcallform⟩ := Draft.callOfRun_lays _ _ _ run _ _ _ hcall
  obtain ⟨hmarklaid, -⟩ := Draft.markStatics_lays _ _ _ _ hmark
  obtain ⟨hscopeslaid, -⟩ := Draft.staticScopes_lays _ _ _ _ _ hscopes
  obtain ⟨hrebuilds, -⟩ := ((hcalllaid.trans hmarklaid).trans hscopeslaid).all rfl
  obtain ⟨gap, happart, hblank, -⟩ :=
    apart_eq_append d₃.statements (StaticScope.enclose scopes d₄.statements)
  refine ⟨d₃.statements ++ gap, scopes, d₄.statements, call, happart, ?_, hcallform,
    Draft.checkOutcome_compares hlanguage rfl hcheck⟩
  apply Stmt.comparisonsIn_eq_nil
  rw [List.forall_mem_append]
  refine ⟨fun s hs => (hrebuilds s hs).comparisons_eq, fun s hs => ?_⟩
  rw [hblank s hs]
  rfl

/-! ## Conditions -/

namespace Target.JavaScript

open Text (cut?)

/-- The condition of a comparison within a tolerance. -/
def condition (actual expected delta : String) : String :=
  "Math.abs(" ++ actual ++ " - " ++ expected ++ ") <= " ++ delta

/-- The value of an operand: that of a variable, or the number that it is read as. -/
def operand? (values : List (String × Binary64)) (cs : List Char) : Option Binary64 :=
  (values.lookup (String.ofList cs)).or (readNumber? (String.ofList cs))

/-- Whether a condition holds for some values of variables; nothing if it is no such condition. -/
def holds? (values : List (String × Binary64)) (s : String) : Option Bool := do
  let (front, rest) ← cut? "Math.abs(".toList s.toList
  let (actual, rest) ← cut? " - ".toList rest
  let (expected, delta) ← cut? ") <= ".toList rest
  if front.isEmpty then
    let x ← operand? values actual
    let y ← operand? values expected
    let tolerance ← operand? values delta
    return (x.sub y).abs.le tolerance
  else none

/-- The text of a number has no parenthesis and does not start like the name of a variable. -/
theorem number_chars (x : Binary64) :
    ')' ∉ (number x).toList ∧ ∀ rest, (number x).toList ≠ 'a' :: rest := by
  rw [number]
  cases hspecial : x.special? with
  | some value => cases value <;> simp
  | none =>
      cases hx : x.magnitude with
      | finite m q =>
          have hnumeral := (Python.isNumeral_textOf Decimal.double x.negative m q).numeral
          rw [← hx] at hnumeral
          change ∀ c ∈ x.text.toList, Python.isNumeral c = true at hnumeral
          constructor
          · intro hparen
            cases hnumeral _ hparen
          · intro rest heq
            cases hnumeral 'a' (heq ▸ List.mem_cons_self)
      | _ => simp [Binary64.special?, Decimal.special?, hx] at hspecial

/-- The condition for a number itself holds when the number is finite, and only then. -/
theorem holds?_condition {actual : String} {rest : List Char} {x delta : Binary64}
    (hactual : actual.toList = 'a' :: rest) (hblank : ' ' ∉ rest) (hnan : x.isNaN = false)
    (hdelta : delta.isNaN = false) (hsign : delta.negative = false) :
    holds? [(actual, x)] (condition actual (number x) (number delta)) = some x.isFinite := by
  have htext : (condition actual (number x) (number delta)).toList =
      [] ++ "Math.abs(".toList ++ (actual.toList ++ (" - ".toList ++
        ((number x).toList ++ (") <= ".toList ++ (number delta).toList)))) := by
    simp only [condition, String.toList_append, List.append_assoc, List.nil_append]
  have hfront := Text.cut?_eq_some_iff.mpr ⟨htext, Text.firstBehind_nil⟩
  have hleft : ' ' ∉ actual.toList := by
    rw [hactual, List.mem_cons, not_or]
    exact ⟨by decide, hblank⟩
  have hminus : ∀ after, cut? " - ".toList (actual.toList ++ (" - ".toList ++ after)) =
      some (actual.toList, after) := Decimal.cut?_append hleft ['-', ' ']
  have hend : ∀ after, cut? ") <= ".toList ((number x).toList ++ (") <= ".toList ++ after)) =
      some ((number x).toList, after) := Decimal.cut?_append (number_chars x).1 [' ', '<', '=', ' ']
  have hvariable : operand? [(actual, x)] actual.toList = some x := by
    simp [operand?, String.ofList_toList]
  have hnumber : ∀ y : Binary64, y.isNaN = false →
      operand? [(actual, x)] (number y).toList = some y := by
    intro y hy
    have hne : (number y == actual) = false := by
      refine beq_eq_false_iff_ne.mpr fun heq => ?_
      exact (number_chars y).2 rest (heq ▸ hactual)
    simp [operand?, String.ofList_toList, List.lookup_cons, hne, readNumber?_number, hy]
  simp only [holds?, hfront, hminus, hend, hvariable, hnumber x hnan, hnumber delta hdelta,
    Option.bind_eq_bind, Option.bind_some, Option.pure_def, List.isEmpty_nil, if_true]
  rw [Binary64.abs_sub_self_le hdelta hsign]

/-- Names made from a word that is not reserved are printed with it in front, and without blanks if
there are none in the word. -/
theorem exists_identifier_claimVariable (s : NameSupply) :
    ∃ rest, (dialect.identifier (s.claimVariable "actual").1).toList = 'a' :: rest ∧
      ' ' ∉ rest := by
  have hname : ∃ digits, (s.claimVariable "actual").1.toList = "actual".toList ++ digits ∧
      ' ' ∉ digits := by
    rcases s.claim_cases "actual" "" with h | ⟨n, h⟩
    · exact ⟨[], congrArg String.toList h, List.not_mem_nil⟩
    · refine ⟨(toString n).toList, ?_, fun hblank => ?_⟩
      · refine (congrArg String.toList h).trans ?_
        simp [NameSupply.numbered]
      · cases isDigit_of_mem_toString hblank
  obtain ⟨digits, hdigits, hblank⟩ := hname
  change ∃ rest, (avoid reserved _).toList = _ ∧ _
  rw [avoid]
  split
  · refine ⟨"ctual".toList ++ digits ++ ['_'], ?_, ?_⟩
    · rw [String.toList_append, hdigits]
      rfl
    · simp [hblank]
  · refine ⟨"ctual".toList ++ digits, hdigits, ?_⟩
    simp [hblank]

theorem literal_eq_number {l : Literal} {x : Binary64} (h : l.number? = some x) :
    literal l = number x := by
  cases l with
  | float y | double y =>
      cases h
      rfl
  | _ => cases h

open Layout Rendering

/-- The assertion of a comparison is written as that of its condition. -/
theorem exists_doc_of_assertEquals {l k : Literal} {x delta : Binary64} {name : String} {deep : Bool}
    (hx : l.number? = some x) (hdelta : k.number? = some delta) :
    ∃ d, dialect.stmt (.assertEquals (.literal l) (.ref name) (some k) deep) = .ok d ∧
      ∀ tab, d.toText tab = "assert.ok(" ++
        condition (dialect.identifier name) (number x) (number delta) ++ ");\n" := by
  have hmember : Prints (assertMember "ok") ("assert" ++ ".ok(") :=
    (prints_piece _ _).append (prints_say _)
  have hactual := hmember.append (prints_say "Math.abs(") |>.append
    (prints_piece (.identifier name) (dialect.identifier name))
  have hexpected := hactual.append (prints_say " - ") |>.append (prints_say (literal l))
  have hbound := hexpected.append (prints_say ") <= ") |>.append (prints_say (literal k))
  obtain ⟨d, hd, hprints⟩ := hbound.append (prints_say ")") |>.append (prints_line ";")
  refine ⟨[.freshLine] ++ d, append_eq_ok_iff.mpr ⟨_, _, rfl, hd, rfl⟩, fun tab => ?_⟩
  refine (hprints tab .start rfl).1.trans ?_
  rw [literal_eq_number hx, literal_eq_number hdelta]
  apply String.toList_inj.mp
  simp [condition, Cursor.start]

end Target.JavaScript

/-! ## Tests -/

namespace Target

open Layout Rendering

/-- JavaScript has no scopes of static methods, so what stands inside of them is not written. -/
theorem JavaScript.holds_enclose {s : Stmt} {scopes : List StaticScope} {body : List Stmt}
    (h : s ∈ body) :
    (dialect.stmts (StaticScope.enclose scopes body)).Holds (dialect.stmt s) := by
  cases scopes with
  | nil => exact Dialect.holds_stmts h
  | cons scope rest =>
      intro d hd
      cases hd

theorem Dialect.stmts_append (d : Dialect) (body more : List Stmt) :
    d.stmts (body ++ more) = d.stmts body ++ d.stmts more := by
  induction body with
  | nil => exact (nothing_append _).symm
  | cons s rest ih => rw [List.cons_append, stmts, stmts, ih, append_assoc]

/-- A test in JavaScript holds the statements that its body ends with. -/
theorem JavaScript.holds_method {s : Surroundings} (hs : s.settings.language = .javascript)
    {t : Method} (htest : t.isTest = true) {before body : List Stmt} {scopes : List StaticScope}
    (hbody : t.body = before ++ StaticScope.enclose scopes body) {x : Stmt} (hx : x ∈ body) :
    (s.methodForms.method t).Holds (dialect.stmt x) := by
  have hdialect : s.methodForms.dialect = dialect := by
    rw [Surroundings.methodForms, hs]
    rfl
  obtain ⟨above, below, hmethod, hbelow⟩ := s.exists_head htest
  rw [hdialect, hbody, Dialect.stmts_append] at hbelow
  rw [hmethod]
  exact holds_right (hbelow.trans (holds_right (holds_enclose hx)))

end Target

open Layout Target

/-- A test in JavaScript compares a returned number within a tolerance: it ends by declaring a
variable for the result of the call and asserting the comparison, and every text of the test holds
the assertion of the condition that the variable differs from the number by the tolerance at
most. -/
structure Comparison.Judges (c : Comparison) (e : Executable) (t : Method) (name : String)
    (x delta : Binary64) : Prop where
  body : ∃ before scopes call,
    t.body = before ++ StaticScope.enclose scopes
      [.declare name e.returnType false (some call), .blank, c.stmt] ∧
    call.Calls .javascript e
  written : ∀ s : Surroundings, s.settings.language = .javascript →
    (s.methodForms.method t).Holds (JavaScript.dialect.stmt c.stmt)
  text : ∃ d, JavaScript.dialect.stmt c.stmt = .ok d ∧ ∀ tab, d.toText tab = "assert.ok(" ++
    JavaScript.condition (JavaScript.dialect.identifier name) (JavaScript.number x)
      (JavaScript.number delta) ++ ");\n"

/-- A test in JavaScript compares within a tolerance exactly when its run returned a number of
floating point that is not NaN.  The condition of the comparison, with the returned number for the
variable that holds the result of the call, then holds if the number is finite and does not hold if
it is an infinity. -/
theorem tolerances_accept_iff_finite {run : Execution} {e : Executable} {g g' : Generation}
    {t : Method} (hlanguage : g.config.language = .javascript) (h : run.toTest e g = .ok t g') :
    (Stmt.comparisonsIn t.body ≠ [] ↔ ∃ x, run.number? e = some x ∧ x.isNaN = false) ∧
    ∀ c ∈ Stmt.comparisonsIn t.body, ∃ name x delta,
      run.number? e = some x ∧ c.Judges e t name x delta ∧
      JavaScript.holds? [(JavaScript.dialect.identifier name, x)]
        (JavaScript.condition (JavaScript.dialect.identifier name) (JavaScript.number x)
          (JavaScript.number delta)) = some x.isFinite := by
  have htest : t.isTest = true := by
    obtain ⟨body, d, name, names, -, rfl, -⟩ := Execution.eq_of_toTest_ok h
    rfl
  obtain ⟨before, scopes, act, call, hbody, hbefore, hcall, hact⟩ :=
    Execution.exists_compareWith hlanguage h
  have hcomparisons : Stmt.comparisonsIn t.body = Stmt.comparisonsIn act := by
    rw [hbody, Stmt.comparisonsIn_append, hbefore, Stmt.comparisonsIn_enclose, List.nil_append]
  rw [hcomparisons]
  cases hact with
  | other hresult hnone =>
      rw [hnone]
      refine ⟨⟨fun hne => absurd rfl hne, ?_⟩, List.forall_mem_nil _⟩
      rintro ⟨x, hx, hnan⟩
      cases hnan.symm.trans (hresult x hx)
  | @number l delta x supply hresult hx hnan hdelta =>
      have hnumber : run.number? e = some x := by
        rw [Execution.number?, hresult]
        exact hx
      refine ⟨⟨fun _ => ⟨x, hnumber, hnan⟩, fun _ => List.cons_ne_nil _ _⟩, ?_⟩
      refine List.forall_mem_singleton.mpr ?_
      obtain ⟨delta', y, hdelta', hy, hnumeral, hsign⟩ := l.exists_delta hx
      cases hdelta.symm.trans hdelta'
      obtain ⟨rest, hname, hblank⟩ := JavaScript.exists_identifier_claimVariable supply
      refine ⟨_, x, y, hnumber, ⟨⟨before, scopes, call, hbody, hcall⟩, fun s hs => ?_,
        JavaScript.exists_doc_of_assertEquals hx hy⟩,
        JavaScript.holds?_condition hname hblank hnan hnumeral hsign⟩
      apply JavaScript.holds_method hs htest hbody
      simp [Comparison.stmt]

/-- A run that returned positive infinity. -/
def infiniteRun : Execution :=
  .ofArguments [] (.returning (.literal (.double (.ofPattern false Decimal.double.infinity))))

/-- The test of a run that returned an infinity fails though the call returns the infinity again. -/
theorem tolerances_accept_iff_finite_infiniteRun :
    let e : Executable := ⟨⟨"", "m"⟩, "f", [], .primitive .double, .function⟩
    let g := Generation.new ⟨"", "m"⟩ (.forLanguage .javascript)
    ∃ t g' c name x delta, infiniteRun.toTest e g = .ok t g' ∧ c ∈ Stmt.comparisonsIn t.body ∧
      infiniteRun.number? e = some x ∧ c.Judges e t name x delta ∧
      JavaScript.holds? [(JavaScript.dialect.identifier name, x)]
        (JavaScript.condition (JavaScript.dialect.identifier name) (JavaScript.number x)
          (JavaScript.number delta)) = some false := by
  intro e g
  have hmeets := infiniteRun.toTestUnder_meets g.config e
  have hnone : infiniteRun.obstacle g.config e = none := by decide
  rw [hnone] at hmeets
  obtain ⟨t, g', ht⟩ := hmeets g
  obtain ⟨hcompares, hjudges⟩ := @tolerances_accept_iff_finite infiniteRun e g g' t rfl ht
  have hx : infiniteRun.number? e = some (.ofPattern false Decimal.double.infinity) := rfl
  obtain ⟨c, hc⟩ := List.exists_mem_of_ne_nil _ (hcompares.mpr ⟨_, hx, by decide⟩)
  obtain ⟨name, x, delta, hnumber, hjudge, hholds⟩ := hjudges c hc
  cases hx.symm.trans hnumber
  refine ⟨t, g', c, name, _, delta, ht, hc, hx, hjudge, hholds.trans (congrArg some ?_)⟩
  decide

end TestWriter
