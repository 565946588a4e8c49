import TestWriter.Proofs.BuiltForms

/-!
# Calls of an executable

How often code calls an executable.  Main statements: the statements for an outcome make the call of
a run once, and apart from it only a constructor is called, by the statements that rebuild values.
-/

namespace TestWriter

mutual

/-- The number of calls of an executable in an expression. -/
def Expr.countCalls (e : Executable) : Expr → Nat
  | .literal _ | .ref _ | .staticField .. | .allocate .. | .classOf _ | .mock _ => 0
  | .construct owner arguments =>
    (if e.kind = .constructor ∧ owner = e.owner then 1 else 0) + Expr.countCallsIn e arguments
  | .callOn receiver method arguments =>
    (if e.kind = .method ∧ method = e.name then 1 else 0) + receiver.countCalls e +
      Expr.countCallsIn e arguments
  | .callStatic owner method arguments =>
    (if e.kind = .staticMethod ∧ owner = e.owner ∧ method = e.name then 1 else 0) +
      Expr.countCallsIn e arguments
  | .callModule module method arguments =>
    (if e.kind = .function ∧ module = e.owner ∧ method = e.name then 1 else 0) +
      Expr.countCallsIn e arguments
  | .callHelper _ arguments => Expr.countCallsIn e arguments
  | .field target _ => target.countCalls e
  | .element array index => array.countCalls e + index.countCalls e
  | .arrayOf _ values => Expr.countCallsIn e values
  | .lambda _ body => Stmt.countCallsIn e body
  | .equal left right | .logical _ left right => left.countCalls e + right.countCalls e
  | .not operand | .cast _ operand | .notNull operand | .length operand => operand.countCalls e

/-- The number of calls of an executable in some expressions. -/
def Expr.countCallsIn (e : Executable) : List Expr → Nat
  | [] => 0
  | x :: rest => x.countCalls e + Expr.countCallsIn e rest

/-- The number of calls of an executable in a statement. -/
def Stmt.countCalls (e : Executable) : Stmt → Nat
  | .declare _ _ _ none | .ret none | .fail _ | .comment _ | .comments _ | .blank => 0
  | .declare _ _ _ (some x) | .eval x | .ret (some x) | .throw x | .assertTrue x
  | .assertNull x => x.countCalls e
  | .assign target value => target.countCalls e + value.countCalls e
  | .branch condition thenBody elseBody =>
    condition.countCalls e + Stmt.countCallsIn e thenBody + Stmt.countCallsIn e elseBody
  | .switch value cases default =>
    value.countCalls e + SwitchCase.countCallsIn e cases + Stmt.countCallsIn e default
  | .mockedStatic _ _ stubbings body =>
    Stubbing.countCallsIn e stubbings + Stmt.countCallsIn e body
  | .stub mock stubbing => mock.countCalls e + stubbing.countCalls e
  | .assertEquals expected actual _ _ => expected.countCalls e + actual.countCalls e
  | .assertThrows exception body => exception.countCalls e + Stmt.countCallsIn e body

/-- The number of calls of an executable in some statements. -/
def Stmt.countCallsIn (e : Executable) : List Stmt → Nat
  | [] => 0
  | s :: rest => s.countCalls e + Stmt.countCallsIn e rest

/-- The number of calls of an executable in a stubbed call. -/
def Stubbing.countCalls (e : Executable) : Stubbing → Nat
  | .mk _ arguments returns => Expr.countCallsIn e arguments + returns.countCalls e

/-- The number of calls of an executable in some stubbed calls. -/
def Stubbing.countCallsIn (e : Executable) : List Stubbing → Nat
  | [] => 0
  | s :: rest => s.countCalls e + Stubbing.countCallsIn e rest

/-- The number of calls of an executable in the cases of a switch. -/
def SwitchCase.countCallsIn (e : Executable) : List SwitchCase → Nat
  | [] => 0
  | .mk _ body :: rest => Stmt.countCallsIn e body + SwitchCase.countCallsIn e rest

end

section

attribute [local simp] Expr.countCalls Expr.countCallsIn Stmt.countCalls Stmt.countCallsIn
  Stubbing.countCalls Stubbing.countCallsIn

variable {e : Executable} {language : Language}

theorem Expr.IsAtom.countCalls_eq {x : Expr} (h : x.IsAtom) : x.countCalls e = 0 := by
  cases h <;> simp

theorem Expr.countCallsIn_eq {xs : List Expr} (h : ∀ x ∈ xs, x.IsAtom) :
    countCallsIn e xs = 0 := by
  induction xs with
  | nil => simp
  | cons x rest ih =>
      obtain ⟨hx, hrest⟩ := List.forall_mem_cons.mp h
      simp [hx.countCalls_eq, ih hrest]

/-- A call of an executable with atoms calls it once. -/
theorem Expr.Calls.countCalls_eq {call : Expr} (h : call.Calls language e) :
    call.countCalls e = 1 := by
  cases h with
  | mk hreceiver harguments hgo =>
      simp only [Executable.call]
      cases hkind : e.kind <;>
        simp [hkind, hreceiver.countCalls_eq, countCallsIn_eq harguments]

/-- Of the statements that rebuild values, only those call an executable that make an object by its
constructor. -/
theorem Stmt.Rebuilds.countCalls_eq (hjvm : language.isJvm = true) {s : Stmt}
    (h : s.Rebuilds language) (hkind : e.kind ≠ .constructor) : s.countCalls e = 0 := by
  cases h with
  | array name element hvalues => simp [Expr.countCallsIn_eq hvalues]
  | object name owner harguments hgo => simp [hkind, Expr.countCallsIn_eq harguments]
  | allocated name owner => cases language <;> simp_all [Draft.allocation, Language.isJvm, Expr.str]
  | field name hway hobject hvalue =>
      rename_i way object value
      have hjvmWay : way = .assignment ∨ way = .helper := by
        rcases hway with h | h
        · exact Or.inl h
        · cases language <;> simp_all [Draft.FieldWriting.withoutConstructor, Language.isJvm]
      rcases hjvmWay with rfl | rfl <;>
        simp [Draft.FieldWriting.statement, Expr.str, hobject.countCalls_eq, hvalue.countCalls_eq]
  | mock name owner hmocks => simp
  | stub method hmocks hobject harguments hreturns =>
      simp [hobject.countCalls_eq, hreturns.countCalls_eq, Expr.countCallsIn_eq harguments]

theorem Stmt.countCallsIn_append (body more : List Stmt) :
    countCallsIn e (body ++ more) = countCallsIn e body + countCallsIn e more := by
  induction body with
  | nil => simp
  | cons s rest ih => simp [ih, Nat.add_assoc]

theorem Stmt.countCallsIn_eq {body : List Stmt} (h : ∀ s ∈ body, s.countCalls e = 0) :
    countCallsIn e body = 0 := by
  induction body with
  | nil => simp
  | cons s rest ih =>
      obtain ⟨hs, hrest⟩ := List.forall_mem_cons.mp h
      simp [hs, ih hrest]

theorem Stubbing.countCallsIn_eq {stubbings : List Stubbing} (h : ∀ s ∈ stubbings, s.IsAtomic) :
    countCallsIn e stubbings = 0 := by
  induction stubbings with
  | nil => simp
  | cons s rest ih =>
      obtain ⟨⟨method, hreturns⟩, hrest⟩ := List.forall_mem_cons.mp h
      simp [hreturns.countCalls_eq, ih hrest]

/-- The stubbings of scopes call nothing. -/
theorem Stmt.countCallsIn_enclose {scopes : List StaticScope}
    (h : ∀ scope ∈ scopes, ∀ s ∈ scope.stubbings, s.IsAtomic) (body : List Stmt) :
    countCallsIn e (StaticScope.enclose scopes body) = countCallsIn e body := by
  induction scopes with
  | nil => rfl
  | cons scope rest ih =>
      obtain ⟨hscope, hrest⟩ := List.forall_mem_cons.mp h
      change countCallsIn e [.mockedStatic _ _ _ (StaticScope.enclose rest body)] = _
      simp [Stubbing.countCallsIn_eq hscope, ih hrest]

/-! ## The call of a run -/

/-- A statement makes a call: it only runs it, it declares its result, or it asserts that it
throws. -/
inductive Stmt.Makes (call : Expr) : Stmt → Prop
  | runs : Makes call (.eval call)
  | result (name : String) (type : DataType) :
    Makes call (.declare name type false (some call))
  | throws (exception : ClassName) : Makes call (.assertThrows (.classOf exception) [.eval call])

theorem Stmt.Makes.countCalls_eq {call : Expr} {s : Stmt} (h : s.Makes call) :
    s.countCalls e = call.countCalls e := by
  cases h <;> simp

/-- Some statements make a call once; the others around it rebuild values or call nothing. -/
def Stmt.MakeOnce (language : Language) (e : Executable) (call : Expr) (body : List Stmt) : Prop :=
  ∃ first made last, body = first ++ made :: last ∧ made.Makes call ∧
    ∀ s ∈ first ++ last, s.Rebuilds language ∨ s.countCalls e = 0

namespace Draft

variable {config : Config} {run : Execution} {d d' : Draft} {call : Expr}

/-- A build adds statements that make a call once. -/
def AddsCall (language : Language) (e : Executable) (call : Expr) (d d' : Draft) : Prop :=
  ∃ added, d'.statements = d.statements ++ added ∧ Stmt.MakeOnce language e call added

theorem addsCall_of_push {s : Stmt} {u : Unit} (hs : s.Makes call)
    (h : push s d = .ok u d') : AddsCall language e call d d' := by
  cases h
  exact ⟨[s], rfl, [], s, [], rfl, hs, by simp⟩

/-- A comment before the call changes nothing. -/
theorem addsCall_of_comment {text : String} {u : Unit}
    (h : (push (.comment text) >>= fun _ => push (.eval call)) d = .ok u d') :
    AddsCall language e call d d' := by
  obtain ⟨_, d₁, hcomment, h⟩ := Build.bind_eq_ok.mp h
  cases hcomment
  cases h
  exact ⟨[.comment text, .eval call], by simp, [.comment text], .eval call, [], rfl, .runs, by simp⟩

/-- The result of the call is declared, and what comes after that calls nothing. -/
theorem addsCall_of_declareActual {u : Unit} {f : Expr → Build Draft Unit}
    (h : (declareActual e call >>= f) d = .ok u d')
    (hrest : ∀ actual : Expr, actual.IsAtom → ∀ d₁, f actual d₁ = .ok u d' →
      ∃ added, d'.statements = d₁.statements ++ added ∧
        ∀ s ∈ added, s.Rebuilds language ∨ s.countCalls e = 0) :
    AddsCall language e call d d' := by
  obtain ⟨actual, d₁, hactual, h⟩ := Build.bind_eq_ok.mp h
  obtain ⟨d₂, hx, hblank⟩ := exists_draft_of_declareActual_ok hactual
  obtain ⟨rfl, rfl⟩ := eq_of_declare_ok hx
  cases hblank
  obtain ⟨added, hstatements, hadded⟩ := hrest _ (.ref _) _ h
  refine ⟨.declare (d.supply.claimVariable "actual").1 e.returnType false (some call) ::
    .blank :: added, ?_, [], _, _, rfl, .result _ e.returnType, ?_⟩
  · rw [hstatements]
    simp
  · simpa using hadded

/-- The assertion that a value is returned calls nothing. -/
theorem assertEqual_adds {v : Value} {actual : Expr} (hactual : actual.IsAtom) {u : Unit}
    (h : assertEqual language v actual d = .ok u d') :
    ∃ added, d'.statements = d.statements ++ added ∧
      ∀ s ∈ added, s.Rebuilds language ∨ s.countCalls e = 0 := by
  obtain ⟨expected, d₁, hexpected, h⟩ := Build.bind_eq_ok.mp h
  obtain ⟨⟨added, hstatements, hadded, -⟩, hatom⟩ := express_lays language _ v d _ d₁ hexpected
  have hpush : ∀ {s : Stmt} {d₂ : Draft}, push s d₂ = .ok u d' → d₂.statements = d₁.statements →
      s.countCalls e = 0 → ∃ added, d'.statements = d.statements ++ added ∧
        ∀ s ∈ added, s.Rebuilds language ∨ s.countCalls e = 0 := by
    intro s d₂ h hsame hs
    cases h
    refine ⟨added ++ [s], by simp [hsame, hstatements], List.forall_mem_append.mpr ⟨?_, ?_⟩⟩
    · exact fun t ht => Or.inl (hadded t ht)
    · exact List.forall_mem_singleton.mpr (Or.inr hs)
  split at h
  · obtain ⟨_, d₂, hrequire, h⟩ := Build.bind_eq_ok.mp h
    cases hrequire
    exact hpush h rfl (by simp [hatom.countCalls_eq, hactual.countCalls_eq])
  · exact hpush h rfl (by simp [hatom.countCalls_eq, hactual.countCalls_eq])

theorem checkResult_addsCall {value : Option Value} {u : Unit}
    (h : checkResult language e call (.ofResult language value) d = .ok u d') :
    AddsCall language e call d d' := by
  have hpush : ∀ {s : Stmt}, s.countCalls e = 0 → ∀ {d₁}, push s d₁ = .ok u d' →
      ∃ added, d'.statements = d₁.statements ++ added ∧
        ∀ s ∈ added, s.Rebuilds language ∨ s.countCalls e = 0 := by
    intro s hs d₁ h
    cases h
    exact ⟨[s], rfl, List.forall_mem_singleton.mpr (Or.inr hs)⟩
  cases value with
  | none => exact addsCall_of_push .runs h
  | some v =>
      simp only [ResultCheck.ofResult] at h
      split at h
      · exact addsCall_of_declareActual h fun actual hactual d₁ h =>
          hpush (by simp [hactual.countCalls_eq]) h
      · split at h
        · exact addsCall_of_declareActual h fun actual hactual d₁ h =>
            hpush (by simp [hactual.countCalls_eq]) h
        · exact addsCall_of_declareActual h fun actual hactual d₁ h => assertEqual_adds hactual h

/-- The statements for an outcome make the call once. -/
theorem checkOutcome_addsCall {u : Unit} (h : checkOutcome config e run call d = .ok u d') :
    AddsCall config.language e call d d' := by
  simp only [checkOutcome] at h
  cases houtcome : run.outcome with
  | success value =>
      simp only [houtcome] at h
      exact checkResult_addsCall h
  | runtimeFailure exception message kind =>
      simp only [houtcome] at h
      split at h
      · exact addsCall_of_push (.throws exception) h
      · exact addsCall_of_comment h
  | timeout limit =>
      simp only [houtcome] at h
      split at h
      · exact addsCall_of_comment h
      · exact addsCall_of_push .runs h
  | crash reason =>
      simp only [houtcome] at h
      exact addsCall_of_comment h

end Draft

end

end TestWriter
