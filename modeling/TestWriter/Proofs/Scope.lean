import TestWriter.Suite.Trace

/-!
# Scopes along a trace

Main statements: a trace is scoped when its parts are, each in the scopes that the parts before it
leave; and code closes every scope that it opens and no other.
-/

namespace TestWriter

theorem Scopes.holds_add {scopes : Scopes} {name x : String} :
    (scopes.add name).Holds x ↔ x = name ∨ scopes.Holds x := by
  simp only [Holds]
  cases scopes with
  | nil => simp [add]
  | cons scope outer =>
      simp only [add, List.mem_cons, exists_eq_or_imp, or_assoc]

/-- The scopes after a trace. -/
def scopesAfter (scopes : Scopes) (trace : List Event) : Scopes := trace.foldl Event.apply scopes

theorem scopesAfter_append (scopes : Scopes) (trace more : List Event) :
    scopesAfter scopes (trace ++ more) = scopesAfter (scopesAfter scopes trace) more :=
  List.foldl_append

theorem scoped_append {scopes : Scopes} {trace more : List Event} :
    Scoped scopes (trace ++ more) ↔
      Scoped scopes trace ∧ Scoped (scopesAfter scopes trace) more := by
  induction trace generalizing scopes with
  | nil => simp [Scoped, scopesAfter]
  | cons event rest ih =>
      rw [List.cons_append, Scoped, Scoped, ih, and_assoc]
      rfl

theorem boundIn_append (trace more : List Event) :
    boundIn (trace ++ more) = boundIn trace ++ boundIn more :=
  List.filterMap_append

/-! ## Traces that only use variables -/

/-- A trace that only uses variables. -/
def Reads (trace : List Event) : Prop := ∀ event ∈ trace, ∃ name, event = .use name

variable {trace more : List Event} {scopes : Scopes}

theorem Reads.nil : Reads [] := by
  intro event h
  cases h

theorem Reads.append (h : Reads trace) (hmore : Reads more) : Reads (trace ++ more) := by
  intro event hevent
  rcases List.mem_append.mp hevent with hevent | hevent
  · exact h event hevent
  · exact hmore event hevent

theorem Reads.tail {event : Event} (h : Reads (event :: trace)) : Reads trace :=
  fun e he => h e (List.mem_cons_of_mem _ he)

theorem Reads.scopesAfter_eq (h : Reads trace) : scopesAfter scopes trace = scopes := by
  induction trace with
  | nil => rfl
  | cons event rest ih =>
      obtain ⟨name, rfl⟩ := h event List.mem_cons_self
      exact ih h.tail

theorem Reads.boundIn_eq (h : Reads trace) : boundIn trace = [] := by
  refine List.filterMap_eq_nil_iff.mpr ?_
  intro event hevent
  obtain ⟨name, rfl⟩ := h event hevent
  rfl

theorem Reads.scoped_iff (h : Reads trace) :
    Scoped scopes trace ↔ ∀ name, Event.use name ∈ trace → scopes.Holds name := by
  induction trace with
  | nil => simp [Scoped]
  | cons event rest ih =>
      obtain ⟨name, rfl⟩ := h event List.mem_cons_self
      change scopes.Holds name ∧ Scoped scopes rest ↔ _
      rw [ih h.tail]
      simp

/-! ## Code closes its scopes -/

/-- A trace that leaves the outer scopes as they are. -/
def Level (trace : List Event) : Prop :=
  ∀ scope outer, ∃ inner, scopesAfter (scope :: outer) trace = inner :: outer

theorem Reads.level (h : Reads trace) : Level trace := fun scope _ => ⟨scope, h.scopesAfter_eq⟩

theorem Level.nil : Level [] := fun scope _ => ⟨scope, rfl⟩

theorem Level.append (h : Level trace) (hmore : Level more) : Level (trace ++ more) := by
  intro scope outer
  obtain ⟨inner, heq⟩ := h scope outer
  obtain ⟨inner', heq'⟩ := hmore inner outer
  exact ⟨inner', by rw [scopesAfter_append, heq, heq']⟩

theorem Level.declare (name : String) : Level [.declare name] := fun _ _ => ⟨_, rfl⟩

theorem Level.bind (name : String) : Level [.bind name] := fun _ _ => ⟨_, rfl⟩

theorem Level.use (name : String) : Level [.use name] := fun _ _ => ⟨_, rfl⟩

theorem Level.binds (ps : List Parameter) : Level (ps.map fun p => .bind p.name) := by
  induction ps with
  | nil => exact Level.nil
  | cons p rest ih => exact (Level.bind p.name).append ih

theorem Level.scope (h : Level trace) : Level (.enter :: trace ++ [.leave]) := by
  intro scope outer
  obtain ⟨inner, heq⟩ := h [] (scope :: outer)
  refine ⟨scope, ?_⟩
  rw [List.cons_append]
  change scopesAfter ([] :: scope :: outer) (trace ++ [.leave]) = _
  rw [scopesAfter_append, heq]
  rfl

section

attribute [local simp] Expr.trace Expr.traceOf Stmt.trace Stmt.traceOf Stubbing.trace
  Stubbing.traceOf SwitchCase.traceOf

mutual

theorem Expr.trace_level : ∀ e : Expr, Level e.trace
  | .ref name => Level.use name
  | .literal _ | .staticField _ _ | .allocate _ _ | .classOf _ | .mock _ => Level.nil
  | .construct _ arguments => Expr.traceOf_level arguments
  | .callStatic _ _ arguments => Expr.traceOf_level arguments
  | .callModule _ _ arguments => Expr.traceOf_level arguments
  | .callHelper _ arguments => Expr.traceOf_level arguments
  | .callOn receiver _ arguments =>
      (Expr.trace_level receiver).append (Expr.traceOf_level arguments)
  | .field target _ => Expr.trace_level target
  | .element array index => (Expr.trace_level array).append (Expr.trace_level index)
  | .arrayOf _ values => Expr.traceOf_level values
  | .lambda ps body => ((Level.binds ps).append (Stmt.traceOf_level body)).scope
  | .equal left right => (Expr.trace_level left).append (Expr.trace_level right)
  | .logical _ left right => (Expr.trace_level left).append (Expr.trace_level right)
  | .not operand => Expr.trace_level operand
  | .cast _ operand => Expr.trace_level operand
  | .notNull operand => Expr.trace_level operand
  | .length operand => Expr.trace_level operand

theorem Expr.traceOf_level : ∀ es : List Expr, Level (Expr.traceOf es)
  | [] => Level.nil
  | e :: rest => (Expr.trace_level e).append (Expr.traceOf_level rest)

theorem Stmt.trace_level : ∀ s : Stmt, Level s.trace
  | .declare name _ _ none => Level.declare name
  | .declare name _ _ (some e) => (Expr.trace_level e).append (Level.declare name)
  | .assign target value => (Expr.trace_level target).append (Expr.trace_level value)
  | .eval e => Expr.trace_level e
  | .ret none => Level.nil
  | .ret (some e) => Expr.trace_level e
  | .branch condition thenBody elseBody => by
      have hthen := (Stmt.traceOf_level thenBody).scope
      have helse := (Stmt.traceOf_level elseBody).scope
      simpa using (Expr.trace_level condition).append (hthen.append helse)
  | .switch value cases default => by
      have hdefault := (Stmt.traceOf_level default).scope
      have hcases := (SwitchCase.traceOf_level cases).append hdefault
      simpa using (Expr.trace_level value).append hcases
  | .throw value => Expr.trace_level value
  | .mockedStatic handle _ stubbings body => by
      have hbody := (Stubbing.traceOf_level stubbings).append (Stmt.traceOf_level body)
      simpa using ((Level.bind handle).append hbody).scope
  | .stub mock stubbing => (Expr.trace_level mock).append (Stubbing.trace_level stubbing)
  | .assertEquals expected actual _ _ =>
      (Expr.trace_level expected).append (Expr.trace_level actual)
  | .assertTrue condition => Expr.trace_level condition
  | .assertNull value => Expr.trace_level value
  | .assertThrows exception body => by
      have hbody := (Stmt.traceOf_level body).scope
      simpa using (Expr.trace_level exception).append hbody
  | .fail _ => Level.nil
  | .comment _ => Level.nil
  | .comments _ => Level.nil
  | .blank => Level.nil

/-- Statements leave the outer scopes as they are. -/
theorem Stmt.traceOf_level : ∀ body : List Stmt, Level (Stmt.traceOf body)
  | [] => Level.nil
  | s :: rest => (Stmt.trace_level s).append (Stmt.traceOf_level rest)

theorem Stubbing.trace_level : ∀ s : Stubbing, Level s.trace
  | .mk _ arguments returns => (Expr.traceOf_level arguments).append (Expr.trace_level returns)

theorem Stubbing.traceOf_level : ∀ stubbings : List Stubbing, Level (Stubbing.traceOf stubbings)
  | [] => Level.nil
  | s :: rest => (Stubbing.trace_level s).append (Stubbing.traceOf_level rest)

theorem SwitchCase.traceOf_level : ∀ cases : List SwitchCase, Level (SwitchCase.traceOf cases)
  | [] => Level.nil
  | .mk _ body :: rest => by
      have hbody := (Stmt.traceOf_level body).scope
      simpa using hbody.append (SwitchCase.traceOf_level rest)

end

theorem Stmt.traceOf_append (body more : List Stmt) :
    traceOf (body ++ more) = traceOf body ++ traceOf more := by
  induction body with
  | nil => rfl
  | cons s rest ih => simp [ih]

theorem Stmt.traceOf_singleton (s : Stmt) : traceOf [s] = s.trace := by
  simp

end

end TestWriter
