import TestWriter.Proofs.Inversion
import TestWriter.Proofs.Tidy

/-!
# What builds have at hand

A build of a method body goes on a tidy trace.  Main statements: the build of a value keeps what was
at hand and adds the variables of its expression; whoever writes the expression into a statement may
put them down; and the check of an outcome uses up the call.
-/

namespace TestWriter

namespace Draft

/-- The statements of a draft go on a tidy trace, with some variables at hand. -/
def AtHand (scopes : Scopes) (reserved : List String) (past : List Event)
    (hand : String → Prop) (d : Draft) : Prop :=
  Tidy scopes reserved hand d.supply (past ++ Stmt.traceOf d.statements)

/-- A build goes from some variables at hand to others, wherever it starts. -/
def Hands {α : Type} (hand : String → Prop) (m : Build Draft α) (left : α → String → Prop)
    (result : α → Prop) : Prop :=
  ∀ scopes reserved past d a d', AtHand scopes reserved past hand d → m d = .ok a d' →
    AtHand scopes reserved past (left a) d' ∧ result a

/-- A build of an expression puts its variables at hand. -/
def Yields (hand : String → Prop) (m : Build Draft Expr) : Prop :=
  Hands hand m (fun e x => hand x ∨ Uses e.trace x) fun e => Reads e.trace

/-- A build of some expressions puts their variables at hand. -/
def YieldsEach (hand : String → Prop) (m : Build Draft (List Expr)) : Prop :=
  Hands hand m (fun es x => hand x ∨ Uses (Expr.traceOf es) x) fun es => Reads (Expr.traceOf es)

/-- A build of statements goes from some variables at hand to others. -/
def Turns (hand : String → Prop) (m : Build Draft Unit) (hand' : String → Prop) : Prop :=
  Hands hand m (fun _ => hand') fun _ => True

variable {hand hand' : String → Prop}

section

variable {α β : Type} {m : Build Draft α} {f : α → Build Draft β}
  {middle : α → String → Prop} {left : β → String → Prop} {P : α → Prop} {Q : β → Prop}

theorem Hands.pure {a : α} (hleft : ∀ x, middle a x ↔ hand x) (ha : P a) :
    Hands hand (Pure.pure a) middle P := by
  intro scopes reserved past d b d' hd h
  obtain ⟨rfl, rfl⟩ := Build.pure_eq_ok.mp h
  exact ⟨Tidy.congr hd hleft, ha⟩

theorem Hands.refuse (cause : BuildFailure) :
    Hands hand (Build.refuse cause : Build Draft α) middle P := by
  intro scopes reserved past d a d' _ h
  exact absurd h Build.refuse_ne_ok

theorem Hands.bind (hm : Hands hand m middle P)
    (hf : ∀ a, P a → Hands (middle a) (f a) left Q) : Hands hand (m >>= f) left Q := by
  intro scopes reserved past d b d'' hd h
  obtain ⟨a, d', hma, hfa⟩ := Build.bind_eq_ok.mp h
  obtain ⟨hd', ha⟩ := hm scopes reserved past d a d' hd hma
  exact hf a ha scopes reserved past d' b d'' hd' hfa

end

/-- An expression without variables. -/
theorem Yields.pure {e : Expr} (he : e.trace = []) : Yields hand (Pure.pure e) := by
  refine Hands.pure ?_ ?_
  · intro x
    simp [he]
  · rw [he]
    exact Reads.nil

theorem AtHand.push {scopes : Scopes} {reserved : List String} {past : List Event} {d : Draft}
    {s : Stmt} (h : Tidy scopes reserved hand' d.supply
      (past ++ Stmt.traceOf d.statements ++ s.trace)) :
    AtHand scopes reserved past hand' { d with statements := d.statements ++ [s] } := by
  simp only [AtHand]
  rw [Stmt.traceOf_append, Stmt.traceOf_singleton, ← List.append_assoc]
  exact h

/-- Write a statement that reads variables at hand. -/
theorem push_turns {s : Stmt} (hs : Spends hand s.trace hand') : Turns hand (push s) hand' := by
  intro scopes reserved past d u d' hd h
  cases h
  exact ⟨AtHand.push (Tidy.read hd hs), trivial⟩

/-- Write a statement that reads variables at hand in a scope of its own. -/
theorem pushWithin_turns {s : Stmt} {reads : List Event} (hs : Spends hand reads hand')
    (htrace : s.trace = .enter :: reads ++ [.leave]) : Turns hand (push s) hand' := by
  intro scopes reserved past d u d' hd h
  cases h
  refine ⟨AtHand.push ?_, trivial⟩
  rw [htrace]
  exact Tidy.readWithin hd hs

theorem require_turns (h : Helper) : Turns hand (require h) hand := by
  intro scopes reserved past d u d' hd hok
  cases hok
  exact ⟨hd, trivial⟩

theorem markMocks_turns : Turns hand markMocks hand := by
  intro scopes reserved past d u d' hd hok
  cases hok
  exact ⟨hd, trivial⟩

/-- Declare a variable, which is at hand from then on. -/
theorem declare_yields (base : String) (type : DataType) {initial : Expr}
    (hinitial : Spends hand initial.trace hand') :
    Hands hand (declare base type initial) (fun object x => hand' x ∨ Uses object.trace x)
      fun object => Reads object.trace := by
  intro scopes reserved past d object d' hd h
  obtain ⟨rfl, rfl⟩ := eq_of_declare_ok h
  constructor
  · refine AtHand.push (d := { d with supply := (d.supply.claimVariable base).2 }) ?_
    have hdeclared := (Tidy.read hd hinitial).declare base
    rw [List.append_assoc] at hdeclared
    refine Tidy.congr hdeclared ?_
    intro x
    simp [Expr.trace]
  · intro event hevent
    exact ⟨_, List.mem_singleton.mp hevent⟩

theorem allocate_yields (language : Language) (base : String) (owner : ClassName) :
    Yields hand (allocate language base owner) := by
  have hallocation : Spends hand (allocation language owner).trace hand := by
    cases language <;> exact Spends.nil
  simp only [allocate]
  split
  · exact (require_turns _).bind fun _ _ => declare_yields base _ hallocation
  · exact declare_yields base _ hallocation

theorem announce_turns (way : FieldWriting) : Turns hand way.announce hand := by
  cases way with
  | assignment => exact .pure (fun _ => Iff.rfl) trivial
  | helper => exact require_turns _
  | setattr => exact .pure (fun _ => Iff.rfl) trivial

theorem trace_statement (way : FieldWriting) (object : Expr) (name : String) (value : Expr) :
    (way.statement object name value).trace = object.trace ++ value.trace := by
  cases way <;> simp [FieldWriting.statement, Stmt.trace, Expr.trace, Expr.traceOf, Expr.str]

mutual

theorem express_yields (language : Language) (base : String) {hand : String → Prop} :
    ∀ v : Value, Yields hand (express language base v)
  | .literal l => .pure rfl
  | .enumConstant owner name => .pure rfl
  | .array element values => by
      refine (expressEach_yields language _ 0 values).bind fun es hes => ?_
      exact declare_yields base _ (Spends.spend hes)
  | .composite owner arguments fields => by
      simp only [express]
      split
      · exact .refuse _
      · refine (expressEach_yields language _ 0 arguments).bind fun es hes => ?_
        have hnew : Spends _ (Expr.construct owner es).trace hand := Spends.spend hes
        refine (declare_yields base _ hnew).bind fun object hobject => ?_
        refine (writeFields_turns language _ hobject (fun _ => Or.inr) fields).bind fun _ _ => ?_
        exact .pure (fun _ => Iff.rfl) hobject
  | .reflective owner fields => by
      refine (allocate_yields language base owner).bind fun object hobject => ?_
      refine (writeFields_turns language _ hobject (fun _ => Or.inr) fields).bind fun _ _ => ?_
      exact .pure (fun _ => Iff.rfl) hobject
  | .mock owner stubs => by
      simp only [express]
      split
      · refine markMocks_turns.bind fun _ _ => ?_
        refine (declare_yields base _ Spends.nil).bind fun object hobject => ?_
        refine (addStubs_turns language hobject (fun _ => Or.inr) stubs).bind fun _ _ => ?_
        exact .pure (fun _ => Iff.rfl) hobject
      · exact .refuse _

theorem expressEach_yields (language : Language) (base : Nat → String) (index : Nat)
    {hand : String → Prop} :
    ∀ vs : List Value, YieldsEach hand (expressEach language base index vs)
  | [] => .pure (fun x => by simp [Expr.traceOf]) Reads.nil
  | v :: rest => by
      refine (express_yields language (base index) v).bind fun e he => ?_
      refine (expressEach_yields language base (index + 1) rest).bind fun es hes => ?_
      refine .pure ?_ (he.append hes)
      intro x
      simp [Expr.traceOf, or_assoc]

theorem writeFields_turns (language : Language) (way : FieldWriting) {object : Expr}
    {hand : String → Prop} (hobject : Reads object.trace)
    (hhand : ∀ x, Uses object.trace x → hand x) :
    ∀ fields : List Field, Turns hand (writeFields language way object fields) hand
  | [] => .pure (fun _ => Iff.rfl) trivial
  | .mk name v :: rest => by
      simp only [writeFields]
      refine (announce_turns way).bind fun _ _ => ?_
      refine (express_yields language name v).bind fun e he => ?_
      refine Hands.bind (push_turns ?_) fun _ _ =>
        writeFields_turns language way hobject hhand rest
      rw [trace_statement]
      exact (Spends.look hobject fun x hx => Or.inl (hhand x hx)).append (Spends.spend he)

theorem addStubs_turns (language : Language) {object : Expr} {hand : String → Prop}
    (hobject : Reads object.trace) (hhand : ∀ x, Uses object.trace x → hand x) :
    ∀ stubs : List Stub, Turns hand (addStubs language object stubs) hand
  | [] => .pure (fun _ => Iff.rfl) trivial
  | .mk method arguments returns :: rest => by
      simp only [addStubs]
      refine (expressEach_yields language _ 0 arguments).bind fun es hes => ?_
      refine (express_yields language (method ++ "Result") returns).bind fun e he => ?_
      refine Hands.bind (push_turns ?_) fun _ _ => addStubs_turns language hobject hhand rest
      refine (Spends.look hobject fun x hx => Or.inl (Or.inl (hhand x hx))).append ?_
      exact ((Spends.spend hes).frame _).append (Spends.spend he)

end

/-! ## Calls -/

theorem checkCount_turns (e : Executable) (run : Execution) :
    Turns hand (checkCount e run) hand := by
  simp only [checkCount]
  split
  · exact .pure (fun _ => Iff.rfl) trivial
  · exact .refuse _

/-- Only a method has a receiver with variables. -/
theorem targetOfRun_yields (language : Language) (e : Executable) (run : Execution) :
    Hands hand (targetOfRun language e run) (fun target x => hand x ∨ Uses target.trace x)
      fun target => Reads target.trace ∧ (e.kind ≠ .method → target.trace = []) := by
  have hnull : Hands hand (Pure.pure Expr.null) (fun target x => hand x ∨ Uses target.trace x)
      fun target => Reads target.trace ∧ (e.kind ≠ .method → target.trace = []) := by
    refine .pure ?_ ⟨Reads.nil, fun _ => rfl⟩
    intro x
    exact or_iff_left List.not_mem_nil
  simp only [targetOfRun]
  split
  · next hkind =>
    split
    · intro scopes reserved past d target d' hd h
      have hvalue := express_yields language e.receiverName _ scopes reserved past d target d' hd h
      exact ⟨hvalue.1, hvalue.2, fun hother => absurd hkind hother⟩
    · exact .refuse _
  · split
    · exact .refuse _
    · exact hnull
  · exact hnull
  · exact hnull

end Draft

theorem Executable.trace_call {e : Executable} {target : Expr} {arguments : List Expr}
    (h : e.kind ≠ .method → target.trace = []) :
    (e.call target arguments).trace = target.trace ++ Expr.traceOf arguments := by
  simp only [call]
  cases hkind : e.kind with
  | method => rfl
  | staticMethod =>
      rw [h (by rw [hkind]; decide)]
      rfl
  | function =>
      rw [h (by rw [hkind]; decide)]
      rfl
  | constructor =>
      rw [h (by rw [hkind]; decide)]
      rfl

namespace Draft

variable {hand : String → Prop} {language : Language}

theorem callOfRun_yields (e : Executable) (names : List String) (run : Execution) :
    Yields hand (callOfRun language e names run) := by
  refine (checkCount_turns e run).bind fun _ _ => ?_
  refine (targetOfRun_yields language e run).bind fun target htarget => ?_
  obtain ⟨hreads, hkind⟩ := htarget
  refine (expressEach_yields language _ 0 run.arguments).bind fun arguments harguments => ?_
  refine .pure ?_ ?_
  · intro x
    rw [Executable.trace_call hkind, Uses, List.mem_append, or_assoc]
  · rw [Executable.trace_call hkind]
    exact hreads.append harguments

theorem declareActual_yields (e : Executable) {call : Expr} {hand' : String → Prop}
    (hcall : Spends hand call.trace hand') :
    Hands hand (declareActual e call) (fun actual x => hand' x ∨ Uses actual.trace x)
      fun actual => Reads actual.trace := by
  refine (declare_yields _ _ hcall).bind fun actual hactual => ?_
  refine Hands.bind (push_turns Spends.nil) fun _ _ => ?_
  exact .pure (fun _ => Iff.rfl) hactual

/-- The assertion writes down the actual value. -/
theorem assertEqual_turns (v : Value) {actual : Expr} (hactual : Reads actual.trace) :
    Turns (fun x => hand x ∨ Uses actual.trace x) (assertEqual language v actual) hand := by
  refine (express_yields language _ v).bind fun expected hexpected => ?_
  have hboth : Spends (fun x => (hand x ∨ Uses actual.trace x) ∨ Uses expected.trace x)
      (expected.trace ++ actual.trace) hand :=
    (Spends.spend hexpected).append (Spends.spend hactual)
  split
  · refine (require_turns _).bind fun _ _ => push_turns ?_
    simpa [Stmt.trace, Expr.trace, Expr.traceOf] using hboth
  · exact push_turns hboth

theorem checkResult_turns (e : Executable) {call : Expr} (hcall : Reads call.trace)
    (check : ResultCheck) :
    Turns (fun x => hand x ∨ Uses call.trace x) (checkResult language e call check) hand := by
  have hcall' : Spends (fun x => hand x ∨ Uses call.trace x) call.trace hand :=
    Spends.spend hcall
  have hactual := declareActual_yields e hcall'
  cases check with
  | ignored => exact push_turns hcall'
  | isNull => exact hactual.bind fun actual hreads => push_turns (Spends.spend hreads)
  | isNaN =>
      refine hactual.bind fun actual hreads => push_turns ?_
      exact (Spends.look hreads fun _ => Or.inr).append (Spends.spend hreads)
  | equals v => exact hactual.bind fun actual hreads => assertEqual_turns v hreads

/-- The check of an outcome writes down the call. -/
theorem checkOutcome_turns (config : Config) (e : Executable) (run : Execution) {call : Expr}
    (hcall : Reads call.trace) :
    Turns (fun x => hand x ∨ Uses call.trace x) (checkOutcome config e run call) hand := by
  have heval : Turns (fun x => hand x ∨ Uses call.trace x) (push (.eval call)) hand :=
    push_turns (Spends.spend hcall)
  have hcomment : ∀ text, Turns (fun x => hand x ∨ Uses call.trace x) (push (.comment text))
      fun x => hand x ∨ Uses call.trace x := fun text => push_turns Spends.nil
  simp only [checkOutcome]
  cases run.outcome with
  | success value => exact checkResult_turns e hcall _
  | runtimeFailure exception message kind =>
      dsimp only
      split
      · refine pushWithin_turns (Spends.spend hcall) ?_
        simp [Stmt.trace, Stmt.traceOf, Expr.trace]
      · exact (hcomment _).bind fun _ _ => heval
  | timeout limit =>
      dsimp only
      split
      · exact (hcomment _).bind fun _ _ => heval
      · exact heval
  | crash reason => exact (hcomment _).bind fun _ _ => heval

theorem markStatics_turns (stubs : List (ClassName × List StaticStub)) :
    Turns hand (markStatics stubs) hand := by
  simp only [markStatics]
  split
  · exact .pure (fun _ => Iff.rfl) trivial
  · exact markMocks_turns

/-! ## Rows of tables -/

theorem cellExpr_yields (e : Executable) (run : Execution) (c : Column) :
    Yields hand (cellExpr language e run c) := by
  simp only [cellExpr]
  cases run.cell c.role with
  | value v => exact express_yields language _ v
  | exception owner => exact .pure rfl
  | absent =>
      dsimp only
      split
      · exact .refuse _
      · exact .pure rfl

theorem cellExprs_yields (e : Executable) (run : Execution) (columns : List Column)
    {hand : String → Prop} : YieldsEach hand (cellExprs language e run columns) := by
  induction columns generalizing hand with
  | nil => exact .pure (fun x => by simp [Expr.traceOf]) Reads.nil
  | cons c rest ih =>
      refine (cellExpr_yields e run c).bind fun cell hcell => ih.bind fun cells hcells => ?_
      refine .pure ?_ (hcell.append hcells)
      intro x
      simp [Expr.traceOf, or_assoc]

theorem tableRows_yields (e : Executable) (columns : List Column) (rows : List Execution)
    {hand : String → Prop} : YieldsEach hand (tableRows language e columns rows) := by
  induction rows generalizing hand with
  | nil => exact .pure (fun x => by simp [Expr.traceOf]) Reads.nil
  | cons run rest ih =>
      refine (checkCount_turns e run).bind fun _ _ => ?_
      refine (cellExprs_yields e run columns).bind fun cells hcells => ih.bind fun rows hrows => ?_
      refine .pure ?_ (hcells.append hrows)
      intro x
      simp [Expr.traceOf, Expr.trace, or_assoc]

theorem assertExpected_turns (returnType : DataType) {expected actual : Expr}
    (hexpected : Reads expected.trace) (hhand : ∀ x, Uses expected.trace x → hand x)
    (hactual : Reads actual.trace) :
    Turns (fun x => hand x ∨ Uses actual.trace x)
      (assertExpected language returnType expected actual) hand := by
  have hboth : Spends (fun x => hand x ∨ Uses actual.trace x) (expected.trace ++ actual.trace)
      hand := (Spends.look hexpected fun x hx => Or.inl (hhand x hx)).append (Spends.spend hactual)
  simp only [assertExpected]
  split
  · refine (require_turns _).bind fun _ _ => push_turns ?_
    simpa [Stmt.trace, Expr.trace, Expr.traceOf] using hboth
  · split
    · next p _ =>
      refine push_turns ?_
      cases p <;> exact hboth
    all_goals exact push_turns hboth

end Draft

end TestWriter
