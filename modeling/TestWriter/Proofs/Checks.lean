import TestWriter.Proofs.TableRows

/-!
# What tests check

The last statement of a test makes its check: that the call of a run throws, that it returns a value,
or only that it can be made.  What the expressions in it are is read off the statements before it,
which rebuild values.  Main statement: the test of a run that stubs no static methods makes one
check, which its outcome and the configuration decide.
-/

namespace TestWriter

open Memory (KeepsAll)

/-! ## Checks -/

/-- What a test checks of the call that it makes. -/
inductive Check
  /-- The call throws an instance of a class. -/
  | throws (exception : ClassName)
  /-- The call returns a value. -/
  | returns (expected : Value)
  /-- The call returns the number that differs from itself. -/
  | returnsNaN
  /-- The call is only run. -/
  | runs

/-- The check that a call returns a value; some tests look for a NaN without a second one. -/
def Check.ofValue (v : Value) : Check :=
  if v.isNaN then .returnsNaN else .returns v

/-- How expressions are read: which of them stand for a value, and which of them are a class. -/
structure Reading where
  stands : Expr → Value → Prop
  names : Expr → ClassName → Prop

/-- No expression stands for two values or is two classes. -/
structure Reading.Functional (r : Reading) : Prop where
  stands {x : Expr} {v w : Value} : r.stands x v → r.stands x w → v = w
  names {x : Expr} {c c' : ClassName} : r.names x c → r.names x c' → c = c'

/-- An expression calls an executable with the receiver and the arguments of a run. -/
inductive Reading.Calls (r : Reading) (e : Executable) (run : Execution) : Expr → Prop
  | mk {receiver : Expr} {arguments : List Expr}
    (hreceiver : e.kind = .method → ∃ v, run.receiver = some v ∧ r.stands receiver v)
    (harguments : List.Forall₂ r.stands arguments run.arguments) :
    Calls r e run (e.call receiver arguments)

/-- An expression is a variable that some statements declare with the result of the call. -/
inductive Reading.IsResult (r : Reading) (e : Executable) (run : Execution) (before : List Stmt) :
    Expr → Prop
  | mk {name : String} {type : DataType} {call : Expr} (hcall : r.Calls e run call)
    (hdeclared : Stmt.declare name type false (some call) ∈ before) :
    IsResult r e run before (.ref name)

namespace Stmt

/-- A statement that comes after others makes a check of the call of a run. -/
inductive Checks (r : Reading) (e : Executable) (run : Execution) (before : List Stmt) :
    Stmt → Check → Prop
  | throws {exception call : Expr} {owner : ClassName} (hexception : r.names exception owner)
    (hcall : r.Calls e run call) :
    Checks r e run before (.assertThrows exception [.eval call]) (.throws owner)
  | isNull {actual : Expr} (hactual : r.IsResult e run before actual) :
    Checks r e run before (.assertNull actual) (.returns (.literal .null))
  | isNaN {actual : Expr} (hactual : r.IsResult e run before actual) :
    Checks r e run before (.assertTrue (.not (.equal actual actual))) .returnsNaN
  | equals {expected actual : Expr} {v : Value} (delta : Option Literal) (deep : Bool)
    (hexpected : r.stands expected v) (hactual : r.IsResult e run before actual) :
    Checks r e run before (.assertEquals expected actual delta deep) (.ofValue v)
  | deepEquals {expected actual : Expr} {v : Value} (hexpected : r.stands expected v)
    (hactual : r.IsResult e run before actual) :
    Checks r e run before (.assertTrue (.callHelper .deepEquals [expected, actual])) (.ofValue v)
  | runs {call : Expr} (hcall : r.Calls e run call) : Checks r e run before (.eval call) .runs

/-- Whether a statement asserts nothing, ends nothing and holds no other statements. -/
def isPlain : Stmt → Bool
  | .declare .. | .assign .. | .eval _ | .stub .. | .comment _ | .comments _ | .blank => true
  | _ => false

/-- Statements perform a check: the last of them makes it, after plain ones by which it is read. -/
def Perform (reading : List Stmt → Reading) (e : Executable) (run : Execution) (body : List Stmt)
    (c : Check) : Prop :=
  ∃ before last, body = before ++ [last] ∧ (∀ s ∈ before, s.isPlain = true) ∧
    last.Checks (reading before) e run before c

/-- The memory after some statements; those that rebuild nothing leave it as it is. -/
def remember (body : List Stmt) (m : Memory) : Memory :=
  body.foldl (fun m s => (s.run m).getD m) m

end Stmt

/-- How expressions are read in a memory. -/
def Memory.reading (m : Memory) : Reading where
  stands x v := x.StandsFor m 0 v
  names x owner := x = .classOf owner

/-- A test makes a check of the call of a run, whatever the memory in which it starts. -/
def Method.Checks (t : Method) (e : Executable) (run : Execution) (c : Check) : Prop :=
  ∀ m, Stmt.Perform (fun before => (Stmt.remember before m).reading) e run t.body c

/-- The check of the test of a run: a failure is asserted or let through, and a value is compared
with. -/
def Execution.check (run : Execution) (config : Config) (e : Executable) : Check :=
  match run.outcome with
  | .success _ => ((run.result? e).map Check.ofValue).getD .runs
  | .runtimeFailure exception _ kind =>
    if config.assertsFailure kind then .throws exception else .runs
  | .timeout _ | .crash _ => .runs

/-! ## One check at most -/

theorem Expr.StandsFor.unique {x : Expr} {m : Memory} {first lower : Nat} {v w : Value}
    (h : x.StandsFor m first v) (h' : x.StandsFor m lower w) : v = w := by
  obtain ⟨d, heval, hdescribes⟩ := h
  obtain ⟨d', heval', hdescribes'⟩ := h'
  cases heval.symm.trans heval'
  exact hdescribes.unique hdescribes'

theorem Memory.functional_reading (m : Memory) : m.reading.Functional where
  stands h h' := h.unique h'
  names := by
    rintro _ c c' rfl h
    cases h
    rfl

namespace Stmt

variable {r : Reading} {e : Executable} {run : Execution} {before more : List Stmt} {s : Stmt}
  {c c' : Check}

theorem Checks.unique (hr : r.Functional) (h : s.Checks r e run before c)
    (h' : s.Checks r e run before c') : c = c' := by
  cases h with
  | throws hexception _ =>
      cases h' with
      | throws hexception' _ => rw [hr.names hexception hexception']
  | isNull _ => cases h'; rfl
  | isNaN _ => cases h'; rfl
  | equals _ _ hexpected _ =>
      cases h' with
      | equals _ _ hexpected' _ => rw [hr.stands hexpected hexpected']
  | deepEquals hexpected _ =>
      cases h' with
      | deepEquals hexpected' _ => rw [hr.stands hexpected hexpected']
  | runs _ => cases h'; rfl

/-- A check is made as well after more statements. -/
theorem Checks.mono (h : s.Checks r e run before c) (hsub : ∀ s ∈ before, s ∈ more) :
    s.Checks r e run more c := by
  have hresult : ∀ {x}, r.IsResult e run before x → r.IsResult e run more x := by
    rintro _ ⟨hcall, hdeclared⟩
    exact .mk hcall (hsub _ hdeclared)
  cases h with
  | throws hexception hcall => exact .throws hexception hcall
  | isNull hactual => exact .isNull (hresult hactual)
  | isNaN hactual => exact .isNaN (hresult hactual)
  | equals delta deep hexpected hactual => exact .equals delta deep hexpected (hresult hactual)
  | deepEquals hexpected hactual => exact .deepEquals hexpected (hresult hactual)
  | runs hcall => exact .runs hcall

theorem Perform.unique {reading : List Stmt → Reading} (hr : ∀ before, (reading before).Functional)
    {body : List Stmt} (h : Perform reading e run body c) (h' : Perform reading e run body c') :
    c = c' := by
  obtain ⟨before, last, rfl, -, hchecks⟩ := h
  obtain ⟨before', last', heq, -, hchecks'⟩ := h'
  obtain ⟨rfl, hlast⟩ := List.append_inj' heq rfl
  cases hlast
  exact hchecks.unique (hr _) hchecks'

theorem remember_append (ss ts : List Stmt) (m : Memory) :
    remember (ss ++ ts) m = remember ts (remember ss m) :=
  List.foldl_append

/-- Nothing is skipped when all statements run. -/
theorem remember_eq {body : List Stmt} {m m' : Memory} (h : runAll body m = some m') :
    remember body m = m' := by
  induction body generalizing m with
  | nil => exact Option.some.inj h
  | cons s rest ih =>
      obtain ⟨m₁, hrun, hrest⟩ := Option.bind_eq_some_iff.mp h
      rw [remember, List.foldl_cons, hrun]
      exact ih hrest

end Stmt

/-- Only blank lines separate statements, and they leave every memory as it is. -/
theorem apart_eq_append (before after : List Stmt) :
    ∃ gap, apart before after = before ++ gap ++ after ∧ (∀ s ∈ gap, s = .blank) ∧
      ∀ m, Stmt.remember gap m = m := by
  by_cases hempty : before.isEmpty = true
  · refine ⟨[], ?_, List.forall_mem_nil _, fun m => rfl⟩
    rw [apart, if_pos hempty, List.isEmpty_iff.mp hempty, List.append_nil, List.nil_append]
  · refine ⟨[.blank], ?_, List.forall_mem_singleton.mpr rfl, fun m => rfl⟩
    rw [apart, if_neg hempty, List.append_assoc, List.singleton_append]

/-- The test makes a check if it makes it in every memory, and no other one. -/
theorem Method.checks_iff {t : Method} {e : Executable} {run : Execution} {c : Check}
    (h : t.Checks e run c) (d : Check) : t.Checks e run d ↔ d = c := by
  constructor
  · intro hd
    exact (hd ⟨[], []⟩).unique (fun _ => Memory.functional_reading _) (h ⟨[], []⟩)
  · rintro rfl
    exact h

/-! ## What is kept -/

theorem Memory.keepsAll_allocate (s : NameSupply) (m : Memory) (o : Object) :
    KeepsAll s m (m.allocate o).2 where
  bindings _ _ := rfl
  objects _ _ _ ho := by
    obtain ⟨hbound, -⟩ := List.getElem?_eq_some_iff.mp ho
    exact (List.getElem?_append_left hbound).trans ho

mutual

/-- An expression binds no variable and changes no object. -/
theorem Expr.keepsAll_of_eval (s : NameSupply) {m m' : Memory} {d : Datum} (x : Expr)
    (h : x.eval m = some (d, m')) : KeepsAll s m m' := by
  have hobject : ∀ {m₁ o}, KeepsAll s m m₁ → m₁.allocate o = (d, m') → KeepsAll s m m' := by
    intro m₁ o hkeeps hm'
    have hlater := Memory.keepsAll_allocate s m₁ o
    rw [hm'] at hlater
    exact hkeeps.trans (fun _ h => h) hlater
  cases x with
  | literal l => cases h; exact .refl m
  | staticField owner name => cases h; exact .refl m
  | ref name =>
      obtain ⟨value, -, hvalue⟩ := Option.map_eq_some_iff.mp h
      cases hvalue
      exact .refl m
  | mock owner => exact hobject (.refl m) (Option.some.inj h)
  | arrayOf type values =>
      obtain ⟨⟨data, m₁⟩, heach, h⟩ := Option.bind_eq_some_iff.mp h
      exact hobject (Expr.keepsAll_of_evalEach s values heach) (Option.some.inj h)
  | construct owner arguments =>
      obtain ⟨⟨data, m₁⟩, heach, h⟩ := Option.bind_eq_some_iff.mp h
      exact hobject (Expr.keepsAll_of_evalEach s arguments heach) (Option.some.inj h)
  | _ =>
      simp only [Expr.eval] at h
      obtain ⟨owner, -, h⟩ := Option.map_eq_some_iff.mp h
      exact hobject (.refl m) h

theorem Expr.keepsAll_of_evalEach (s : NameSupply) {m m' : Memory} {data : List Datum} :
    ∀ xs : List Expr, Expr.evalEach xs m = some (data, m') → KeepsAll s m m'
  | [], h => by
      cases h
      exact .refl m
  | x :: rest, h => by
      obtain ⟨⟨d, m₁⟩, hx, h⟩ := Option.bind_eq_some_iff.mp h
      obtain ⟨⟨data, m₂⟩, hrest, h⟩ := Option.bind_eq_some_iff.mp h
      cases h
      exact (Expr.keepsAll_of_eval s x hx).trans (fun _ h => h)
        (Expr.keepsAll_of_evalEach s rest hrest)

end

/-- A declaration changes no object and no variable but its own. -/
theorem Stmt.keepsAll_of_declare {s : NameSupply} {name : String} {type : DataType} {x : Expr}
    (hfree : s.isTaken name = false) {m : Memory} :
    KeepsAll s m (remember [.declare name type false (some x)] m) := by
  simp only [remember, List.foldl_cons, List.foldl_nil, run]
  cases hx : x.eval m with
  | none => exact .refl m
  | some result =>
      obtain ⟨d, m'⟩ := result
      have hkeeps := Expr.keepsAll_of_eval s x hx
      refine ⟨fun y hy => ?_, hkeeps.objects⟩
      refine (Memory.lookup?_bind m' name y d).trans ((if_neg ?_).trans (hkeeps.bindings y hy))
      rintro rfl
      rw [hfree] at hy
      cases hy

namespace Draft

/-- The statements that were added are plain, leave all variables whose names were taken and all
objects as they are, and afterwards something holds as long as the variables and objects are kept. -/
structure Recalls (d d' : Draft) (added : List Stmt) (Q : Memory → Prop) : Prop
    extends Adds d d' added where
  plain : ∀ s ∈ added, s.isPlain = true
  keeps : ∀ m, KeepsAll d.supply m (Stmt.remember added m)
  holds : ∀ m m', KeepsAll d'.supply (Stmt.remember added m) m' → Q m'

variable {d d' d'' : Draft} {added more : List Stmt} {Q R : Memory → Prop}

theorem Recalls.refl (h : ∀ m, Q m) : Recalls d d [] Q :=
  ⟨.refl d, List.forall_mem_nil _, fun m => .refl m, fun _ m' _ => h m'⟩

theorem Recalls.weaken (h : Recalls d d' added Q) (hQ : ∀ m, Q m → R m) : Recalls d d' added R :=
  ⟨h.toAdds, h.plain, h.keeps, fun m m' hm' => hQ m' (h.holds m m' hm')⟩

theorem Recalls.trans (h : Recalls d d' added Q) (h' : Recalls d' d'' more R) :
    Recalls d d'' (added ++ more) fun m => Q m ∧ R m := by
  refine ⟨h.toAdds.trans h'.toAdds, List.forall_mem_append.mpr ⟨h.plain, h'.plain⟩, ?_, ?_⟩
  · intro m
    rw [Stmt.remember_append]
    exact (h.keeps m).trans h.taken (h'.keeps _)
  · intro m m' hm'
    rw [Stmt.remember_append] at hm'
    constructor
    · exact h.holds m m' ((h'.keeps _).trans h'.taken hm')
    · exact h'.holds _ m' hm'

/-- What is secured is recalled. -/
theorem Secures.recalls {P : Nat → Memory → Prop} (h : Secures d d' added P)
    (hplain : ∀ s ∈ added, s.isPlain = true) (hQ : ∀ first m, P first m → Q m) :
    Recalls d d' added Q := by
  refine ⟨h.toAdds, hplain, fun m => ?_, fun m m'' hm'' => ?_⟩
  all_goals obtain ⟨m', hrun, hkeeps, hall⟩ := h.runs m
  · rwa [Stmt.remember_eq hrun]
  · rw [Stmt.remember_eq hrun] at hm''
    exact hQ _ _ (hall m'' hm'')

/-- A statement that rebuilds nothing leaves every memory as it is. -/
theorem push_recalls {s : Stmt} (hplain : s.isPlain = true) (hrun : ∀ m, s.run m = none)
    {u : Unit} (h : push s d = .ok u d') : Recalls d d' [s] fun _ => True := by
  cases h
  refine ⟨adds_push d s, List.forall_mem_singleton.mpr hplain, fun m => ?_, fun _ _ _ => trivial⟩
  simp only [Stmt.remember, List.foldl_cons, List.foldl_nil, hrun]
  exact .refl m

end Draft

/-! ## Calls -/

theorem Stmt.Rebuilds.isPlain {language : Language} {s : Stmt} (h : s.Rebuilds language) :
    s.isPlain = true := by
  cases h with
  | field name hway hobject hvalue => rename_i way object value; cases way <;> rfl
  | _ => rfl

namespace Draft

/-- What is laid is what is added. -/
theorem Laid.form_of_adds {form : Stmt → Prop} {d d' : Draft} {types : List DataType}
    {added : List Stmt} (h : Laid form d d' types) (hadds : Adds d d' added) :
    ∀ s ∈ added, form s := by
  obtain ⟨laid, hstatements, hform, -⟩ := h
  rw [hadds.statements] at hstatements
  rwa [List.append_cancel_left hstatements]

section

variable {language : Language} (hgo : language ≠ .go) {d d' : Draft}

include hgo

/-- The expression of a value stands for it as long as the variables and the objects are kept. -/
theorem express_recalls {base : String} {v : Value} {x : Expr}
    (h : express language base v d = .ok x d') :
    ∃ added, Recalls d d' added fun m => x.StandsFor m 0 v := by
  obtain ⟨added, hsecures⟩ := express_secures hgo h
  have hform := (express_lays language base v d x d' h).1.form_of_adds hsecures.toAdds
  exact ⟨added, hsecures.recalls (fun s hs => (hform s hs).isPlain)
    fun _ _ hx => hx.since (Nat.zero_le _)⟩

theorem expressEach_recalls {base : Nat → String} {index : Nat} {vs : List Value} {xs : List Expr}
    (h : expressEach language base index vs d = .ok xs d') :
    ∃ added, Recalls d d' added fun m => List.Forall₂ (fun x v => x.StandsFor m 0 v) xs vs := by
  induction vs generalizing d index xs with
  | nil =>
      obtain ⟨rfl, rfl⟩ := Build.pure_eq_ok.mp h
      exact ⟨[], .refl fun _ => .nil⟩
  | cons v rest ih =>
      obtain ⟨x, d₁, hx, h⟩ := Build.bind_eq_ok.mp h
      obtain ⟨ys, d₂, hys, h⟩ := Build.bind_eq_ok.mp h
      obtain ⟨rfl, rfl⟩ := Build.pure_eq_ok.mp h
      obtain ⟨added, hadded⟩ := express_recalls hgo hx
      obtain ⟨more, hmore⟩ := ih hys
      exact ⟨_, (hadded.trans hmore).weaken fun _ hall => .cons hall.1 hall.2⟩

theorem targetOfRun_recalls {e : Executable} {run : Execution} {x : Expr}
    (h : targetOfRun language e run d = .ok x d') :
    ∃ added, Recalls d d' added fun m =>
      e.kind = .method → ∃ v, run.receiver = some v ∧ x.StandsFor m 0 v := by
  simp only [targetOfRun] at h
  cases hkind : e.kind with
  | method =>
      cases hv : run.receiver with
      | none =>
          simp only [hkind, hv] at h
          exact absurd h Build.refuse_ne_ok
      | some v =>
          simp only [hkind, hv] at h
          obtain ⟨added, hadded⟩ := express_recalls hgo h
          exact ⟨added, hadded.weaken fun _ hx _ => ⟨v, rfl, hx⟩⟩
  | constructor =>
      simp only [hkind, if_neg hgo] at h
      obtain ⟨-, rfl⟩ := Build.pure_eq_ok.mp h
      exact ⟨[], .refl (by simp)⟩
  | staticMethod =>
      simp only [hkind] at h
      obtain ⟨-, rfl⟩ := Build.pure_eq_ok.mp h
      exact ⟨[], .refl (by simp)⟩
  | function =>
      simp only [hkind] at h
      obtain ⟨-, rfl⟩ := Build.pure_eq_ok.mp h
      exact ⟨[], .refl (by simp)⟩

/-- The call of a run is made with its receiver and its arguments. -/
theorem callOfRun_recalls {e : Executable} {names : List String} {run : Execution} {call : Expr}
    (h : callOfRun language e names run d = .ok call d') :
    ∃ added, Recalls d d' added fun m => m.reading.Calls e run call := by
  obtain ⟨_, d₁, hcount, h⟩ := Build.bind_eq_ok.mp h
  obtain ⟨target, d₂, htarget, h⟩ := Build.bind_eq_ok.mp h
  obtain ⟨arguments, d₃, harguments, h⟩ := Build.bind_eq_ok.mp h
  obtain ⟨rfl, rfl⟩ := Build.pure_eq_ok.mp h
  have hsame : d = d₁ := by
    simp only [checkCount] at hcount
    split at hcount
    · exact (Build.pure_eq_ok.mp hcount).2
    · exact absurd hcount Build.refuse_ne_ok
  subst hsame
  obtain ⟨added, hadded⟩ := targetOfRun_recalls hgo htarget
  obtain ⟨more, hmore⟩ := expressEach_recalls hgo harguments
  exact ⟨_, (hadded.trans hmore).weaken fun _ hall => .mk hall.1 hall.2⟩

end

/-! ## Outcomes -/

section

variable {config : Config} {e : Executable} {run : Execution} {d d' : Draft} {call : Expr}

theorem declare_recalls {base : String} {type : DataType} {initial x : Expr}
    (h : declare base type initial d = .ok x d') :
    ∃ name, x = .ref name ∧
      Recalls d d' [.declare name type false (some initial)] fun _ => True := by
  obtain ⟨rfl, rfl⟩ := eq_of_declare_ok h
  have hfree : d.supply.isTaken (d.supply.claimVariable base).1 = false :=
    NameSupply.claimVariable_free
  refine ⟨_, rfl, ⟨rfl, ?_⟩, List.forall_mem_singleton.mpr rfl, ?_, fun _ _ _ => trivial⟩
  · intro y hy
    exact NameSupply.isTaken_claimVariable.mpr (Or.inl hy)
  · intro m
    exact Stmt.keepsAll_of_declare hfree

/-- A variable is declared with the result of the call. -/
theorem declareActual_recalls (run : Execution) {actual : Expr}
    (h : declareActual e call d = .ok actual d') :
    ∃ added, Recalls d d' added (fun _ => True) ∧
      ∀ r : Reading, r.Calls e run call → r.IsResult e run added actual := by
  obtain ⟨d₁, hx, hblank⟩ := exists_draft_of_declareActual_ok h
  obtain ⟨name, rfl, hdeclared⟩ := declare_recalls hx
  have hblank' := push_recalls rfl (fun _ => rfl) hblank
  refine ⟨_, (hdeclared.trans hblank').weaken fun _ _ => trivial, ?_⟩
  intro r hcall
  exact .mk hcall (List.mem_append_left _ (List.mem_singleton.mpr rfl))

/-- A draft goes on with plain statements and one that makes a check, wherever the call is that of
the run. -/
def Concludes (e : Executable) (run : Execution) (call : Expr) (d d' : Draft) (c : Check) : Prop :=
  ∃ before last d₁, Recalls d d₁ before (fun _ => True) ∧
    d'.statements = d.statements ++ (before ++ [last]) ∧
    ∀ m, (∀ m', KeepsAll d.supply m m' → m'.reading.Calls e run call) →
      last.Checks (Stmt.remember before m).reading e run before c

/-- The call alone checks nothing more. -/
theorem concludes_of_push_eval {u : Unit} (h : push (.eval call) d = .ok u d') :
    Concludes e run call d d' .runs := by
  cases h
  exact ⟨[], _, d, .refl fun _ => trivial, rfl, fun m hcall => .runs (hcall m (.refl m))⟩

/-- A comment before does not change the check. -/
theorem concludes_of_comment {text : String} {c : Check} {u : Unit} {f : Unit → Build Draft Unit}
    (h : (push (.comment text) >>= f) d = .ok u d')
    (hrest : ∀ d₁, f () d₁ = .ok u d' → Concludes e run call d₁ d' c) :
    Concludes e run call d d' c := by
  obtain ⟨_, d₁, hpush, h⟩ := Build.bind_eq_ok.mp h
  have hcomment := push_recalls rfl (fun _ => rfl) hpush
  obtain ⟨before, last, d₂, hrecalls, hstatements, hchecks⟩ := hrest d₁ h
  refine ⟨_, last, d₂, (hcomment.trans hrecalls).weaken fun _ _ => trivial, ?_, ?_⟩
  · rw [hstatements, hcomment.statements]
    simp
  · intro m hcall
    rw [Stmt.remember_append]
    refine (hchecks _ fun m' hm' => hcall m' ?_).mono fun s => List.mem_append_right _
    exact (hcomment.keeps m).trans hcomment.taken hm'

/-- The result of the call is declared, and what comes after that makes a check of it. -/
theorem concludes_of_declareActual {c : Check} {u : Unit} {f : Expr → Build Draft Unit}
    (h : (declareActual e call >>= f) d = .ok u d')
    (hrest : ∀ actual d₁, f actual d₁ = .ok u d' →
      ∃ added last d₂, Recalls d₁ d₂ added (fun _ => True) ∧
        d'.statements = d₁.statements ++ (added ++ [last]) ∧
        ∀ m before, (Stmt.remember added m).reading.IsResult e run before actual →
          last.Checks (Stmt.remember added m).reading e run before c) :
    Concludes e run call d d' c := by
  obtain ⟨actual, d₁, hactual, h⟩ := Build.bind_eq_ok.mp h
  obtain ⟨before, hbefore, hresult⟩ := declareActual_recalls run hactual
  obtain ⟨added, last, d₂, hadded, hstatements, hchecks⟩ := hrest actual d₁ h
  refine ⟨_, last, d₂, (hbefore.trans hadded).weaken fun _ _ => trivial, ?_, ?_⟩
  · rw [hstatements, hbefore.statements]
    simp
  · intro m hcall
    have hkeeps := (hbefore.keeps m).trans hbefore.taken (hadded.keeps _)
    rw [Stmt.remember_append]
    apply hchecks
    obtain ⟨hcall, hdeclared⟩ := hresult _ (hcall _ hkeeps)
    exact .mk hcall (List.mem_append_left _ hdeclared)

/-- The check of a result is that of the value, if there is one. -/
theorem checkResult_concludes {language : Language} (hgo : language ≠ .go) {value : Option Value}
    {u : Unit} (h : checkResult language e call (.ofResult language value) d = .ok u d') :
    Concludes e run call d d' ((value.map Check.ofValue).getD .runs) := by
  cases value with
  | none => exact concludes_of_push_eval h
  | some v =>
      simp only [ResultCheck.ofResult] at h
      split at h
      · next hnull =>
        have hv : v = .literal .null := by
          simp only [Value.isNull] at hnull
          split at hnull
          · rfl
          · cases hnull
        subst hv
        refine concludes_of_declareActual h fun actual d₁ h => ?_
        cases h
        exact ⟨[], _, d₁, .refl fun _ => trivial, rfl, fun m before hactual => .isNull hactual⟩
      · split at h
        · next hnan =>
          have hcheck : Check.ofValue v = .returnsNaN := if_pos (Bool.and_eq_true_iff.mp hnan).1
          refine concludes_of_declareActual h fun actual d₁ h => ?_
          cases h
          refine ⟨[], _, d₁, .refl fun _ => trivial, rfl, fun m before hactual => ?_⟩
          simp only [Option.map_some, Option.getD_some, hcheck]
          exact .isNaN hactual
        · refine concludes_of_declareActual h fun actual d₁ h => ?_
          obtain ⟨expected, d₂, hexpected, h⟩ := Build.bind_eq_ok.mp h
          obtain ⟨added, hadded⟩ := express_recalls hgo hexpected
          have hstands : ∀ m, expected.StandsFor (Stmt.remember added m) 0 v :=
            fun m => hadded.holds m _ (.refl _)
          have hpushed : ∀ last, d₂.statements ++ [last] = d₁.statements ++ (added ++ [last]) := by
            intro last
            rw [hadded.statements, List.append_assoc]
          split at h
          · obtain ⟨_, d₃, hrequire, h⟩ := Build.bind_eq_ok.mp h
            cases hrequire
            cases h
            exact ⟨added, _, d₂, hadded.weaken fun _ _ => trivial, hpushed _,
              fun m before hactual => .deepEquals (hstands m) hactual⟩
          · cases h
            exact ⟨added, _, d₂, hadded.weaken fun _ _ => trivial, hpushed _,
              fun m before hactual => .equals _ _ (hstands m) hactual⟩

/-- The statements for an outcome make the check of the run. -/
theorem checkOutcome_concludes (hgo : config.language ≠ .go) {u : Unit}
    (h : checkOutcome config e run call d = .ok u d') :
    Concludes e run call d d' (run.check config e) := by
  simp only [checkOutcome] at h
  simp only [Execution.check]
  cases houtcome : run.outcome with
  | success value =>
      simp only [houtcome] at h
      exact checkResult_concludes hgo h
  | runtimeFailure exception text kind =>
      simp only [houtcome] at h
      dsimp only
      split at h
      · next hasserts =>
        rw [if_pos hasserts]
        cases h
        exact ⟨[], _, d, .refl fun _ => trivial, rfl, fun m hcall => .throws rfl (hcall m (.refl m))⟩
      · next hasserts =>
        rw [if_neg hasserts]
        exact concludes_of_comment h fun d₁ h => concludes_of_push_eval h
  | timeout limit =>
      simp only [houtcome] at h
      split at h
      · exact concludes_of_comment h fun d₁ h => concludes_of_push_eval h
      · exact concludes_of_push_eval h
  | crash reason =>
      simp only [houtcome] at h
      exact concludes_of_comment h fun d₁ h => concludes_of_push_eval h

end

end Draft

/-- The test of a run that stubs no static methods makes the check of the run. -/
theorem Execution.checks_of_toTest_ok {run : Execution} {e : Executable} {g g' : Generation}
    {t : Method} (hgo : g.config.language ≠ .go) (hstubs : run.staticStubs = [])
    (h : run.toTest e g = .ok t g') : t.Checks e run (run.check g.config e) := by
  obtain ⟨body, d, name, names, hbody, rfl, -⟩ := eq_of_toTest_ok h
  have hwritten : run.writtenStubs g.config = [] := by
    simp [writtenStubs, stubsByClass, hstubs, OrderedMap.empty]
  obtain ⟨call, d₁, d₂, scopes, d₃, d₅, hcall, hmark, hscopes, hcheck, rfl, -⟩ :=
    Draft.exists_drafts_of_bodyOfRun_ok hbody
  rw [hwritten] at hmark hscopes
  cases hmark
  cases hscopes
  obtain ⟨added, hadded⟩ := Draft.callOfRun_recalls hgo hcall
  obtain ⟨before, last, d₆, hrecalls, hact, hchecks⟩ :=
    Draft.checkOutcome_concludes hgo hcheck
  have harrange : d₁.statements = added := hadded.statements
  rw [List.nil_append] at hact
  intro m
  obtain ⟨gap, hbody, hblank, hgap⟩ := apart_eq_append d₁.statements d₅.statements
  have hplain : ∀ s ∈ gap, s.isPlain = true := fun s hs => hblank s hs ▸ rfl
  refine ⟨added ++ gap ++ before, last, ?_, ?_, ?_⟩
  · change apart d₁.statements d₅.statements = _
    rw [hbody, harrange, hact]
    simp only [List.append_assoc]
  · simp only [List.forall_mem_append]
    exact ⟨⟨hadded.plain, hplain⟩, hrecalls.plain⟩
  · simp only [Stmt.remember_append, hgap]
    exact (hchecks _ (hadded.holds m)).mono fun s => List.mem_append_right _

end TestWriter
