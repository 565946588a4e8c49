import TestWriter.Proofs.CallCounts
import TestWriter.Proofs.Checks
import TestWriter.Proofs.Contributions
import TestWriter.Proofs.PrintedNames

/-!
# Scopes of mocked static methods

The stubs of a run are put together by class, and a test opens a scope for each class around the
call of the run.  Main statement: in Java and Kotlin the scopes of a test are those of the classes
in the order of their first stubs, each answers as the stubs of its class say, and the call and what
the test asserts stand inside all of them.
-/

namespace TestWriter

/-! ## Stubs by class -/

namespace Execution

variable (run : Execution)

theorem keys_stubsByClass :
    run.stubsByClass.keys = (run.staticStubs.map StaticStub.owner).foldl insertLast [] := by
  have hfold : ∀ (stubs : List StaticStub) (groups : OrderedMap ClassName (List StaticStub)),
      (stubs.foldl (fun groups s => groups.alter s.owner fun old => old.getD [] ++ [s])
        groups).keys = (stubs.map StaticStub.owner).foldl insertLast groups.keys := by
    intro stubs
    induction stubs with
    | nil => exact fun _ => rfl
    | cons s rest ih =>
        intro groups
        rw [List.foldl_cons, ih, OrderedMap.keys_alter]
        rfl
  exact hfold run.staticStubs .empty

/-- The stubs of a class are kept in the order in which they were recorded. -/
theorem getD_stubsByClass (owner : ClassName) :
    (run.stubsByClass.get? owner).getD [] = run.staticStubs.filter fun s => s.owner = owner := by
  rw [stubsByClass]
  -- stubs are put together from the left, so the induction adds a stub at the end
  induction run.staticStubs using List.reverseRecOn with
  | nil => rfl
  | append_singleton stubs s ih =>
      rw [List.foldl_append, List.foldl_cons, List.foldl_nil, OrderedMap.get?_alter,
        List.filter_append, ← ih]
      by_cases howner : owner = s.owner
      · subst howner
        simp
      · have hother : ¬s.owner = owner := fun h => howner h.symm
        simp [howner, hother]

/-- The stubs by class: the classes stand in the order of their first stubs, and each has its own
stubs in their order. -/
theorem entries_stubsByClass :
    run.stubsByClass.entries = (run.staticStubs.map StaticStub.owner).eraseDups.map fun owner =>
      (owner, run.staticStubs.filter fun s => s.owner = owner) := by
  have hnodup : run.stubsByClass.keys.Nodup := by
    rw [keys_stubsByClass]
    exact nodup_foldl_insertLast _ List.nodup_nil
  have howners : (run.staticStubs.map StaticStub.owner).eraseDups = run.stubsByClass.keys := by
    rw [keys_stubsByClass, foldl_insertLast_eq]
    simp
  rw [howners]
  apply OrderedMap.entries_eq_map hnodup
  intro owner howner
  obtain ⟨⟨_, stubs⟩, hentry, rfl⟩ := List.mem_map.mp howner
  have hfound := (OrderedMap.mem_entries_iff hnodup).mp hentry
  rw [← getD_stubsByClass, hfound]
  rfl

end Execution

/-! ## What scopes answer -/

/-- A stubbed call answers as a recorded stub says: whatever its arguments, it returns the value. -/
inductive Stubbing.Answers (m : Memory) : Stubbing → StaticStub → Prop
  | mk {s : StaticStub} {returns : Expr} (hreturns : returns.StandsFor m 0 s.returns) :
    Answers m (.mk s.method [] returns) s

namespace Draft

variable {language : Language} (hgo : language ≠ .go) {d d' : Draft}

/-- A name that is reserved adds nothing. -/
theorem freshVariable_recalls {base name : String} (h : freshVariable base d = .ok name d') :
    Recalls d d' [] fun _ => True := by
  cases h
  refine ⟨⟨(List.append_nil _).symm, ?_⟩, List.forall_mem_nil _, fun m => .refl m,
    fun _ _ _ => trivial⟩
  intro x hx
  exact NameSupply.isTaken_claimVariable.mpr (Or.inl hx)

/-- To record that static methods are mocked adds nothing. -/
theorem markStatics_recalls {groups : List (ClassName × List StaticStub)} {u : Unit}
    (h : markStatics groups d = .ok u d') : Recalls d d' [] fun _ => True := by
  simp only [markStatics] at h
  split at h
  · obtain ⟨-, rfl⟩ := Build.pure_eq_ok.mp h
    exact .refl fun _ => trivial
  · cases h
    exact ⟨⟨(List.append_nil _).symm, fun _ h => h⟩, List.forall_mem_nil _, fun m => .refl m,
      fun _ _ _ => trivial⟩

include hgo

theorem staticStubbings_recalls {stubs : List StaticStub} {stubbings : List Stubbing}
    (h : staticStubbings language stubs d = .ok stubbings d') :
    ∃ added, Recalls d d' added fun m => List.Forall₂ (Stubbing.Answers m) stubbings stubs := by
  induction stubs generalizing d stubbings with
  | nil =>
      obtain ⟨rfl, rfl⟩ := Build.pure_eq_ok.mp h
      exact ⟨[], .refl fun _ => .nil⟩
  | cons s rest ih =>
      obtain ⟨x, d₁, hx, h⟩ := Build.bind_eq_ok.mp h
      obtain ⟨others, d₂, hothers, h⟩ := Build.bind_eq_ok.mp h
      obtain ⟨rfl, rfl⟩ := Build.pure_eq_ok.mp h
      obtain ⟨added, hadded⟩ := express_recalls hgo hx
      obtain ⟨more, hmore⟩ := ih hothers
      exact ⟨_, (hadded.trans hmore).weaken fun _ hall => .cons (.mk hall.1) hall.2⟩

/-- There is a scope for each group of stubs; it is that of their class and answers as they say. -/
theorem staticScopes_recalls {groups : List (ClassName × List StaticStub)}
    {scopes : List StaticScope} (h : staticScopes language groups d = .ok scopes d') :
    ∃ added, Recalls d d' added fun m => List.Forall₂ (fun scope group =>
      scope.owner = group.1 ∧ List.Forall₂ (Stubbing.Answers m) scope.stubbings group.2)
      scopes groups := by
  induction groups generalizing d scopes with
  | nil =>
      obtain ⟨rfl, rfl⟩ := Build.pure_eq_ok.mp h
      exact ⟨[], .refl fun _ => .nil⟩
  | cons group rest ih =>
      obtain ⟨stubbings, d₁, hstubbings, h⟩ := Build.bind_eq_ok.mp h
      obtain ⟨handle, d₂, hhandle, h⟩ := Build.bind_eq_ok.mp h
      obtain ⟨others, d₃, hothers, h⟩ := Build.bind_eq_ok.mp h
      obtain ⟨rfl, rfl⟩ := Build.pure_eq_ok.mp h
      obtain ⟨added, hadded⟩ := staticStubbings_recalls hgo hstubbings
      obtain ⟨more, hmore⟩ := ih hothers
      refine ⟨_, ((hadded.trans (freshVariable_recalls hhandle)).trans hmore).weaken ?_⟩
      rintro m ⟨⟨hanswers, -⟩, hrest⟩
      exact .cons ⟨rfl, hanswers⟩ hrest

/-- The scopes of a run are those of the classes in the order of their first stubs, and each answers
as the stubs of its class say. -/
theorem staticScopes_stubsByClass {run : Execution} {scopes : List StaticScope}
    (h : staticScopes language run.stubsByClass.entries d = .ok scopes d') :
    scopes.map StaticScope.owner = (run.staticStubs.map StaticStub.owner).eraseDups ∧
      ∃ added, Recalls d d' added fun m => ∀ scope ∈ scopes, List.Forall₂ (Stubbing.Answers m)
        scope.stubbings (run.staticStubs.filter fun s => s.owner = scope.owner) := by
  obtain ⟨added, hrecalls⟩ := staticScopes_recalls hgo h
  constructor
  · have howners : scopes.map StaticScope.owner = run.stubsByClass.entries.map Prod.fst := by
      rw [← List.forall₂_eq_eq_eq, List.forall₂_map_left_iff, List.forall₂_map_right_iff]
      exact (hrecalls.holds ⟨[], []⟩ _ (.refl _)).imp fun _ _ h => h.1
    rw [howners, run.entries_stubsByClass, List.map_map]
    exact List.map_id' _
  · refine ⟨added, hrecalls.weaken fun m hanswers scope hscope => ?_⟩
    obtain ⟨group, hgroup, howner, hanswer⟩ := exists_right_of_forall₂ hanswers hscope
    rw [run.entries_stubsByClass] at hgroup
    obtain ⟨owner, -, rfl⟩ := List.mem_map.mp hgroup
    rw [howner]
    exact hanswer

end Draft

/-! ## Names of handles -/

/-- When all variables differ, the one that a scope binds is declared nowhere. -/
theorem declare_not_mem_of_bind {trace : List Event} (hdistinct : (boundIn trace).Nodup)
    {x : String} (h : .bind x ∈ trace) : .declare x ∉ trace := by
  obtain ⟨before, after, rfl⟩ := List.append_of_mem h
  rw [boundIn_append, show boundIn (.bind x :: after) = x :: boundIn after from rfl,
    List.nodup_middle] at hdistinct
  intro hdeclared
  have hother : .declare x ∈ before ++ after := by simpa using hdeclared
  have hbound : x ∈ boundIn (before ++ after) := List.mem_filterMap.mpr ⟨_, hother, rfl⟩
  rw [boundIn_append] at hbound
  exact (List.nodup_cons.mp hdistinct).1 hbound

/-- Scopes bind their handles. -/
theorem StaticScope.bind_mem_traceOf_enclose {scopes : List StaticScope} {scope : StaticScope}
    (h : scope ∈ scopes) (body : List Stmt) :
    .bind scope.handle ∈ Stmt.traceOf (enclose scopes body) := by
  rw [traceOf_enclose]
  refine List.mem_append_left _ (List.mem_append_left _ ?_)
  exact List.mem_flatMap.mpr ⟨scope, h, by simp⟩

/-! ## Bodies -/

/-- A body mocks the static methods that a run stubs: its statements before the scopes rebuild
values, there is one scope for each class in the order of the first stubs, and innermost stand the
call and the check of the run. -/
structure Stmt.MocksStatics (language : Language) (e : Executable) (run : Execution) (check : Check)
    (body before : List Stmt) (scopes : List StaticScope) (inner : List Stmt) : Prop where
  shape : body = before ++ StaticScope.enclose scopes inner
  arranges : ∀ s ∈ before, s = .blank ∨ s.Rebuilds language
  assertsNothing : ∀ s ∈ before, s.assertionName? = none
  owners : scopes.map StaticScope.owner = (run.staticStubs.map StaticStub.owner).eraseDups
  answers : ∀ m, ∀ scope ∈ scopes, List.Forall₂ (Stubbing.Answers (remember before m))
    scope.stubbings (run.staticStubs.filter fun s => s.owner = scope.owner)
  handles : (scopes.map StaticScope.handle).Nodup
  undeclared : ∀ scope ∈ scopes, .declare scope.handle ∉ traceOf body
  checks : ∀ m, Perform (fun act => (remember act (remember before m)).reading) e run inner check
  calls : ∃ call, (∀ m, (remember before m).reading.Calls e run call) ∧
    MakeOnce language e call inner
  only : e.kind ≠ .constructor → countCallsIn e body = 1

/-- A statement that rebuilds a value asserts nothing. -/
theorem Stmt.Rebuilds.assertionName?_eq {language : Language} {s : Stmt}
    (h : s.Rebuilds language) : s.assertionName? = none := by
  cases h with
  | field name hway hobject hvalue => rename_i way object value; cases way <;> rfl
  | _ => rfl

/-- What makes a call of an executable once calls it once, unless constructors are what it calls. -/
theorem Stmt.MakeOnce.countCallsIn_eq {language : Language} (hjvm : language.isJvm = true)
    {e : Executable} (hkind : e.kind ≠ .constructor) {call : Expr} (hcall : call.Calls language e)
    {body : List Stmt} (h : MakeOnce language e call body) : countCallsIn e body = 1 := by
  obtain ⟨first, made, last, rfl, hmade, hothers⟩ := h
  have hnone : ∀ s ∈ first ++ last, s.countCalls e = 0 := by
    intro s hs
    rcases hothers s hs with h | h
    · exact h.countCalls_eq hjvm hkind
    · exact h
  obtain ⟨hfirst, hlast⟩ := List.forall_mem_append.mp hnone
  rw [countCallsIn_append, Stmt.countCallsIn_eq hfirst, countCallsIn, Stmt.countCallsIn_eq hlast,
    hmade.countCalls_eq, hcall.countCalls_eq]

/-- The body of a run mocks the static methods that the run stubs. -/
theorem Draft.bodyOfRun_mocksStatics {config : Config} (hjvm : config.language.isJvm = true)
    (hmocking : config.staticMocking = .mockito) {e : Executable} {run : Execution}
    {g : Generation} {d : Draft} {body : List Stmt}
    (h : bodyOfRun config e run (start g) = .ok body d) :
    ∃ before scopes inner, Stmt.MocksStatics config.language e run (run.check config e) body before
      scopes inner := by
  have hgo : config.language ≠ .go := by
    intro h
    rw [h] at hjvm
    cases hjvm
  have hscoped := bodyOfRun_wellScoped h
  have hdistinct : (boundIn (Stmt.traceOf body)).Nodup := hscoped.distinct
  have hwritten : run.writtenStubs config = run.stubsByClass.entries := by
    simp [Execution.writtenStubs, hmocking]
  obtain ⟨call, d₁, d₂, scopes, d₃, d₅, hcall, hmark, hscopes, hcheck, rfl, -⟩ :=
    exists_drafts_of_bodyOfRun_ok h
  rw [hwritten] at hmark hscopes
  obtain ⟨hcalllaid, hcallform⟩ := callOfRun_lays _ _ _ run _ _ _ hcall
  obtain ⟨hmarklaid, -⟩ := markStatics_lays _ _ _ _ hmark
  obtain ⟨hscopeslaid, -, hatomic⟩ := staticScopes_lays _ _ _ _ _ hscopes
  obtain ⟨hrebuilds, -⟩ := ((hcalllaid.trans hmarklaid).trans hscopeslaid).all rfl
  obtain ⟨-, -, hscopesbind⟩ := staticScopes_declares hscopes
  obtain ⟨added, hcalled⟩ := callOfRun_recalls hgo hcall
  obtain ⟨howners, more, hopened⟩ := staticScopes_stubsByClass hgo hscopes
  have harranged := (hcalled.trans (markStatics_recalls hmark)).trans hopened
  have hstatements : d₃.statements = added ++ [] ++ more := harranged.statements
  obtain ⟨before, last, d₆, hrecalls, hact, hchecks⟩ := checkOutcome_concludes hgo hcheck
  obtain ⟨inner, hinner, honce⟩ := checkOutcome_addsCall hcheck
  rw [List.nil_append] at hact hinner
  obtain ⟨gap, hbody, hblank, hgap⟩ :=
    apart_eq_append d₃.statements (StaticScope.enclose scopes d₅.statements)
  have hremember : ∀ m, Stmt.remember (d₃.statements ++ gap) m =
      Stmt.remember (added ++ [] ++ more) m := by
    intro m
    rw [Stmt.remember_append, hgap, hstatements]
  have hstands := fun m => harranged.holds m _ (.refl _)
  have hcalls : ∀ m, (Stmt.remember (d₃.statements ++ gap) m).reading.Calls e run call :=
    fun m => hremember m ▸ (hstands m).1.1
  have harranges : ∀ s ∈ d₃.statements ++ gap, s = .blank ∨ s.Rebuilds config.language :=
    List.forall_mem_append.mpr ⟨fun s hs => Or.inr (hrebuilds s hs),
      fun s hs => Or.inl (hblank s hs)⟩
  refine ⟨d₃.statements ++ gap, scopes, d₅.statements, hbody, harranges, ?_, howners,
    fun m => hremember m ▸ (hstands m).2, ?_, ?_, ?_, ⟨call, hcalls, hinner ▸ honce⟩, ?_⟩
  · -- nothing asserts before the scopes
    intro s hs
    rcases harranges s hs with rfl | h
    · rfl
    · exact h.assertionName?_eq
  · -- handles
    rw [Stmt.traceOf_apart, boundIn_append,
      boundIn_enclose _ fun s hs => (hscopesbind s hs).1] at hdistinct
    exact (List.nodup_append.mp (List.nodup_append.mp hdistinct).2.1).1
  · -- no handle is declared
    intro scope hscope
    apply declare_not_mem_of_bind hdistinct
    rw [Stmt.traceOf_apart]
    exact List.mem_append_right _ (StaticScope.bind_mem_traceOf_enclose hscope _)
  · -- the check
    intro m
    refine ⟨before, last, hact, hrecalls.plain, hchecks _ fun m' hm' => ?_⟩
    rw [hremember] at hm'
    exact (harranged.holds m m' hm').1.1
  · -- the only call
    intro hkind
    have hnone : ∀ s ∈ d₃.statements ++ gap, s.countCalls e = 0 := by
      intro s hs
      rcases harranges s hs with rfl | h
      · rfl
      · exact h.countCalls_eq hjvm hkind
    rw [hbody, Stmt.countCallsIn_append, Stmt.countCallsIn_eq hnone,
      Stmt.countCallsIn_enclose hatomic, hinner, Nat.zero_add]
    exact honce.countCallsIn_eq hjvm hkind hcallform

/-- In Java and Kotlin, where static methods are mocked, the body of the test of a run is made of
statements that rebuild values and, nested in each other, a scope for each class with stubs, the
first class outermost.  Each scope answers as the stubs of its class say, in their order; the
handles of the scopes differ from each other and from all declared variables.  Innermost the test
makes the check of the run and its call; nothing else in the body asserts or calls the executable,
except that the statements that rebuild values call it when it is a constructor. -/
theorem static_mocks_enclose_the_call {run : Execution} {e : Executable} {g g' : Generation}
    {t : Method} (hjvm : g.config.language.isJvm = true)
    (hmocking : g.config.staticMocking = .mockito) (h : run.toTest e g = .ok t g') :
    ∃ before scopes inner, Stmt.MocksStatics g.config.language e run (run.check g.config e) t.body
      before scopes inner := by
  obtain ⟨body, d, name, names, hbody, rfl, -⟩ := Execution.eq_of_toTest_ok h
  exact Draft.bodyOfRun_mocksStatics hjvm hmocking hbody

/-- A report that asks the clock twice and the environment in between. -/
def reportRun : Execution :=
  let clock : ClassName := ⟨"app", "Clock"⟩
  let zone : Value := .composite ⟨"app", "Zone"⟩ [.literal (.str "UTC")] []
  { Execution.ofArguments [.literal (.int 3)] (.returning (.literal (.str "3 at 7"))) with
    staticStubs := [⟨clock, "now", .literal (.int 7)⟩,
      ⟨⟨"app", "Env"⟩, "user", .literal (.str "ann")⟩, ⟨clock, "zone", zone⟩] }

/-- The scope of the clock is opened once, around that of the environment. -/
theorem static_mocks_enclose_the_call_reportRun :
    let e : Executable := ⟨⟨"app", "Report"⟩, "render", [⟨"count", .primitive .int⟩],
      .ofClass ⟨"java.lang", "String"⟩, .staticMethod⟩
    let g := Generation.new ⟨"app", "Report"⟩
      { Config.forLanguage .java with staticMocking := .mockito }
    ∃ t g' before scopes inner, reportRun.toTest e g = .ok t g' ∧
      Stmt.MocksStatics .java e reportRun (reportRun.check g.config e) t.body before scopes inner ∧
      scopes.map StaticScope.owner = [⟨"app", "Clock"⟩, ⟨"app", "Env"⟩] := by
  intro e g
  have hmeets := reportRun.toTestUnder_meets g.config e
  have hnone : reportRun.obstacle g.config e = none := by decide
  rw [hnone] at hmeets
  obtain ⟨t, g', ht⟩ := hmeets g
  obtain ⟨before, scopes, inner, hmocks⟩ :=
    @static_mocks_enclose_the_call reportRun e g g' t rfl rfl ht
  exact ⟨t, g', before, scopes, inner, ht, hmocks, hmocks.owners.trans (by decide)⟩

/-- A node in front of another one, made while the clock is mocked. -/
def linkedNode : Execution :=
  { Execution.ofArguments [.composite ⟨"app", "Node"⟩ [.literal .null] []] .completed with
    staticStubs := [⟨⟨"app", "Clock"⟩, "now", .literal (.int 7)⟩] }

/-- A constructor under test is called before the scopes as well, for an argument of its class. -/
theorem constructor_is_called_before_scopes :
    let e : Executable := ⟨⟨"app", "Node"⟩, "Node", [⟨"next", .ofClass ⟨"app", "Node"⟩⟩], .void,
      .constructor⟩
    let g := Generation.new ⟨"app", "Node"⟩
      { Config.forLanguage .java with staticMocking := .mockito }
    ∃ t g' before scopes inner, linkedNode.toTest e g = .ok t g' ∧
      t.body = before ++ StaticScope.enclose scopes inner ∧
      scopes.map StaticScope.owner = [⟨"app", "Clock"⟩] ∧
      Stmt.countCallsIn e before = 1 ∧ Stmt.countCallsIn e inner = 1 := by
  intro e g
  let before : List Stmt := [.declare "next" (.ofClass ⟨"app", "Node"⟩) false
    (some (.construct ⟨"app", "Node"⟩ [.literal .null])), .blank]
  let scope : StaticScope :=
    ⟨"mockedStatic", ⟨"app", "Clock"⟩, [.mk "now" [] (.literal (.int 7))]⟩
  let inner : List Stmt := [.eval (.construct ⟨"app", "Node"⟩ [.ref "next"])]
  exact ⟨_, _, before, [scope], inner, rfl, rfl, rfl, by decide, by decide⟩

end TestWriter
