import TestWriter.Proofs.Hands
import TestWriter.Proofs.Inversion
import TestWriter.Proofs.Obstacle

/-!
# Built methods are well scoped

A test builds its values, opens a scope for the mocked static methods of each class and checks the
outcome inside.  The parameters of a parameterized test are the columns of its table, and only the
rows that expect no error declare a variable.  Main statement: every method that is built from a run
or from a table is well scoped.
-/

namespace TestWriter

/-! ## Scopes of mocked static methods -/

namespace StaticScope

/-- What scopes of mocked static methods start with. -/
def opening (opened : List StaticScope) : List Event :=
  opened.flatMap fun s => .enter :: .bind s.handle :: Stubbing.traceOf s.stubbings

/-- What the stubbings of scopes read. -/
def reading (opened : List StaticScope) : List Event :=
  opened.flatMap fun s => Stubbing.traceOf s.stubbings

theorem traceOf_enclose (opened : List StaticScope) (body : List Stmt) :
    Stmt.traceOf (enclose opened body) =
      opening opened ++ Stmt.traceOf body ++ List.replicate opened.length .leave := by
  induction opened with
  | nil => simp [enclose, opening]
  | cons s rest ih =>
      change Stmt.traceOf [.mockedStatic s.handle s.owner s.stubbings (enclose rest body)] = _
      rw [Stmt.traceOf_singleton, Stmt.trace, ih, List.length_cons, List.replicate_succ']
      simp [opening]

end StaticScope

/-- Scopes whose handles are reserved bind them, and their stubbings read what is at hand. -/
theorem Tidy.opening {scopes : Scopes} {reserved : List String} {hand : String → Prop}
    {supply : NameSupply} {trace : List Event} {opened : List StaticScope}
    (hreads : ∀ s ∈ opened, Reads (Stubbing.traceOf s.stubbings))
    (h : Tidy scopes (reserved ++ opened.map StaticScope.handle)
      (fun x => hand x ∨ Uses (StaticScope.reading opened) x) supply trace) :
    Tidy scopes reserved hand supply (trace ++ StaticScope.opening opened) := by
  induction opened generalizing trace with
  | nil =>
      rw [List.map_nil, List.append_nil] at h
      rw [show StaticScope.opening [] = [] from rfl, List.append_nil]
      exact h.congr fun x => by simp [StaticScope.reading]
  | cons s rest ih =>
      have hsplit : ∀ x, (hand x ∨ Uses (Stubbing.traceOf s.stubbings) x) ∨
          Uses (StaticScope.reading rest) x ↔ hand x ∨ Uses (StaticScope.reading (s :: rest)) x := by
        intro x
        simp [StaticScope.reading, or_assoc]
      have hbound := h.enter.bind.congr hsplit
      have hread := hbound.read ((Spends.spend (hreads s List.mem_cons_self)).frame _)
      have hrest := ih (fun t ht => hreads t (List.mem_cons_of_mem _ ht)) hread
      simpa [StaticScope.opening] using hrest

namespace Draft

variable {language : Language}

theorem staticStubbings_hands (stubs : List StaticStub) {hand : String → Prop} :
    Hands hand (staticStubbings language stubs)
      (fun stubbings x => hand x ∨ Uses (Stubbing.traceOf stubbings) x)
      fun stubbings => Reads (Stubbing.traceOf stubbings) := by
  induction stubs generalizing hand with
  | nil => exact .pure (fun x => by simp [Stubbing.traceOf]) Reads.nil
  | cons s rest ih =>
      refine (express_yields language _ s.returns).bind fun e he => ?_
      refine ih.bind fun stubbings hstubbings => .pure ?_ (he.append hstubbings)
      intro x
      simp [Stubbing.traceOf, Stubbing.trace, Expr.traceOf, or_assoc]

theorem AtHand.reserve {scopes : Scopes} {reserved : List String} {past : List Event}
    {hand : String → Prop} {d d' : Draft} {base name : String}
    (hd : AtHand scopes reserved past hand d) (h : freshVariable base d = .ok name d') :
    AtHand scopes (reserved ++ [name]) past hand d' := by
  cases h
  exact Tidy.reserve hd base

/-- Each scope reserves the name of its handle. -/
theorem AtHand.staticScopes {groups : List (ClassName × List StaticStub)}
    {opened : List StaticScope} {scopes : Scopes} {reserved : List String} {past : List Event}
    {hand : String → Prop} {d d' : Draft} (hd : AtHand scopes reserved past hand d)
    (h : staticScopes language groups d = .ok opened d') :
    AtHand scopes (reserved ++ opened.map StaticScope.handle) past
      (fun x => hand x ∨ Uses (StaticScope.reading opened) x) d' ∧
      ∀ s ∈ opened, Reads (Stubbing.traceOf s.stubbings) := by
  induction groups generalizing reserved hand d opened with
  | nil =>
      obtain ⟨rfl, rfl⟩ := Build.pure_eq_ok.mp h
      constructor
      · rw [List.map_nil, List.append_nil]
        exact Tidy.congr hd fun x => by simp [StaticScope.reading]
      · intro s hs
        cases hs
  | cons group rest ih =>
      obtain ⟨stubbings, d₁, hstubbings, h⟩ := Build.bind_eq_ok.mp h
      obtain ⟨handle, d₂, hname, h⟩ := Build.bind_eq_ok.mp h
      obtain ⟨others, d₃, hothers, h⟩ := Build.bind_eq_ok.mp h
      obtain ⟨rfl, rfl⟩ := Build.pure_eq_ok.mp h
      obtain ⟨hd₁, hreads⟩ := staticStubbings_hands _ _ _ _ _ _ _ hd hstubbings
      obtain ⟨hd₃, hrest⟩ := ih (hd₁.reserve hname) hothers
      constructor
      · rw [List.map_cons, ← List.singleton_append, ← List.append_assoc]
        refine Tidy.congr hd₃ fun x => ?_
        simp [StaticScope.reading, or_assoc]
      · intro s hs
        rcases List.mem_cons.mp hs with rfl | hs
        · exact hreads
        · exact hrest s hs

end Draft

/-! ## Tests of runs -/

theorem Stmt.traceOf_apart (before after : List Stmt) :
    traceOf (apart before after) = traceOf before ++ traceOf after := by
  simp only [apart]
  split
  · next hempty =>
    have hnil : before = [] := by simpa using hempty
    rw [hnil]
    rfl
  · rw [traceOf_append]
    rfl

/-- The draft of a method without parameters. -/
theorem Draft.start_atHand (g : Generation) : AtHand [[]] [] [] (· ∈ []) (start g) := by
  refine Tidy.ofParameters List.nodup_nil ?_
  intro x
  rw [show (start g).supply = .empty from rfl, NameSupply.isTaken_empty]
  simp

theorem Draft.bodyOfRun_wellScoped {config : Config} {e : Executable} {run : Execution}
    {g : Generation} {d : Draft} {body : List Stmt}
    (h : bodyOfRun config e run (start g) = .ok body d) : WellScoped [] (Stmt.traceOf body) := by
  obtain ⟨call, d₁, d₂, opened, d₃, d₅, hcall, hmark, hopened, houtcome, rfl, rfl⟩ :=
    exists_drafts_of_bodyOfRun_ok h
  obtain ⟨hd₁, hreads⟩ := callOfRun_yields e _ run _ _ _ _ _ _ (start_atHand g) hcall
  obtain ⟨hd₂, -⟩ := markStatics_turns _ _ _ _ _ _ _ hd₁ hmark
  obtain ⟨hd₃, hstubbings⟩ := hd₂.staticScopes hopened
  -- the handles are bound where the scopes open, and the call is still at hand inside
  have hinside := Tidy.opening hstubbings hd₃
  have hd₄ : AtHand [[]] [] ([] ++ Stmt.traceOf d₃.statements ++ StaticScope.opening opened)
      (fun x => x ∈ [] ∨ Uses call.trace x) { d₃ with statements := [] } := by
    simp only [AtHand]
    rw [Stmt.traceOf, List.append_nil]
    exact hinside
  obtain ⟨hd₅, -⟩ := checkOutcome_turns config e run hreads _ _ _ _ _ _ hd₄ houtcome
  have hleft := Tidy.leaves hd₅ (fun _ => List.not_mem_nil) opened.length
  rw [Stmt.traceOf_apart, StaticScope.traceOf_enclose, ← List.append_assoc, ← List.append_assoc]
  exact hleft.wellScoped fun _ hx => hx

theorem Draft.providerBody_wellScoped {language : Language} {e : Executable}
    {columns : List Column} {rows : List Execution} {g : Generation} {d : Draft}
    {body : List Stmt} (h : providerBody language e columns rows (start g) = .ok body d) :
    WellScoped [] (Stmt.traceOf body) := by
  obtain ⟨exprs, d₁, hrows, rfl, rfl⟩ := exists_rows_of_providerBody_ok h
  obtain ⟨hd₁, hreads⟩ := tableRows_yields e columns rows _ _ _ _ _ _ (start_atHand g) hrows
  have hreturned := Tidy.read hd₁ (Spends.spend hreads)
  rw [Stmt.traceOf_apart, Stmt.traceOf_singleton]
  exact hreturned.wellScoped fun _ hx => hx

/-! ## Parameterized tests -/

namespace Column

/-- The names of some columns. -/
def names (columns : List Column) : List String := columns.map fun c => c.parameter.name

/-- Columns have different names, none of which was taken before. -/
theorem names_named (language : Language) (supply : NameSupply)
    (entries : List (String × DataType × ColumnRole)) :
    (names (named language supply entries)).Nodup ∧
      ∀ x ∈ names (named language supply entries), supply.isTaken x = false ∧ x ≠ "" := by
  induction entries generalizing supply with
  | nil => exact ⟨List.nodup_nil, fun x hx => absurd hx List.not_mem_nil⟩
  | cons entry rest ih =>
      obtain ⟨base, type, role⟩ := entry
      let wanted := if language = .python then Text.snakeCase base else base
      obtain ⟨hnodup, hfresh⟩ := ih (supply.claimVariable wanted).2
      have hrest : ∀ x ∈ names (named language (supply.claimVariable wanted).2 rest),
          supply.isTaken x = false ∧ x ≠ (supply.claimVariable wanted).1 := by
        intro x hx
        have hfree := (hfresh x hx).1
        constructor
        · apply Bool.eq_false_iff.mpr
          intro htaken
          rw [NameSupply.isTaken_claimVariable.mpr (Or.inl htaken)] at hfree
          cases hfree
        · intro hname
          rw [NameSupply.isTaken_claimVariable.mpr (Or.inr hname)] at hfree
          cases hfree
      constructor
      · refine List.nodup_cons.mpr ⟨?_, hnodup⟩
        intro hmem
        exact (hrest _ hmem).2 rfl
      · intro x hx
        rcases List.mem_cons.mp hx with rfl | hx
        · exact ⟨NameSupply.claimVariable_free, NameSupply.claimVariable_ne_empty⟩
        · exact ⟨(hrest x hx).1, (hfresh x hx).2⟩

end Column

/-- Different free names are taken as they are. -/
theorem Draft.isTaken_takeVariables {names : List String} {d d' : Draft} {u : Unit}
    (hnodup : names.Nodup) (hfree : ∀ x ∈ names, d.supply.isTaken x = false ∧ x ≠ "")
    (h : takeVariables names d = .ok u d') :
    d'.statements = d.statements ∧
      ∀ x, d'.supply.isTaken x = true ↔ d.supply.isTaken x = true ∨ x ∈ names := by
  induction names generalizing d with
  | nil =>
      obtain ⟨-, rfl⟩ := Build.pure_eq_ok.mp h
      exact ⟨rfl, fun x => by simp⟩
  | cons base rest ih =>
      obtain ⟨name, d₁, hname, h⟩ := Build.bind_eq_ok.mp h
      cases hname
      obtain ⟨hbase, hrest⟩ := List.nodup_cons.mp hnodup
      obtain ⟨hunused, hne⟩ := hfree base List.mem_cons_self
      have hclaim := NameSupply.claimVariable_of_free hne hunused
      have hstill : ∀ x ∈ rest, (d.supply.claimVariable base).2.isTaken x = false ∧ x ≠ "" := by
        intro x hx
        obtain ⟨hx', hxne⟩ := hfree x (List.mem_cons_of_mem _ hx)
        refine ⟨Bool.eq_false_iff.mpr ?_, hxne⟩
        intro htaken
        rcases NameSupply.isTaken_claimVariable.mp htaken with hold | hnew
        · rw [hx'] at hold
          cases hold
        · rw [hclaim] at hnew
          exact hbase (hnew ▸ hx)
      obtain ⟨hstatements, htaken⟩ := ih hrest hstill h
      refine ⟨hstatements, ?_⟩
      intro x
      rw [htaken, NameSupply.isTaken_claimVariable, hclaim, List.mem_cons, or_assoc]

/-! ### What a row refers to -/

theorem Expr.looks_traceOf {hand : String → Prop} {es : List Expr}
    (h : ∀ e ∈ es, Spends hand e.trace hand) : Spends hand (Expr.traceOf es) hand := by
  induction es with
  | nil => exact Spends.nil
  | cons e rest ih =>
      have hrest := ih fun x hx => h x (List.mem_cons_of_mem _ hx)
      exact (h e List.mem_cons_self).append hrest

theorem Executable.looks_call {hand : String → Prop} {e : Executable} {target : Expr}
    {arguments : List Expr} (htarget : Spends hand target.trace hand)
    (harguments : Spends hand (Expr.traceOf arguments) hand) :
    Spends hand (e.call target arguments).trace hand := by
  simp only [call]
  cases e.kind with
  | method => exact htarget.append harguments
  | staticMethod => exact harguments
  | function => exact harguments
  | constructor => exact harguments

section

variable {columns : List Column}

/-- Columns are parameters, so their variables are at hand. -/
theorem Column.looks_ref {c : Column} (hc : c ∈ columns) :
    Spends (· ∈ Column.names columns) (Expr.ref c.parameter.name).trace
      (· ∈ Column.names columns) := by
  refine Spends.look ?_ ?_
  · intro event hevent
    exact ⟨_, List.mem_singleton.mp hevent⟩
  · intro x hx
    have hname : x = c.parameter.name := by simpa [Expr.trace] using hx
    rw [hname]
    exact List.mem_map_of_mem hc

theorem Column.looks_reference {role : ColumnRole} {e : Expr}
    (h : reference? columns role = some e) :
    Spends (· ∈ Column.names columns) e.trace (· ∈ Column.names columns) := by
  obtain ⟨c, hc, rfl⟩ := Option.map_eq_some_iff.mp h
  exact looks_ref (List.mem_of_find?_eq_some hc)

theorem Draft.looks_callOfRow (e : Executable) :
    Spends (· ∈ Column.names columns) (callOfRow e columns).trace
      (· ∈ Column.names columns) := by
  refine Executable.looks_call ?_ (Expr.looks_traceOf ?_)
  · cases h : Column.reference? columns .receiver with
    | none => exact Spends.nil
    | some receiver => exact Column.looks_reference h
  · intro x hx
    obtain ⟨c, hc, href⟩ := List.mem_filterMap.mp hx
    split at href
    · cases href
      exact Column.looks_ref hc
    · cases href

theorem Draft.checkRow_turns {language : Language} (e : Executable) :
    Turns (· ∈ Column.names columns) (checkRow language e columns)
      (· ∈ Column.names columns) := by
  simp only [checkRow]
  split
  · next expected hexpected =>
    have hlook := Column.looks_reference hexpected
    refine (declareActual_yields e (looks_callOfRow e)).bind fun actual hactual => ?_
    exact assertExpected_turns _ hlook.reads hlook.atHand hactual
  · exact push_turns (looks_callOfRow e)

/-- Once the columns have taken their names, they are what is at hand. -/
theorem Draft.tidy_of_takeVariables {g : Generation} {d : Draft} {u : Unit}
    (hnodup : (Column.names columns).Nodup) (hne : ∀ x ∈ Column.names columns, x ≠ "")
    (h : takeVariables (Column.names columns) (start g) = .ok u d) :
    d.statements = [] ∧ Tidy [Column.names columns] (Column.names columns)
      (· ∈ Column.names columns) d.supply [] := by
  have hfree : ∀ x ∈ Column.names columns, (start g).supply.isTaken x = false ∧ x ≠ "" :=
    fun x hx => ⟨NameSupply.isTaken_empty, hne x hx⟩
  obtain ⟨hempty, htaken⟩ := isTaken_takeVariables hnodup hfree h
  refine ⟨hempty, Tidy.ofParameters hnodup fun x => ?_⟩
  rw [htaken, show (start g).supply = .empty from rfl, NameSupply.isTaken_empty]
  simp

theorem Draft.traceOf_branch (error call : Expr) (success : List Stmt) :
    Stmt.traceOf [.branch (.equal error .null) success [.assertThrows error [.eval call]]] =
      error.trace ++ (.enter :: Stmt.traceOf success ++ [.leave]) ++
        (.enter :: (error.trace ++ (.enter :: call.trace ++ [.leave])) ++ [.leave]) := by
  simp [Stmt.traceOf, Stmt.trace, Expr.trace, Expr.null]

/-- The check of a row and the assertion of an error stand in scopes of their own, side by side. -/
theorem Draft.branch_wellScoped {language : Language} {e : Executable} {d d' : Draft} {u : Unit}
    {error : Expr} (hempty : d.statements = [])
    (hstart : Tidy [Column.names columns] (Column.names columns) (· ∈ Column.names columns)
      d.supply [])
    (herror : Column.reference? columns .expectedError = some error)
    (h : checkRow language e columns d = .ok u d') :
    WellScoped (Column.names columns) (Stmt.traceOf [.branch (.equal error .null) d'.statements
      [.assertThrows error [.eval (callOfRow e columns)]]]) := by
  have hlook := Column.looks_reference herror
  have hcall : Spends (· ∈ Column.names columns) (callOfRow e columns).trace
      (· ∈ Column.names columns) := looks_callOfRow e
  have hcondition := hstart.read hlook
  have hd : AtHand [Column.names columns] (Column.names columns) (error.trace ++ [.enter])
      (· ∈ Column.names columns) d := by
    simp only [AtHand]
    rw [hempty]
    simpa [Stmt.traceOf] using hcondition.enter
  obtain ⟨hd', -⟩ := checkRow_turns e _ _ _ _ _ _ hd h
  have hthen := hcondition.within hd' (Stmt.traceOf_level _) fun _ hx => hx
  have hassert := (hthen.enter.read hlook).readWithin hcall
  rw [List.append_assoc _ error.trace] at hassert
  have hlevel := hlook.reads.level.append hcall.reads.level.scope
  have helse := hthen.within hassert hlevel fun _ hx => hx
  rw [traceOf_branch]
  exact helse.wellScoped fun _ hx => hx

theorem Draft.tableBody_wellScoped {language : Language} {e : Executable} {g : Generation}
    {d : Draft} {body : List Stmt} (hnodup : (Column.names columns).Nodup)
    (hne : ∀ x ∈ Column.names columns, x ≠ "")
    (h : tableBody language e columns (start g) = .ok body d) :
    WellScoped (Column.names columns) (Stmt.traceOf body) := by
  obtain ⟨d₁, d₂, hnames, hcheck, rfl, rfl⟩ := exists_drafts_of_tableBody_ok h
  obtain ⟨hempty, hstart⟩ := tidy_of_takeVariables hnodup hne hnames
  simp only [branchOnError]
  split
  · next error herror => exact branch_wellScoped hempty hstart herror hcheck
  · have hd₁ : AtHand [Column.names columns] (Column.names columns) [] (· ∈ Column.names columns)
        d₁ := by
      simp only [AtHand]
      rw [hempty]
      exact hstart
    obtain ⟨hd₂, -⟩ := checkRow_turns e _ _ _ _ _ _ hd₁ hcheck
    exact Tidy.wellScoped hd₂ fun _ hx => hx

end

/-! ## Built methods -/

theorem Execution.toTest_wellScoped {run : Execution} {e : Executable} {g g' : Generation}
    {m : Method} (h : run.toTest e g = .ok m g') : m.WellScoped := by
  obtain ⟨body, d, name, names, hbody, rfl, -⟩ := eq_of_toTest_ok h
  exact Draft.bodyOfRun_wellScoped hbody

theorem TestSet.toTable_wellScoped {set : TestSet} {g g' : Generation} {t : ParameterizedTest}
    (h : set.toTable g = .ok t g') : t.test.WellScoped ∧ t.provider.WellScoped := by
  obtain ⟨_, providerBody, d, testBody, d', providerName, testName, _, hprovider, htest, rfl, -⟩ :=
    eq_of_toTable_ok h
  constructor
  · obtain ⟨hnodup, hfresh⟩ := Column.names_named g.config.language .empty _
    have hscoped := Draft.tableBody_wellScoped hnodup (fun x hx => (hfresh x hx).2) htest
    simp only [Method.WellScoped, tableTestWith]
    rw [List.map_map]
    exact hscoped
  · exact Draft.providerBody_wellScoped hprovider

/-- The test of a run, a parameterized test and its data provider are well scoped: each use of a
variable follows its introduction and stands in its scope, the names of variables, handles of mocked
static methods and parameters differ, and every declared variable is used after its declaration. -/
theorem built_methods_are_well_scoped :
    (∀ (run : Execution) (e : Executable) (g g' : Generation) (m : Method),
      run.toTest e g = .ok m g' → m.WellScoped) ∧
    ∀ (set : TestSet) (g g' : Generation) (t : ParameterizedTest),
      set.toTable g = .ok t g' → t.test.WellScoped ∧ t.provider.WellScoped :=
  ⟨fun _ _ _ _ _ h => Execution.toTest_wellScoped h,
    fun _ _ _ _ h => TestSet.toTable_wellScoped h⟩

/-- A method with a receiver that was called with an amount it accepts and with one it rejects. -/
def withdrawals : TestSet :=
  let account : ClassName := ⟨"bank", "Account"⟩
  let receiver : Value := .composite account [] [.mk "owner" (.reflective ⟨"bank", "Owner"⟩ [])]
  let accepted := Execution.ofArguments [.literal (.int 5)] (.returning (.literal (.int 20)))
  let rejected := Execution.ofArguments [.literal (.int 90)]
    (.failure .explicit ⟨"bank", "Overdrawn"⟩)
  { executable := ⟨account, "withdraw", [⟨"amount", .primitive .int⟩], .primitive .int, .method⟩
    executions := [{ accepted with receiver := some receiver },
      { rejected with receiver := some receiver }]
    clusters := []
    errors := .empty }

/-- The runs become tests and a table; in both the receiver brings variables with it. -/
theorem built_methods_are_well_scoped_withdrawals :
    let g := Generation.new ⟨"bank", "Account"⟩ (.forLanguage .java)
    (∀ run ∈ withdrawals.executions, ∃ m g', run.toTest withdrawals.executable g = .ok m g' ∧
      m.WellScoped) ∧
    ∃ t g', withdrawals.toTable g = .ok t g' ∧ t.test.WellScoped ∧ t.provider.WellScoped := by
  intro g
  constructor
  · intro run hrun
    have hmeets := run.toTestUnder_meets g.config withdrawals.executable
    have hnone : ∀ run ∈ withdrawals.executions,
        run.obstacle g.config withdrawals.executable = none := by decide
    rw [hnone run hrun] at hmeets
    obtain ⟨m, g', hm⟩ := hmeets g
    exact ⟨m, g', hm, built_methods_are_well_scoped.1 run _ g g' m hm⟩
  · have hmeets := withdrawals.toTableUnder_meets g.config
    have hnone : withdrawals.tableObstacle g.config = none := by decide
    rw [hnone] at hmeets
    obtain ⟨t, g', ht⟩ := hmeets g
    exact ⟨t, g', ht, built_methods_are_well_scoped.2 _ g g' t ht⟩

end TestWriter
