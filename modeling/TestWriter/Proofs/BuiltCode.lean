import TestWriter.Proofs.BuiltForms
import TestWriter.Proofs.CodePieces
import TestWriter.Proofs.Contributions
import TestWriter.Proofs.ReportAgreement

/-!
# Code that is built

The methods of a class are built of a few forms of statements, and tables and helpers are among them
only where the language has them.  Main statements: a construction succeeds and its methods are
built of the forms; such code names no function of a module but the executable under test and
functions of no package without a point in their names, and a number that it writes outside of
expressions is finite.
-/

namespace TestWriter

/-! ## Ordinary code -/

/-- Whether a mention is of a function of a module. -/
def Mention.isFunction : Mention → Bool
  | .function .. => true
  | _ => false

/-- Mentions and bare literals of ordinary code: functions have given names, or no package and no
point in their names, and numbers are finite. -/
structure Ordinary (functions : String → Prop) (mentions : List Mention)
    (literals : List Literal) : Prop where
  named : ∀ module name, Mention.function module name ∈ mentions →
    module.isGlobal = true ∧ '.' ∉ name.toList ∨ functions name
  finite : ∀ l ∈ literals, l.isNonFinite = false

/-- An expression is ordinary. -/
abbrev Expr.Ordinary (functions : String → Prop) (e : Expr) : Prop :=
  TestWriter.Ordinary functions e.mentions e.bareLiterals

/-- A statement is ordinary. -/
abbrev Stmt.Ordinary (functions : String → Prop) (s : Stmt) : Prop :=
  TestWriter.Ordinary functions s.mentions s.bareLiterals

/-- A stubbed call is ordinary. -/
abbrev Stubbing.Ordinary (functions : String → Prop) (s : Stubbing) : Prop :=
  TestWriter.Ordinary functions s.mentions s.bareLiterals

namespace Ordinary

variable {functions : String → Prop} {ms ns : List Mention} {ls ks : List Literal} {m : Mention}

theorem nil : Ordinary functions [] [] where
  named _ _ h := absurd h List.not_mem_nil
  finite _ h := absurd h List.not_mem_nil

theorem append (h : Ordinary functions ms ls) (h' : Ordinary functions ns ks) :
    Ordinary functions (ms ++ ns) (ls ++ ks) where
  named module name hmem := by
    rcases List.mem_append.mp hmem with hmem | hmem
    · exact h.named module name hmem
    · exact h'.named module name hmem
  finite := List.forall_mem_append.mpr ⟨h.finite, h'.finite⟩

/-- A mention of a function in front. -/
theorem function {module : ClassName} {name : String}
    (hname : module.isGlobal = true ∧ '.' ∉ name.toList ∨ functions name)
    (h : Ordinary functions ms ls) :
    Ordinary functions (.function module name :: ms) ls where
  named k n hmem := by
    rcases List.mem_cons.mp hmem with heq | hmem
    · cases heq
      exact hname
    · exact h.named k n hmem
  finite := h.finite

/-- A mention of anything but a function in front. -/
theorem cons (hm : m.isFunction = false) (h : Ordinary functions ms ls) :
    Ordinary functions (m :: ms) ls where
  named k n hmem := by
    rcases List.mem_cons.mp hmem with rfl | hmem
    · cases hm
    · exact h.named k n hmem
  finite := h.finite

theorem single (hm : m.isFunction = false) : Ordinary functions [m] [] :=
  cons hm nil

theorem type (t : DataType) : Ordinary functions t.mentions [] := by
  induction t with
  | array element ih => exact ih
  | ofClass c => exact single rfl
  | _ => exact nil

theorem exprs {es : List Expr} (h : ∀ e ∈ es, e.Ordinary functions) :
    Ordinary functions (Expr.mentionsOf es) (Expr.bareLiteralsOf es) := by
  induction es with
  | nil => exact nil
  | cons e rest ih =>
      rw [List.forall_mem_cons] at h
      exact h.1.append (ih h.2)

theorem stmts {body : List Stmt} (h : ∀ s ∈ body, s.Ordinary functions) :
    Ordinary functions (Stmt.mentionsOf body) (Stmt.bareLiteralsOf body) := by
  induction body with
  | nil => exact nil
  | cons s rest ih =>
      rw [List.forall_mem_cons] at h
      exact h.1.append (ih h.2)

theorem stubbings {ss : List Stubbing} (h : ∀ s ∈ ss, s.Ordinary functions) :
    Ordinary functions (Stubbing.mentionsOf ss) (Stubbing.bareLiteralsOf ss) := by
  induction ss with
  | nil => exact nil
  | cons s rest ih =>
      rw [List.forall_mem_cons] at h
      exact h.1.append (ih h.2)

theorem literal (l : Literal) : (Expr.literal l).Ordinary functions := by
  refine ⟨?_, List.forall_mem_nil _⟩
  intro module name hmem
  simp only [Expr.mentions] at hmem
  split at hmem <;> simp at hmem

theorem ref (name : String) : (Expr.ref name).Ordinary functions := nil

theorem null : Expr.null.Ordinary functions := nil

theorem classOf (owner : ClassName) : (Expr.classOf owner).Ordinary functions := single rfl

theorem call {e : Executable} {receiver : Expr} {arguments : List Expr}
    (hname : functions e.name) (hreceiver : receiver.Ordinary functions)
    (harguments : ∀ a ∈ arguments, a.Ordinary functions) :
    (e.call receiver arguments).Ordinary functions := by
  have hall := exprs harguments
  simp only [Executable.call]
  cases e.kind with
  | method => exact hreceiver.append hall
  | staticMethod => exact cons rfl hall
  | function => exact function (Or.inr hname) hall
  | constructor => exact cons rfl hall

theorem allocation (language : Language) (owner : ClassName) :
    (Draft.allocation language owner).Ordinary functions := by
  have hname : Ordinary functions (Expr.mentionsOf [.str owner.qualifiedName]) [] :=
    (literal _).append nil
  cases language with
  | java | kotlin => exact (type (.ofClass owner)).append (cons rfl hname)
  | python => exact cons rfl ((classOf owner).append nil)
  | javascript => exact cons rfl (cons rfl nil)
  | go => exact cons rfl nil

theorem statement (way : Draft.FieldWriting) {object value : Expr} (name : String)
    (hobject : object.Ordinary functions) (hvalue : value.Ordinary functions) :
    (way.statement object name value).Ordinary functions := by
  have hall := hobject.append ((literal (.str name)).append (hvalue.append nil))
  cases way with
  | assignment => exact hobject.append hvalue
  | helper => exact cons rfl hall
  | setattr => exact function (Or.inl ⟨rfl, by decide⟩) hall

end Ordinary

/-! ## Built code is ordinary -/

/-- The tolerance of a comparison is finite. -/
theorem Primitive.isNonFinite_delta? {p : Primitive} {l : Literal} (h : p.delta? = some l) :
    l.isNonFinite = false := by
  cases p <;> cases h <;> decide

section

variable {functions : String → Prop}

theorem Expr.IsAtom.ordinary {x : Expr} (h : x.IsAtom) : x.Ordinary functions := by
  cases h with
  | literal l => exact Ordinary.literal l
  | ref name => exact Ordinary.ref name
  | staticField owner name => exact Ordinary.single rfl

theorem Expr.IsCell.ordinary {x : Expr} (h : x.IsCell) : x.Ordinary functions := by
  cases h with
  | atom h => exact h.ordinary
  | classOf owner => exact Ordinary.classOf owner

theorem Expr.IsRow.ordinary {x : Expr} (h : x.IsRow) : x.Ordinary functions := by
  cases h with
  | mk hcells =>
      exact (Ordinary.type .any).append (Ordinary.exprs fun c hc => (hcells c hc).ordinary)

theorem Expr.Calls.ordinary {language : Language} {e : Executable} {x : Expr}
    (h : x.Calls language e) (he : functions e.name) : x.Ordinary functions := by
  cases h with
  | mk hreceiver harguments hgo =>
      exact Ordinary.call he hreceiver.ordinary fun a ha => (harguments a ha).ordinary

theorem Stubbing.IsAtomic.ordinary {s : Stubbing} (h : s.IsAtomic) : s.Ordinary functions := by
  cases h with
  | mk method hreturns => exact Ordinary.nil.append hreturns.ordinary

theorem Stmt.Rebuilds.ordinary {language : Language} {s : Stmt} (h : s.Rebuilds language) :
    s.Ordinary functions := by
  cases h with
  | array name element hvalues =>
      have hall : TestWriter.Ordinary functions _ _ :=
        Ordinary.exprs fun v hv => (hvalues v hv).ordinary
      exact (Ordinary.type _).append ((Ordinary.type element).append hall)
  | object name owner harguments hgo =>
      have hall : TestWriter.Ordinary functions _ _ :=
        Ordinary.exprs fun v hv => (harguments v hv).ordinary
      exact (Ordinary.type _).append (Ordinary.cons rfl hall)
  | allocated name owner => exact (Ordinary.type _).append (Ordinary.allocation language owner)
  | field name hway hobject hvalue =>
      exact Ordinary.statement _ name hobject.ordinary hvalue.ordinary
  | mock name owner hmocks =>
      exact (Ordinary.type _).append (Ordinary.cons rfl (Ordinary.single rfl))
  | stub method hmocks hobject harguments hreturns =>
      have hall : TestWriter.Ordinary functions _ _ :=
        Ordinary.exprs fun v hv => (harguments v hv).ordinary
      exact Ordinary.cons rfl (hobject.ordinary.append (hall.append hreturns.ordinary))

namespace Ordinary

variable {expected actual : Expr}

theorem assertEquals (hexpected : expected.Ordinary functions)
    (hactual : actual.Ordinary functions) {delta : Option Literal}
    (hdelta : ∀ l ∈ delta, ∃ p : Primitive, p.delta? = some l) (deep : Bool) :
    (Stmt.assertEquals expected actual delta deep).Ordinary functions := by
  have hbare : Ordinary functions [.assertion "assertEquals"] delta.toList := by
    refine ⟨by simp, fun l hl => ?_⟩
    obtain ⟨p, hp⟩ := hdelta l (Option.mem_toList.mp hl)
    exact Primitive.isNonFinite_delta? hp
  exact hbare.append hexpected |>.append hactual

theorem assertDeepEquals (hexpected : expected.Ordinary functions)
    (hactual : actual.Ordinary functions) :
    (Stmt.assertTrue (.callHelper .deepEquals [expected, actual])).Ordinary functions :=
  cons rfl (cons rfl (hexpected.append (hactual.append nil)))

theorem assertThrows {exception call : Expr} (hexception : exception.Ordinary functions)
    (hcall : call.Ordinary functions) :
    (Stmt.assertThrows exception [.eval call]).Ordinary functions :=
  cons rfl (hexception.append (hcall.append nil))

end Ordinary

/-- A built statement is ordinary, and the one function that it names is the executable that it
tests. -/
theorem Stmt.Built.ordinary {config : Config} {tested : Option Executable} {s : Stmt}
    (h : s.Built config tested) (htested : ∀ e, tested = some e → functions e.name) :
    s.Ordinary functions := by
  induction h with
  | rebuilds h => exact h.ordinary
  | run he hcall => exact hcall.ordinary (htested _ he)
  | result name he hcall => exact (Ordinary.type _).append (hcall.ordinary (htested _ he))
  | isNull hactual => exact Ordinary.cons rfl hactual.ordinary
  | isNaN hactual => exact Ordinary.cons rfl (hactual.ordinary.append hactual.ordinary)
  | deepEquals hlanguage hexpected hactual =>
      exact Ordinary.assertDeepEquals hexpected.ordinary hactual.ordinary
  | equals deep hexpected hactual hdelta =>
      exact Ordinary.assertEquals hexpected.ordinary hactual.ordinary hdelta deep
  | throws exception he hcall =>
      exact Ordinary.assertThrows (Ordinary.classOf exception) (hcall.ordinary (htested _ he))
  | blank => exact Ordinary.nil
  | comment text => exact Ordinary.nil
  | comments lines => exact Ordinary.nil
  | mocked handle owner hmocks hstubbings hbody ih =>
      have hall : TestWriter.Ordinary functions _ _ :=
        Ordinary.stubbings fun s hs => (hstubbings s hs).ordinary
      exact Ordinary.cons rfl (Ordinary.cons rfl (Ordinary.cons rfl
        (hall.append (Ordinary.stmts ih))))
  | rows htables hrows =>
      exact (Ordinary.type _).append (Ordinary.exprs fun row hrow => (hrows row hrow).ordinary)
  | castEquals type htables hexpected hactual hdelta =>
      exact Ordinary.assertEquals ((Ordinary.type type).append hexpected.ordinary)
        hactual.ordinary hdelta _
  | branch htables herror hsuccess he hcall ih =>
      have hthrows := Ordinary.assertThrows herror.ordinary (hcall.ordinary (htested _ he))
      exact ((herror.ordinary.append Ordinary.null).append (Ordinary.stmts ih)).append
        (hthrows.append Ordinary.nil)

end

/-! ## Methods of a class -/

/-- Whether the method is a parameterized test or its data provider. -/
def Method.isTabular (m : Method) : Bool :=
  match m.kind with
  | .parameterized .. | .dataProvider => true
  | .test _ | .errorReport _ | .helper _ => false

/-- The body of a method is built of the forms, a table or a helper is one that the language has,
also where it is called, and only tables have parameters or results. -/
structure Method.IsBuilt (config : Config) (m : Method) : Prop where
  body : ∀ s ∈ m.body, s.Built config m.executable?
  tables : m.isTabular = true → config.HasTables
  helper : ∀ h, m.kind = .helper h → h.supported config.language = true
  calls : ∀ h, Stmt.Call m.body h → h.supported config.language = true
  plain : m.isTabular = false → m.parameters = [] ∧ m.returnType = .void

/-- The body of a method is ordinary, and the one function of a package that it names is the
executable that the method tests. -/
def Method.IsOrdinary (m : Method) : Prop :=
  Ordinary (fun name => ∃ e, m.executable? = some e ∧ name = e.name) (Stmt.mentionsOf m.body)
    (Stmt.bareLiteralsOf m.body)

theorem Method.IsBuilt.isOrdinary {config : Config} {m : Method} (h : m.IsBuilt config) :
    m.IsOrdinary :=
  Ordinary.stmts fun s hs => (h.body s hs).ordinary fun e he => ⟨e, he, rfl⟩

/-- JavaScript and Go have no helpers. -/
theorem Helper.supported_eq_false {language : Language}
    (hlanguage : language = .javascript ∨ language = .go) (h : Helper) :
    h.supported language = false := by
  rcases hlanguage with rfl | rfl
  · cases h <;> rfl
  · cases h <;> rfl

namespace Method.IsBuilt

variable {config : Config} {m : Method}

/-- JavaScript and Go have no tables. -/
theorem isTabular_eq_false (hm : m.IsBuilt config)
    (hlanguage : config.language = .javascript ∨ config.language = .go) :
    m.isTabular = false := by
  refine Bool.eq_false_iff.mpr fun htabular => ?_
  have htables := hm.tables htabular
  rcases hlanguage with hlanguage | hlanguage
  · simp [Config.HasTables, hlanguage, Language.supportsParameterized] at htables
  · exact htables.ne_go hlanguage

theorem kind_ne_helper (hm : m.IsBuilt config)
    (hlanguage : config.language = .javascript ∨ config.language = .go) (h : Helper) :
    m.kind ≠ .helper h :=
  fun hkind => Bool.false_ne_true ((h.supported_eq_false hlanguage).symm.trans (hm.helper h hkind))

theorem not_call (hm : m.IsBuilt config)
    (hlanguage : config.language = .javascript ∨ config.language = .go) (h : Helper) :
    ¬Stmt.Call m.body h :=
  fun hcall => Bool.false_ne_true ((h.supported_eq_false hlanguage).symm.trans (hm.calls h hcall))

end Method.IsBuilt

theorem Method.isBuilt_ofHelper {config : Config} {h : Helper}
    (hh : h.supported config.language = true) : (ofHelper h).IsBuilt config := by
  refine ⟨List.forall_mem_nil _, nofun, ?_, ?_, fun _ => ⟨rfl, rfl⟩⟩
  · intro k hk
    cases hk
    exact hh
  · intro k hk
    exact absurd hk Stmt.not_call_nil

theorem Execution.isBuilt_of_toTest_ok {run : Execution} {e : Executable} {g g' : Generation}
    {m : Method} (h : run.toTest e g = .ok m g') : m.IsBuilt g.config := by
  obtain ⟨body, d, name, names, hbody, rfl, -⟩ := eq_of_toTest_ok h
  exact ⟨(Draft.bodyOfRun_built hbody).1, nofun, nofun, (Draft.bodyOfRun_records hbody).2,
    fun _ => ⟨rfl, rfl⟩⟩

theorem TestSet.hasTables_of_toTable_ok {set : TestSet} {g g' : Generation} {t : ParameterizedTest}
    (h : set.toTable g = .ok t g') : g.config.HasTables := by
  obtain ⟨_, g₁, hcheck, -⟩ := Build.bind_eq_ok.mp h
  simp only [checkTable] at hcheck
  split at hcheck
  · exact absurd hcheck Build.refuse_ne_ok
  · next hsupported => simpa [Config.HasTables] using hsupported

theorem TestSet.isBuilt_of_toTable_ok {set : TestSet} {g g' : Generation} {t : ParameterizedTest}
    (h : set.toTable g = .ok t g') :
    t.test.IsBuilt g.config ∧ t.provider.IsBuilt g.config ∧ t.provider.executable? = none := by
  have htables := hasTables_of_toTable_ok h
  obtain ⟨_, providerBody, d, testBody, d', providerName, testName, _, hprovider, htest, rfl, -⟩ :=
    eq_of_toTable_ok h
  have htested := (Draft.tableBody_records htest).2
  have hprovided := (Draft.providerBody_records hprovider).2
  refine ⟨⟨?_, fun _ => htables, nofun, htested, nofun⟩,
    ⟨?_, fun _ => htables, nofun, hprovided, nofun⟩, rfl⟩
  · exact Draft.tableBody_built htables htest
  · exact Draft.providerBody_built htables hprovider

namespace Assembly

/-- The methods written so far are built of the forms, and what is fixed for a generation is as it
was. -/
structure WritesBuilt (g : Generation) (ms : List Method) (a : Assembly) : Prop where
  config_eq : a.generation.config = g.config
  class_eq : a.generation.classUnderTest = g.classUnderTest
  optimize_eq : a.generation.optimizeImports = g.optimizeImports
  methods : ∀ m ∈ ms ++ a.providers, m.IsBuilt g.config
  providers : ∀ m ∈ a.providers, m.executable? = none

variable {g : Generation}

theorem WritesBuilt.start (g : Generation) : WritesBuilt g [] (.start g) :=
  ⟨rfl, rfl, rfl, List.forall_mem_nil _, List.forall_mem_nil _⟩

theorem WritesBuilt.add {ms : List Method} {a b : Assembly} (h : WritesBuilt g ms a)
    (m : Method) (hb : b.generation.restore a.generation.usage = a.generation)
    {added : List Method} (hproviders : b.providers = a.providers ++ added)
    (hm : ∀ k ∈ m :: added, k.IsBuilt g.config) (hadded : ∀ k ∈ added, k.executable? = none) :
    WritesBuilt g (ms ++ [m]) b where
  config_eq := (congrArg Generation.config hb).trans h.config_eq
  class_eq := (congrArg Generation.classUnderTest hb).trans h.class_eq
  optimize_eq := (congrArg Generation.optimizeImports hb).trans h.optimize_eq
  methods := by
    intro k hk
    rw [hproviders] at hk
    have hcases : k ∈ ms ++ a.providers ∨ k ∈ m :: added := by
      simp only [List.mem_append, List.mem_cons, List.not_mem_nil, or_false] at hk ⊢
      exact or_or_or_comm.mp hk
    exact hcases.elim (h.methods k) (hm k)
  providers := by
    rw [hproviders]
    exact List.forall_mem_append.mpr ⟨h.providers, hadded⟩

/-- A method that lists errors is built, as it has comments only. -/
theorem isBuilt_listing {config : Config} (a : Assembly) (e : Executable) (errors : ErrorCounts) :
    (a.listing e errors).IsBuilt config where
  body := List.forall_mem_singleton.mpr (.comments _)
  tables htabular := by cases htabular
  helper h hkind := by cases hkind
  calls h hcall := by cases Stmt.call_singleton.mp hcall
  plain _ := ⟨rfl, rfl⟩

theorem writesBuilt_invariant (g : Generation) : Invariant (WritesBuilt g) where
  enter e h := ⟨h.config_eq, h.class_eq, h.optimize_eq, h.methods, h.providers⟩
  leave h := ⟨h.config_eq, h.class_eq, h.optimize_eq, h.methods, h.providers⟩
  tested w h hplain htest := by
    have hg := Execution.restore_of_toTest_ok htest
    refine h.add _ hg ((providers_tested _ w _ _).trans (List.append_nil _).symm) ?_
      (List.forall_mem_nil _)
    have hbuilt := Execution.isBuilt_of_toTest_ok htest
    rw [h.config_eq] at hbuilt
    exact List.forall_mem_singleton.mpr hbuilt
  tabled w h htable := by
    obtain ⟨htest, hprovider, hnone⟩ := TestSet.isBuilt_of_toTable_ok htable
    rw [h.config_eq] at htest hprovider
    have hg := TestSet.restore_of_toTable_ok htable
    refine h.add _ hg (providers_tabled _ w _ _) ?_
      (List.forall_mem_singleton.mpr hnone)
    exact List.forall_mem_cons.mpr ⟨htest, List.forall_mem_singleton.mpr hprovider⟩
  counted w cause h hcur := by
    refine ⟨h.config_eq, h.class_eq, h.optimize_eq, ?_, ?_⟩
    · rw [providers_counted]
      exact h.methods
    · rw [providers_counted]
      exact h.providers
  listed {_ a} e errors h := by
    refine h.add (a.listing e errors) rfl (List.append_nil _).symm ?_ (List.forall_mem_nil _)
    exact List.forall_mem_singleton.mpr (isBuilt_listing a e errors)

end Assembly

/-- What the file of a construction is made of. -/
structure Construction.Follows (c : Construction) (g : Generation) (sets : List TestSet) :
    Prop where
  config_eq : c.generation.config = g.config
  class_eq : c.generation.classUnderTest = g.classUnderTest
  optimize_eq : c.generation.optimizeImports = g.optimizeImports
  file_eq : c.file = c.generation.fileOf c.file.testClass
  testClass_eq : c.file.testClass =
    c.generation.testClass c.file.testClass.regions c.file.testClass.statics
  built : ∀ m ∈ c.file.testClass.methods, m.IsBuilt g.config
  executables : ∀ m ∈ c.file.testClass.methods, ∀ e, m.executable? = some e →
    ∃ set ∈ sets, set.executable = e
  statics : ∀ m ∈ c.file.testClass.statics.methods, m.executable? = none

theorem Construction.Follows.methods {c : Construction} {g : Generation} {sets : List TestSet}
    (h : c.Follows g sets) : ∀ m ∈ c.file.testClass.methods, m.IsOrdinary :=
  fun m hm => (h.built m hm).isOrdinary

/-- A construction succeeds, the methods of its class are built of the forms, and the executables
that they test are those of the sets. -/
theorem Generation.construct_follows (g : Generation) (sets : List TestSet) :
    ∃ c, g.construct sets = .ok c ∧ c.Follows g sets := by
  obtain ⟨regions, a, hsets, ha⟩ :=
    (Assembly.writesBuilt_invariant g).addSets (Assembly.WritesBuilt.start g) sets
  rw [List.nil_append] at ha
  obtain ⟨regions', a', hsets', hbelongs, -⟩ := Assembly.addSets_belong (.start g) sets
  rw [hsets] at hsets'
  cases hsets'
  obtain ⟨statics, b, hstatics, hconstruct⟩ := Generation.construct_eq hsets
  have hstatic : ∀ m ∈ statics.methods, m ∈ a.providers ∨
      ∃ h, h.supported g.config.language = true ∧ m = .ofHelper h := by
    intro m hm
    rw [(Assembly.methods_of_addStatics hstatics).1] at hm
    rcases List.mem_append.mp hm with hm | hm
    · exact Or.inl hm
    · split at hm
      · obtain ⟨h, hh, rfl⟩ := List.mem_map.mp hm
        obtain ⟨k, -, hreaches⟩ := (Helper.mem_resolve_iff _ _ _).mp hh
        have hsupported := hreaches.fresh_right.1
        rw [Generation.language, ha.config_eq] at hsupported
        exact Or.inr ⟨h, hsupported, rfl⟩
      · cases hm
  refine ⟨_, hconstruct, ?_⟩
  have hnone : ∀ m ∈ statics.methods, m.executable? = none := by
    intro m hm
    rcases hstatic m hm with hprovider | ⟨h, -, rfl⟩
    · exact ha.providers m hprovider
    · rfl
  cases hstatics
  refine ⟨ha.config_eq, ha.class_eq, ha.optimize_eq, rfl, rfl, ?_, ?_, hnone⟩
  · intro m hm
    rcases List.mem_append.mp hm with hm | hm
    · exact ha.methods m (List.mem_append_left _ hm)
    · rcases hstatic m hm with hprovider | ⟨h, hh, rfl⟩
      · exact ha.methods m (List.mem_append_right _ hprovider)
      · exact Method.isBuilt_ofHelper hh
  · intro m hm e he
    rcases List.mem_append.mp hm with hm | hm
    · obtain ⟨r, hr, hm⟩ := List.mem_flatMap.mp hm
      obtain ⟨set, hset, hbelongs⟩ := exists_right_of_forall₂ hbelongs hr
      rw [hbelongs.owned m hm] at he
      exact ⟨set, (List.mem_filter.mp hset).1, Option.some_inj.mp he⟩
    · rw [hnone m hm] at he
      cases he

end TestWriter
