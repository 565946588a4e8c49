import TestWriter.Proofs.Contributions
import TestWriter.Proofs.Isolation
import TestWriter.Proofs.MethodNames

/-!
# Clashes of method names

The helpers that a class holds come with names of their own, which are not taken from the supply of
its methods.  Main statement: the methods of a class have different names unless the class holds a
helper whose very name is suggested for the test of a run.
-/

namespace TestWriter

/-! ## Shapes of names -/

namespace NameSupply

variable {s : NameSupply} {base separator : String}

/-- A name starts like its base. -/
theorem head?_claim {c : Char} (h : base.toList.head? = some c) :
    (s.claim base separator).1.toList.head? = some c := by
  rcases claim_cases s base separator with heq | ⟨n, heq⟩
  · rw [heq]
    exact h
  · rw [heq, numbered, String.append_assoc, String.toList_append, List.head?_append, h]
    rfl

/-- A counter ends in a digit. -/
theorem exists_digit_numbered (base separator : String) (n : Nat) :
    ∃ c, (numbered base separator n).toList.getLast? = some c ∧ c.isDigit = true := by
  have hdigits : (toString n).toList = Nat.toDigits 10 n := Nat.toList_repr
  obtain ⟨c, hc⟩ := List.getLast?_isSome.mpr (Nat.toDigits_ne_nil (n := n) (b := 10)) |>
    Option.isSome_iff_exists.mp
  rw [← hdigits] at hc
  refine ⟨c, ?_, isDigit_of_mem_toString (List.mem_of_getLast? hc)⟩
  rw [numbered, String.toList_append, List.getLast?_append, hc]
  rfl

end NameSupply

namespace Helper

theorem not_isDigit_of_getLast? {h : Helper} {c : Char} (hc : h.name.toList.getLast? = some c) :
    c.isDigit = false := by
  have hall : ∀ k ∈ all, (k.name.toList.getLast?.all fun d => !d.isDigit) = true := by decide
  have hname := hall h (mem_all h)
  rw [hc] at hname
  simpa using hname

/-- A helper is named neither like a test nor like a data provider. -/
theorem ne_name_of_head? {name : String}
    (hname : name.toList.head? = some 't' ∨ name.toList.head? = some 'p') (h : Helper) :
    name ≠ h.name := by
  rintro rfl
  revert hname
  cases h <;> decide

/-- A name that is made from a base has the name of a helper only if the base has it. -/
theorem eq_of_claim_eq {s : NameSupply} {base separator : String} {h : Helper}
    (heq : (s.claim base separator).1 = h.name) : base = h.name := by
  rcases NameSupply.claim_cases s base separator with hbase | ⟨n, hn⟩
  · exact hbase.symm.trans heq
  · obtain ⟨c, hc, hdigit⟩ := NameSupply.exists_digit_numbered base separator n
    rw [← hn, heq] at hc
    rw [not_isDigit_of_getLast? hc] at hdigit
    cases hdigit

end Helper

namespace MethodNames

theorem head?_style_python (camel : String) :
    (style .python camel).toList.head? = some 't' := by
  simp only [style]
  split
  · next hprefix =>
    obtain ⟨rest, hrest⟩ := List.isPrefixOf_iff_prefix.mp hprefix
    rw [← hrest]
    rfl
  · rw [String.toList_append]
    rfl

theorem head?_snakeCase {name : String} {c : Char} (hc : Text.isUpper c = false)
    (h : name.toList.head? = some c) : (Text.snakeCase name).toList.head? = some c := by
  obtain ⟨rest, hrest⟩ := List.head?_eq_some_iff.mp h
  simp [Text.snakeCase, hrest, Text.snake, hc]

section

variable {names : MethodNames} (e : Executable) {h : Helper}

theorem parameterizedTest_ne_name : (names.parameterizedTest e).1 ≠ h.name := by
  apply Helper.ne_name_of_head?
  by_cases hpython : names.language = .python
  · refine Or.inl (NameSupply.head?_claim ?_)
    simp [hpython, String.toList_append]
  · refine Or.inr (NameSupply.head?_claim ?_)
    simp [hpython, String.toList_append]

theorem dataProvider_ne_name : (names.dataProvider e).1 ≠ h.name := by
  refine Helper.ne_name_of_head? (Or.inr (NameSupply.head?_claim ?_)) h
  have hhead : ("provideDataFor" ++ Text.capitalize e.displayName).toList.head? = some 'p' := by
    simp [String.toList_append]
  split
  · exact head?_snakeCase (by decide) hhead
  · exact hhead

variable (hgo : names.language ≠ .go)

include hgo

theorem errorReport_ne_name : (names.errorReport e).1 ≠ h.name := by
  refine Helper.ne_name_of_head? (Or.inl (NameSupply.head?_claim ?_)) h
  cases hlanguage : names.language with
  | python => exact head?_style_python _
  | go => exact absurd hlanguage hgo
  | java => simp [style, String.toList_append]
  | kotlin => simp [style, String.toList_append]
  | javascript => simp [style, String.toList_append]

/-- The test of a run has the name of a helper only if this very name is suggested for it. -/
theorem suggested_of_test_eq_name {run : Execution} (heq : (names.test e run).1 = h.name) :
    names.language ≠ .python ∧ run.testName = some h.name := by
  have hbase := Helper.eq_of_claim_eq heq
  have hpython : names.language ≠ .python := by
    intro hpython
    rw [testBase, hpython] at hbase
    exact Helper.ne_name_of_head? (Or.inl (head?_style_python _)) h hbase
  refine ⟨hpython, ?_⟩
  have hplain : ∀ camel, style names.language camel = camel := by
    intro camel
    cases hlanguage : names.language <;> simp_all [style]
  rw [testBase, hplain] at hbase
  cases hsuggested : run.testName with
  | some name =>
      rw [hsuggested] at hbase
      exact congrArg some hbase
  | none =>
      rw [hsuggested] at hbase
      refine absurd hbase (Helper.ne_name_of_head? (Or.inl ?_) h)
      simp [String.toList_append]

end

/-- A suggested name is the base of its test, but for the languages that style the names of
tests. -/
theorem testBase_of_jvm {language : Language} (hjvm : language.isJvm = true) (e : Executable)
    {run : Execution} {name : String} (hname : run.testName = some name) :
    testBase language e run = name := by
  cases language <;> simp_all [testBase, style, Language.isJvm]

end MethodNames

/-! ## Names of the methods of a class -/

theorem Execution.names_of_toTest_ok {run : Execution} {e : Executable} {g g' : Generation}
    {m : Method} (h : run.toTest e g = .ok m g') :
    m.name = (g.usage.names.test e run).1 ∧ g'.usage.names = (g.usage.names.test e run).2 := by
  obtain ⟨body, d, hd, rfl, rfl⟩ := exists_draft_of_toTest_ok h
  have hnames : d.generation.usage.names = g.usage.names :=
    Draft.keepsNames_composable.bodyOfRun _ e run _ _ _ hd
  rw [← hnames]
  exact ⟨rfl, rfl⟩

theorem TestSet.names_of_toTable_ok {set : TestSet} {g g' : Generation} {t : ParameterizedTest}
    (h : set.toTable g = .ok t g') :
    t.provider.name = (g.usage.names.dataProvider set.executable).1 ∧
      t.test.name = ((g.usage.names.dataProvider set.executable).2.parameterizedTest
        set.executable).1 ∧
      g'.usage.names.language = g.usage.names.language := by
  obtain ⟨providerBody, d, testBody, d', hd, hd', rfl, rfl⟩ := exists_drafts_of_toTable_ok h
  have hnames : d'.generation.usage.names = (g.usage.names.dataProvider set.executable).2 :=
    (Draft.keepsNames_composable.tableBody _ _ _ _ _ _ hd').trans
      (Draft.keepsNames_composable.providerBody _ _ _ _ _ _ _ hd)
  refine ⟨rfl, ?_, ?_⟩
  · rw [← hnames]
    rfl
  · change d'.generation.usage.names.language = _
    rw [hnames]
    rfl

namespace Assembly

/-- A name is taken in the class. -/
def HasTaken (a : Assembly) (name : String) : Prop :=
  a.generation.usage.names.supply.isTaken name = true

/-- The names that are taken are those of the methods, and of these only the tests of runs may be
named like a helper. -/
structure Settled (config : Config) (ms : List Method) (a : Assembly) : Prop where
  config_eq : a.generation.config = config
  language_eq : a.generation.usage.names.language = config.language
  owned : ∀ x, a.HasTaken x → ∃ m ∈ ms ++ a.providers, m.name = x
  others : config.language ≠ .go → ∀ m ∈ ms ++ a.providers, m.isRunTest = false →
    ∀ h : Helper, m.name ≠ h.name
  tables : config.isParameterized = true → ∀ m ∈ ms ++ a.providers, m.isRunTest = false
  providers : ∀ m ∈ a.providers, m.isRunTest = false

variable {config : Config} {ms ms' : List Method} {a b : Assembly} {e : Executable}

theorem Settled.start {g : Generation} (hlanguage : g.usage.names = .new g.config.language) :
    Settled g.config [] (.start g) where
  config_eq := rfl
  language_eq := congrArg MethodNames.language hlanguage
  owned x hx := by
    change g.usage.names.supply.isTaken x = true at hx
    rw [hlanguage] at hx
    cases hx
  others _ := List.forall_mem_nil _
  tables _ := List.forall_mem_nil _
  providers := List.forall_mem_nil _

/-- Methods that take their names are added. -/
theorem Settled.add (h : Settled config ms a) (added : List Method)
    (hconfig : b.generation.config = a.generation.config)
    (hlanguage : b.generation.usage.names.language = a.generation.usage.names.language)
    (hnames : a.generation.usage.names.Takes b.generation.usage.names (added.map Method.name))
    (hmethods : ∀ m, m ∈ ms' ++ b.providers ↔ m ∈ ms ++ a.providers ∨ m ∈ added)
    (hothers : config.language ≠ .go → ∀ m ∈ added, m.isRunTest = false →
      ∀ k : Helper, m.name ≠ k.name)
    (htables : config.isParameterized = true → ∀ m ∈ added, m.isRunTest = false)
    (hproviders : ∀ m ∈ b.providers, m.isRunTest = false) :
    Settled config ms' b where
  config_eq := hconfig.trans h.config_eq
  language_eq := hlanguage.trans h.language_eq
  owned x hx := by
    rcases (hnames.taken x).mp hx with hold | hnew
    · obtain ⟨m, hm, rfl⟩ := h.owned x hold
      exact ⟨m, (hmethods m).mpr (Or.inl hm), rfl⟩
    · obtain ⟨m, hm, rfl⟩ := List.mem_map.mp hnew
      exact ⟨m, (hmethods m).mpr (Or.inr hm), rfl⟩
  others hgo m hm := ((hmethods m).mp hm).elim (h.others hgo m) (hothers hgo m)
  tables hparameterized m hm :=
    ((hmethods m).mp hm).elim (h.tables hparameterized m) (htables hparameterized m)
  providers := hproviders

theorem settled_invariant (config : Config) : Invariant (Settled config) where
  enter e h := ⟨h.config_eq, h.language_eq, h.owned, h.others, h.tables, h.providers⟩
  leave h := ⟨h.config_eq, h.language_eq, h.owned, h.others, h.tables, h.providers⟩
  tested {ms a run e m g} w h hplain htest := by
    have hconfig := Execution.config_of_toTest_ok htest
    have hrun := Execution.isRunTest_of_toTest_ok htest
    have hlanguage := congrArg MethodNames.language (Execution.names_of_toTest_ok htest).2
    refine h.add [m] hconfig hlanguage (Execution.takes_of_toTest_ok htest)
      (fun _ => mem_tested_iff w m) ?_ ?_ ?_
    · simp [hrun]
    · intro hparameterized
      rw [h.config_eq, hparameterized] at hplain
      cases hplain
    · rw [providers_tested]
      exact h.providers
  tabled {ms a set t g} w h htable := by
    have hconfig := TestSet.config_of_toTable_ok htable
    obtain ⟨hprovider, htest, hlanguage⟩ := TestSet.names_of_toTable_ok htable
    obtain ⟨_, _, _, _, _, _, _, _, -, -, rfl, -⟩ := TestSet.eq_of_toTable_ok htable
    refine h.add [_, _] hconfig hlanguage (TestSet.takes_of_toTable_ok htable) ?_ ?_ ?_ ?_
    · intro k
      rw [mem_tabled_iff]
      simp only [List.mem_cons, List.not_mem_nil, or_false]
      rw [or_comm (a := k = _)]
    · intro _ m hm _ k
      simp only [List.mem_cons, List.not_mem_nil, or_false] at hm
      rcases hm with rfl | rfl
      · rw [hprovider]
        exact MethodNames.dataProvider_ne_name _
      · rw [htest]
        exact MethodNames.parameterizedTest_ne_name _
    · intro _ m hm
      simp only [List.mem_cons, List.not_mem_nil, or_false] at hm
      rcases hm with rfl | rfl <;> rfl
    · rw [providers_tabled]
      exact List.forall_mem_append.mpr ⟨h.providers, List.forall_mem_singleton.mpr rfl⟩
  counted {ms a e} w cause h _ := by
    refine ⟨h.config_eq, h.language_eq, ?_, ?_, ?_, ?_⟩
    · rw [providers_counted]
      exact h.owned
    · rw [providers_counted]
      exact h.others
    · rw [providers_counted]
      exact h.tables
    · rw [providers_counted]
      exact h.providers
  listed {ms a} e errors h := by
    refine h.add [a.listing e errors] rfl rfl (MethodNames.takes_unique _ _)
      (fun _ => mem_listed_iff a e errors) ?_ ?_ h.providers
    · intro hgo m hm _ k
      rw [← h.language_eq] at hgo
      rw [List.mem_singleton.mp hm]
      exact MethodNames.errorReport_ne_name _ hgo
    · intro _ m hm
      rw [List.mem_singleton.mp hm]
      rfl

/-- A name that is taken stays taken. -/
theorem hasTaken_invariant (x : String) : Invariant fun _ a => a.HasTaken x where
  enter _ h := h
  leave h := h
  tested _ h _ htest := ((Execution.takes_of_toTest_ok htest).taken x).mpr (Or.inl h)
  tabled _ h htable := ((TestSet.takes_of_toTable_ok htable).taken x).mpr (Or.inl h)
  counted _ _ h _ := h
  listed _ _ h := ((MethodNames.takes_unique _ _).taken x).mpr (Or.inl h)

namespace HasTaken

variable {x : String}

theorem addRuns (h : a.HasTaken x) (hcur : a.generation.current = some e)
    (hplain : a.generation.config.isParameterized = false) (runs : List Execution) :
    ∃ ns b, Assembly.addRuns e runs a = .ok ns b ∧ b.HasTaken x :=
  @Invariant.addRuns _ _ _ [] (hasTaken_invariant x) hcur hplain h runs

theorem listed (h : a.HasTaken x) (e : Executable) (errors : ErrorCounts) :
    (a.listed e errors).HasTaken x :=
  @Invariant.listed _ (hasTaken_invariant x) [] _ e errors h

theorem addSets (h : a.HasTaken x) (sets : List TestSet) :
    ∃ regions b, Assembly.addSets sets a = .ok regions b ∧ b.HasTaken x :=
  @Invariant.addSets _ _ [] (hasTaken_invariant x) h sets

end HasTaken

/-- The name of a method is made for the test of a run. -/
def MadeFor (config : Config) (e : Executable) (run : Execution) (m : Method) : Prop :=
  ∃ names : MethodNames, names.language = config.language ∧ m.name = (names.test e run).1

/-- The tests among some methods are named for some runs, and the base for each of these runs is
taken. -/
structure NamesRuns (config : Config) (e : Executable) (runs : List Execution) (ms : List Method)
    (a : Assembly) : Prop where
  made : ∀ m ∈ ms, m.isRunTest = true → ∃ run ∈ runs, MadeFor config e run m
  claimed : ∀ run ∈ runs, a.HasTaken (MethodNames.testBase config.language e run)

theorem addRuns_names (hplain : config.isParameterized = false)
    (hcur : a.generation.current = some e) (ha : Settled config ms a) (runs : List Execution) :
    ∃ ns b, addRuns e runs a = .ok ns b ∧
      NamesRuns config e (runs.filter fun run => !run.fails config e) ns b := by
  induction runs generalizing a ms with
  | nil => exact ⟨[], a, rfl, List.forall_mem_nil _, List.forall_mem_nil _⟩
  | cons run rest ih =>
      have hplain' : a.generation.config.isParameterized = false := by rw [ha.config_eq, hplain]
      obtain ⟨m, b, hrun, hb⟩ := (settled_invariant config).addRun hcur hplain' ha run
      obtain ⟨m', b', hrun', -, hcur'⟩ := addRun_ok hcur run
      rw [hrun] at hrun'
      cases hrun'
      obtain ⟨ns, c, hrest, hnames⟩ := ih hcur' hb
      refine ⟨_, c, addRuns_cons_eq hrun hrest, ?_⟩
      rcases addRun_cases hcur run with ⟨ho, k, g, htest, heq⟩ | ⟨cause, ho, heq⟩
      · rw [hrun] at heq
        cases heq
        rw [ha.config_eq] at ho
        rw [List.filter_cons_of_pos (by simp [Execution.fails, ho])]
        obtain ⟨hname, hafter⟩ := Execution.names_of_toTest_ok htest
        -- The base is taken by the test, and the runs after it do not give it back.
        have htaken : (a.tested (run.warning? a.generation.config e) k g).HasTaken
            (MethodNames.testBase config.language e run) := by
          change g.usage.names.supply.isTaken _ = true
          rw [hafter, ← ha.language_eq]
          exact NameSupply.isTaken_base_claim
        obtain ⟨ns', c', hrest', hkept⟩ := htaken.addRuns hcur'
          (by rw [hb.config_eq, hplain]) rest
        rw [hrest] at hrest'
        cases hrest'
        constructor
        · intro n hn hrunTest
          rcases List.mem_append.mp hn with hn | hn
          · cases Option.mem_toList.mp hn
            exact ⟨run, List.mem_cons_self, _, ha.language_eq, hname⟩
          · obtain ⟨run', hrun', hmade⟩ := hnames.made n hn hrunTest
            exact ⟨run', List.mem_cons_of_mem _ hrun', hmade⟩
        · exact List.forall_mem_cons.mpr ⟨hkept, hnames.claimed⟩
      · rw [hrun] at heq
        cases heq
        rw [ha.config_eq] at ho
        rw [List.filter_cons_of_neg (by simp [Execution.fails, ho])]
        exact hnames

theorem addSet_names (hplain : config.isParameterized = false) (ha : Settled config ms a)
    (set : TestSet) :
    ∃ r b, addSet set a = .ok r b ∧ NamesRuns config set.executable (set.writable config)
      (r.toList.flatMap Region.methods) b := by
  have hentered := (settled_invariant config).enter set.executable ha
  obtain ⟨ns, b, hruns, hnames⟩ := addRuns_names hplain rfl hentered set.executions
  obtain ⟨items, hitems, hmethods⟩ := addGroups_groups rfl hruns
  have htests : addTests set (a.entered set.executable) = .ok items b := by
    have hfalse : (a.entered set.executable).generation.config.isParameterized = false := by
      rw [hentered.config_eq, hplain]
    simp only [addTests]
    rw [hfalse]
    exact hitems
  have herrors : ∃ more c, addErrors set b = .ok more c ∧
      (∀ x, b.HasTaken x → c.HasTaken x) ∧
      ∀ m ∈ Region.methodsOf more, m.isRunTest = false := by
    rcases addErrors_cases set b with ⟨-, heq⟩ | ⟨-, more, hlisting, heq⟩
    · exact ⟨[], b, heq, fun _ hx => hx, List.forall_mem_nil _⟩
    · refine ⟨more, _, heq, fun x hx => hx.listed _ _, ?_⟩
      rw [hlisting]
      exact List.forall_mem_singleton.mpr rfl
  obtain ⟨more, c, hmore, hkept, hlistings⟩ := herrors
  obtain ⟨r, hr, hregion⟩ := addSet_eq htests hmore
  refine ⟨r, _, hr, ?_, fun run hrun => hkept _ (hnames.claimed run hrun)⟩
  rw [hregion, Region.methodsOf_append, hmethods]
  intro m hm hrunTest
  rcases List.mem_append.mp hm with hm | hm
  · exact hnames.made m hm hrunTest
  · rw [hlistings m hm] at hrunTest
    cases hrunTest

theorem addCovered_names (hplain : config.isParameterized = false) (ha : Settled config ms a)
    (set : TestSet) :
    ∃ r b, addCovered set a = .ok r b ∧ NamesRuns config set.executable (set.writable config)
      (r.toList.flatMap Region.methods) b := by
  simp only [addCovered]
  split
  · next hempty =>
    refine ⟨none, a, rfl, List.forall_mem_nil _, ?_⟩
    rw [TestSet.writable_of_isEmpty hempty]
    exact List.forall_mem_nil _
  · exact addSet_names hplain ha set

/-- The tests in the regions are named for the runs of the sets, and the base for each run is
taken in the end. -/
theorem addSets_names (hplain : config.isParameterized = false) (ha : Settled config ms a)
    (sets : List TestSet) :
    ∃ regions b, addSets sets a = .ok regions b ∧
      (∀ m ∈ regions.flatMap Region.methods, m.isRunTest = true →
        ∃ set ∈ sets, ∃ run ∈ set.writable config, MadeFor config set.executable run m) ∧
      ∀ set ∈ sets, ∀ run ∈ set.writable config,
        b.HasTaken (MethodNames.testBase config.language set.executable run) := by
  induction sets generalizing a ms with
  | nil => exact ⟨[], a, rfl, List.forall_mem_nil _, List.forall_mem_nil _⟩
  | cons set rest ih =>
      obtain ⟨r, b, hr, hb⟩ := (settled_invariant config).addCovered ha set
      obtain ⟨r', b', hr', hnames⟩ := addCovered_names hplain ha set
      rw [hr] at hr'
      cases hr'
      obtain ⟨regions, c, hregions, hmade, hclaimed⟩ := ih hb
      refine ⟨_, c, addSets_cons_eq hr hregions, ?_, ?_⟩
      · rw [List.flatMap_append]
        intro m hm hrunTest
        rcases List.mem_append.mp hm with hm | hm
        · exact ⟨set, List.mem_cons_self, hnames.made m hm hrunTest⟩
        · obtain ⟨set', hset', hrun⟩ := hmade m hm hrunTest
          exact ⟨set', List.mem_cons_of_mem _ hset', hrun⟩
      · refine List.forall_mem_cons.mpr ⟨?_, hclaimed⟩
        intro run hrun
        obtain ⟨regions', c', hregions', hkept⟩ := (hnames.claimed run hrun).addSets rest
        rw [hregions] at hregions'
        cases hregions'
        exact hkept

/-- The helpers that a class holds come after its data providers, each of them once. -/
theorem helpers_of_addStatics {statics : Region} (h : addStatics a = .ok statics b) :
    ∃ helpers : List Helper, statics.methods = a.providers ++ helpers.map Method.ofHelper ∧
      helpers.Nodup ∧ ∀ k ∈ helpers, k.supported a.generation.language = true := by
  obtain ⟨hmethods, -⟩ := methods_of_addStatics h
  split at hmethods
  · refine ⟨_, hmethods, Helper.nodup_resolve _ _ _, ?_⟩
    intro k hk
    obtain ⟨l, -, hreaches⟩ := (Helper.mem_resolve_iff _ _ _).mp hk
    exact hreaches.fresh_right.1
  · exact ⟨[], hmethods, List.nodup_nil, List.forall_mem_nil _⟩

/-- Methods and helpers have different names unless a method has the name of a helper. -/
theorem Named.nodup_iff (h : Named ms a) {helpers : List Helper} (hhelpers : helpers.Nodup) :
    (((ms ++ a.providers) ++ helpers.map Method.ofHelper).map Method.name).Nodup ↔
      ¬∃ k ∈ helpers, ∃ m ∈ ms ++ a.providers, m.name = k.name := by
  have hnames : ((helpers.map Method.ofHelper).map Method.name).Nodup := by
    rw [List.map_map]
    exact hhelpers.map fun _ _ => Helper.name_injective
  rw [List.map_append, List.nodup_append]
  constructor
  · rintro ⟨-, -, hne⟩ ⟨k, hk, m, hm, heq⟩
    refine hne _ (List.mem_map_of_mem hm) _ ?_ heq
    exact List.mem_map.mpr ⟨_, List.mem_map_of_mem hk, rfl⟩
  · intro hnone
    refine ⟨h.distinct, hnames, ?_⟩
    rintro x hx _ hx' rfl
    obtain ⟨m, hm, rfl⟩ := List.mem_map.mp hx
    obtain ⟨n, hn, heq⟩ := List.mem_map.mp hx'
    obtain ⟨k, hk, rfl⟩ := List.mem_map.mp hn
    exact hnone ⟨k, hk, m, hm, heq.symm⟩

/-- A helper has the name of another method exactly when it is suggested for the test of a run. -/
theorem clash_iff {start : Assembly} {sets : List TestSet} {regions : List Region}
    {helpers : List Helper} (hstart : Settled config ms' start)
    (hsets : addSets sets start = .ok regions a)
    (ha : Settled config (regions.flatMap Region.methods) a)
    (hsupported : ∀ k ∈ helpers, k.supported config.language = true) :
    (∃ k ∈ helpers, ∃ m ∈ regions.flatMap Region.methods ++ a.providers, m.name = k.name) ↔
      config.language.isJvm = true ∧ config.isParameterized = false ∧
        ∃ k ∈ helpers, ∃ set ∈ sets, ∃ run ∈ set.writable config, run.testName = some k.name := by
  constructor
  · rintro ⟨k, hk, m, hm, heq⟩
    have hlanguage := hsupported k hk
    have hgo : config.language ≠ .go := by
      intro hgo
      rw [hgo] at hlanguage
      cases hlanguage
    have hrunTest : m.isRunTest = true := by
      by_contra hother
      exact ha.others hgo m hm (by simpa using hother) k heq
    have hplain : config.isParameterized = false := by
      by_contra htables
      rw [ha.tables (by simpa using htables) m hm] at hrunTest
      cases hrunTest
    have hregions : m ∈ regions.flatMap Region.methods := by
      rcases List.mem_append.mp hm with hm | hm
      · exact hm
      · rw [ha.providers m hm] at hrunTest
        cases hrunTest
    obtain ⟨regions', b, hsets', hmade, -⟩ := addSets_names hplain hstart sets
    rw [hsets] at hsets'
    cases hsets'
    obtain ⟨set, hset, run, hrun, names, hnames, hname⟩ := hmade m hregions hrunTest
    obtain ⟨hpython, hsuggested⟩ := MethodNames.suggested_of_test_eq_name _ (hnames ▸ hgo)
      (hname.symm.trans heq)
    rw [hnames] at hpython
    refine ⟨?_, hplain, k, hk, set, hset, run, hrun, hsuggested⟩
    cases hcases : config.language <;> simp_all [Helper.supported, Language.isJvm]
  · rintro ⟨hjvm, hplain, k, hk, set, hset, run, hrun, hsuggested⟩
    obtain ⟨regions', b, hsets', -, hclaimed⟩ := addSets_names hplain hstart sets
    rw [hsets] at hsets'
    cases hsets'
    have htaken := hclaimed set hset run hrun
    rw [MethodNames.testBase_of_jvm hjvm _ hsuggested] at htaken
    obtain ⟨m, hm, hname⟩ := ha.owned _ htaken
    exact ⟨k, hk, m, hm, hname⟩

end Assembly

/-- The methods of a class but the helpers have different names.  All its methods have, unless the
tests of the runs are written in a language of the JVM and the class holds a helper whose name is
suggested for one of them. -/
theorem method_names_differ_iff (g : Generation) (customName : Option String) (optimize : Bool)
    (sets : List TestSet) :
    ∃ c, (g.derive customName optimize).construct sets = .ok c ∧
      ((c.file.testClass.methods.filter fun m => m.helper?.isNone).map Method.name).Nodup ∧
      ((c.file.testClass.methods.map Method.name).Nodup ↔
        ¬(g.language.isJvm = true ∧ g.config.isParameterized = false ∧
          ∃ h ∈ c.file.testClass.methods.filterMap Method.helper?, ∃ set ∈ sets,
            ∃ run ∈ set.writable g.config, run.testName = some h.name)) := by
  obtain ⟨regions, a, hsets, hnamed⟩ := Assembly.named_invariant.addSets
    (.start (g.derive customName optimize)) sets
  obtain ⟨regions', a', hsets', hsettled⟩ := (Assembly.settled_invariant g.config).addSets
    (Assembly.Settled.start (g := g.derive customName optimize) rfl) sets
  obtain ⟨regions'', a'', hsets'', hstep⟩ := (Assembly.inStep_invariant g.config).addSets
    (Assembly.InStep.start (g.derive customName optimize) rfl rfl) sets
  rw [hsets] at hsets' hsets''
  cases hsets'
  cases hsets''
  rw [List.nil_append] at hnamed hsettled hstep
  obtain ⟨statics, b, hstatics, hconstruct⟩ := Generation.construct_eq hsets
  obtain ⟨helpers, hmethods, hnodup, hsupported⟩ := Assembly.helpers_of_addStatics hstatics
  rw [Generation.language, hsettled.config_eq] at hsupported
  have hall : (b.finish regions statics).file.testClass.methods =
      (regions.flatMap Region.methods ++ a.providers) ++ helpers.map Method.ofHelper := by
    rw [List.append_assoc, ← hmethods]
    rfl
  have hhelpers : (b.finish regions statics).file.testClass.methods.filterMap Method.helper? =
      helpers := by
    rw [hall, List.filterMap_append, Method.filterMap_helper?_eq_nil hstep.noHelper,
      Method.filterMap_helper?_ofHelper, List.nil_append]
  refine ⟨_, hconstruct, ?_, ?_⟩
  · have hplain : (regions.flatMap Region.methods ++ a.providers).filter
        (fun m => m.helper?.isNone) = regions.flatMap Region.methods ++ a.providers :=
      List.filter_eq_self.mpr fun m hm => by simp [hstep.noHelper m hm]
    have hnone : (helpers.map Method.ofHelper).filter (fun m => m.helper?.isNone) = [] := by
      apply List.filter_eq_nil_iff.mpr
      intro m hm
      obtain ⟨k, -, rfl⟩ := List.mem_map.mp hm
      exact Bool.false_ne_true
    rw [hall, List.filter_append, hplain, hnone, List.append_nil]
    exact hnamed.distinct
  · rw [hhelpers, hall, hnamed.nodup_iff hnodup, not_iff_not]
    exact Assembly.clash_iff (Assembly.Settled.start (g := g.derive customName optimize) rfl) hsets
      hsettled hsupported

end TestWriter
