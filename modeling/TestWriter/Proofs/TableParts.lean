import TestWriter.Proofs.Contributions
import TestWriter.Proofs.ReportAgreement

/-!
# What sets contribute as tables

Where the runs of a set become one table, the set contributes either a parameterized test and its
data provider, or one count of an error.  Main statement: a class is made of the parts of its sets:
the regions are theirs in order, the data providers are theirs in order, and the errors counted are
those of the sets without a table.
-/

namespace TestWriter

/-- A set has a table unless there is an obstacle to it, and it is built in some state of a
generation with the configuration. -/
structure TestSet.Tabulates (set : TestSet) (config : Config) (table : Option ParameterizedTest) :
    Prop where
  refused : ∀ cause, set.tableObstacle config = some cause → table = none
  built : set.tableObstacle config = none →
    ∃ t g g', table = some t ∧ g.config = config ∧ set.toTable g = .ok t g'

/-- A table that a set has was built from it. -/
theorem TestSet.Tabulates.of_mem {set : TestSet} {config : Config}
    {table : Option ParameterizedTest} (h : set.Tabulates config table) {t : ParameterizedTest}
    (ht : t ∈ table) : ∃ g g', g.config = config ∧ set.toTable g = .ok t g' := by
  cases hobstacle : set.tableObstacle config with
  | some cause =>
      rw [h.refused cause hobstacle] at ht
      cases ht
  | none =>
      obtain ⟨t', g, g', rfl, hconfig, htable⟩ := h.built hobstacle
      cases ht
      exact ⟨g, g', hconfig, htable⟩

/-- The test of a table is parameterized. -/
theorem TestSet.Tabulates.kind_eq {set : TestSet} {config : Config}
    {table : Option ParameterizedTest} (h : set.Tabulates config table) {t : ParameterizedTest}
    (ht : t ∈ table) :
    t.test.kind = .parameterized set.executable t.provider.name ∧
      t.provider.kind = .dataProvider := by
  obtain ⟨g, g', -, htable⟩ := h.of_mem ht
  obtain ⟨_, _, _, _, _, _, _, _, -, -, rfl, -⟩ := TestSet.eq_of_toTable_ok htable
  exact ⟨rfl, rfl⟩

/-- The errors after a set: with one more error of its executable if it has no table. -/
def TestSet.countTable (set : TestSet) (config : Config)
    (errors : OrderedMap Executable ErrorCounts) : OrderedMap Executable ErrorCounts :=
  match set.tableObstacle config with
  | none => errors
  | some cause => errors.alter set.executable fun old => (old.getD .empty).add cause.message 1

/-- A set with its region, and its table if it has one. -/
structure TablePart where
  set : TestSet
  region : Region
  table : Option ParameterizedTest

namespace TablePart

/-- The parameterized test of a part, if it has a table. -/
def tests (p : TablePart) : List Method := p.table.toList.map ParameterizedTest.test

/-- The data provider of a part, if it has a table. -/
def providers (p : TablePart) : List Method := p.table.toList.map ParameterizedTest.provider

/-- The region of a part holds the parameterized test and lists of errors. -/
structure Holds (config : Config) (p : TablePart) : Prop where
  tabulates : p.set.Tabulates config p.table
  belongs : p.region.BelongsTo p.set
  methods : ∃ listings, p.region.methods = p.tests ++ listings ∧
    ∀ m ∈ listings, m.Lists p.set.executable

end TablePart

namespace Assembly

open Region (methodsOf)

variable {a : Assembly} {config : Config} {set : TestSet}

/-- A set adds its table or counts the error. -/
theorem addTable_tabulates (hconfig : a.generation.config = config)
    (hcur : a.generation.current = some set.executable) :
    ∃ table items b, addTable set a = .ok items b ∧ set.Tabulates config table ∧
      methodsOf items = table.toList.map ParameterizedTest.test ∧
      b.providers = a.providers ++ table.toList.map ParameterizedTest.provider ∧
      b.generation.errors = set.countTable config a.generation.errors ∧
      b.generation.config = config := by
  rcases addTable_cases hcur with ⟨ho, t, g, htable, heq⟩ | ⟨cause, ho, heq⟩
  · rw [hconfig] at ho
    have hback := TestSet.restore_of_toTable_ok htable
    have herrors : (g.restore a.generation.usage).errors = a.generation.errors := by rw [hback]
    refine ⟨some t, _, _, heq, ⟨fun cause h => ?_, fun _ => ⟨t, _, g, rfl, hconfig, htable⟩⟩, rfl,
      providers_tabled a _ t g, ?_, (TestSet.config_of_toTable_ok htable).trans hconfig⟩
    · rw [ho] at h
      cases h
    · rw [TestSet.countTable, ho]
      exact herrors
  · rw [hconfig] at ho
    refine ⟨none, _, _, heq, ⟨fun _ _ => rfl, fun h => ?_⟩, rfl, ?_, ?_, hconfig⟩
    · rw [ho] at h
      cases h
    · rw [providers_counted]
      exact (List.append_nil _).symm
    · rw [TestSet.countTable, ho]
      rfl

/-- A set that has runs adds one part. -/
theorem addSet_part (htables : config.isParameterized = true)
    (hconfig : a.generation.config = config) (hcovered : set.isCovered = true) :
    ∃ r table b, addSet set a = .ok (some r) b ∧ TablePart.Holds config ⟨set, r, table⟩ ∧
      b.providers = a.providers ++ table.toList.map ParameterizedTest.provider ∧
      b.generation.errors = set.countTable config a.generation.errors ∧
      b.generation.config = config := by
  obtain ⟨table, items, b, htable, htabulates, hmethods, hproviders, herrors, hb⟩ :=
    addTable_tabulates (a := a.entered set.executable) hconfig rfl
  have htests : addTests set (a.entered set.executable) = .ok items b := by
    have htrue : (a.entered set.executable).generation.config.isParameterized = true :=
      (congrArg Config.isParameterized hconfig).trans htables
    simp only [addTests]
    rw [htrue]
    exact htable
  have hlisted : ∃ more c, addErrors set b = .ok more c ∧ c.providers = b.providers ∧
      c.generation.errors = b.generation.errors ∧ c.generation.config = config ∧
      ∀ m ∈ methodsOf more, m.Lists set.executable := by
    rcases addErrors_cases set b with ⟨-, heq⟩ | ⟨-, more, hlisting, heq⟩
    · exact ⟨[], b, heq, rfl, rfl, hb, List.forall_mem_nil _⟩
    · refine ⟨more, _, heq, rfl, rfl, hb, ?_⟩
      rw [hlisting]
      exact List.forall_mem_singleton.mpr ⟨_, _, rfl⟩
  obtain ⟨more, c, hmore, hproviders', herrors', hc, hlists⟩ := hlisted
  obtain ⟨r, hr, hregion⟩ := addSet_eq htests hmore
  obtain ⟨r', b', hr', hbelongs, -⟩ := addSet_belongs a hcovered
  rw [hr] at hr'
  cases hr'
  refine ⟨r', table, _, hr, ⟨htabulates, hbelongs, methodsOf more, ?_, hlists⟩,
    hproviders'.trans hproviders, herrors'.trans herrors, hc⟩
  have hsingle : r'.methods = methodsOf (items ++ more) := by simpa using hregion
  rw [hsingle, Region.methodsOf_append, hmethods]
  rfl

/-- The sets that have runs add a part each. -/
theorem addSets_parts (htables : config.isParameterized = true)
    (hconfig : a.generation.config = config) (sets : List TestSet) :
    ∃ (parts : List TablePart) (b : Assembly),
      addSets sets a = .ok (parts.map TablePart.region) b ∧
      parts.map TablePart.set = sets.filter TestSet.isCovered ∧
      (∀ p ∈ parts, p.Holds config) ∧
      b.providers = a.providers ++ parts.flatMap TablePart.providers ∧
      b.generation.errors =
        parts.foldl (fun errors p => p.set.countTable config errors) a.generation.errors := by
  induction sets generalizing a with
  | nil =>
      exact ⟨[], a, rfl, rfl, List.forall_mem_nil _, (List.append_nil _).symm, rfl⟩
  | cons set rest ih =>
      cases hcovered : set.isCovered with
      | true =>
          obtain ⟨r, table, b, hset, hholds, hproviders, herrors, hb⟩ :=
            addSet_part htables hconfig hcovered
          obtain ⟨parts, c, hrest, hsets, hparts, hproviders', herrors'⟩ := ih hb
          have hfirst := (addCovered_of_isCovered hcovered a).trans hset
          refine ⟨⟨set, r, table⟩ :: parts, c, addSets_cons_eq hfirst hrest, ?_,
            List.forall_mem_cons.mpr ⟨hholds, hparts⟩, ?_, ?_⟩
          · rw [List.filter_cons_of_pos hcovered, List.map_cons, hsets]
          · rw [hproviders', hproviders, List.flatMap_cons, List.append_assoc]
            rfl
          · rw [herrors', herrors, List.foldl_cons]
      | false =>
          obtain ⟨parts, c, hrest, hsets, hparts⟩ := ih hconfig
          have hfirst := addCovered_of_not_isCovered hcovered a
          refine ⟨parts, c, addSets_cons_eq hfirst hrest, ?_, hparts⟩
          rw [List.filter_cons_of_neg (by simp [hcovered]), hsets]

end Assembly

/-- A class of tables is made of the parts of the sets that have runs. -/
structure Construction.HasParts (c : Construction) (g : Generation) (sets : List TestSet)
    (parts : List TablePart) : Prop where
  sets_eq : parts.map TablePart.set = sets.filter TestSet.isCovered
  regions_eq : c.file.testClass.regions = parts.map TablePart.region
  statics_eq : ∃ helpers : List Helper, c.file.testClass.statics.methods =
    parts.flatMap TablePart.providers ++ helpers.map Method.ofHelper
  errors_eq : c.generation.errors =
    parts.foldl (fun errors p => p.set.countTable g.config errors) g.errors
  holds : ∀ p ∈ parts, p.Holds g.config

theorem Generation.construct_parts {g : Generation} (htables : g.config.isParameterized = true)
    (sets : List TestSet) : ∃ c parts, g.construct sets = .ok c ∧ c.HasParts g sets parts := by
  obtain ⟨parts, a, haddSets, hsets, hholds, hproviders, herrors⟩ :=
    Assembly.addSets_parts htables (a := .start g) rfl sets
  obtain ⟨statics, b, hstatics, hconstruct⟩ := construct_eq haddSets
  obtain ⟨helpers, hmethods⟩ := Assembly.exists_helpers_of_addStatics hstatics
  have herrors' : b.generation.errors = a.generation.errors := by
    cases hstatics
    rfl
  rw [hproviders] at hmethods
  exact ⟨_, parts, hconstruct, hsets, rfl, ⟨helpers, hmethods⟩, herrors'.trans herrors, hholds⟩

end TestWriter
