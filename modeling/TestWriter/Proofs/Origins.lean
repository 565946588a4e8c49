import TestWriter.Proofs.TableParts

/-!
# Origins of methods

Where the methods of a class come from: from a run of a set, from a set as a whole, from the errors
of a set, or from the helpers.  Main statement: every method of a class has such an origin, and
which of them there are depends on the mode of the configuration.
-/

namespace TestWriter

/-- How a method came into the class of some sets under a configuration. -/
inductive Method.ComesFrom (config : Config) (sets : List TestSet) : Method → Prop
  | test {set : TestSet} {run : Execution} {m : Method} (hplain : config.isParameterized = false)
    (hset : set ∈ sets) (hrun : run ∈ set.executions)
    (h : run.Writes config set.executable m) : ComesFrom config sets m
  | table {set : TestSet} {t : ParameterizedTest} {g g' : Generation}
    (htables : config.isParameterized = true) (hset : set ∈ sets) (hconfig : g.config = config)
    (h : set.toTable g = .ok t g') : ComesFrom config sets t.test
  | provider {set : TestSet} {t : ParameterizedTest} {g g' : Generation}
    (htables : config.isParameterized = true) (hset : set ∈ sets) (hconfig : g.config = config)
    (h : set.toTable g = .ok t g') : ComesFrom config sets t.provider
  | listing {set : TestSet} {m : Method} (hset : set ∈ sets) (h : m.Lists set.executable) :
    ComesFrom config sets m
  | helper (h : Helper) : ComesFrom config sets (.ofHelper h)

namespace Generation

variable {g : Generation} {sets : List TestSet} {c : Construction}

/-- With a test for each run, methods come from runs, from errors, or they are helpers. -/
theorem comesFrom_of_plain (hplain : g.config.isParameterized = false)
    (hc : g.construct sets = .ok c) :
    ∀ m ∈ c.file.testClass.methods, m.ComesFrom g.config sets := by
  obtain ⟨regions, a, parts, hsets, hproviders, hmethods, hparts⟩ :=
    Assembly.addSets_contributes hplain (a := .start g) rfl sets
  obtain ⟨statics, b, hstatics, hconstruct⟩ := construct_eq hsets
  obtain ⟨helpers, hhelpers⟩ := Assembly.exists_helpers_of_addStatics hstatics
  cases hc.symm.trans hconstruct
  intro m hm
  rcases List.mem_append.mp hm with hm | hm
  · have hmem : m ∈ parts.flatten := hmethods ▸ hm
    obtain ⟨set, hset, ⟨run, hrun, hwrites⟩ | hlists⟩ := TestSet.cases_of_contributes hparts hmem
    · exact .test hplain hset (List.mem_of_mem_filter hrun) hwrites
    · exact .listing hset hlists
  · have hmem : m ∈ a.providers ++ helpers.map Method.ofHelper := hhelpers ▸ hm
    rw [hproviders] at hmem
    obtain ⟨h, -, rfl⟩ := List.mem_map.mp hmem
    exact .helper h

/-- With tables, methods come from sets as a whole, from errors, or they are helpers. -/
theorem comesFrom_of_tables (htables : g.config.isParameterized = true)
    (hc : g.construct sets = .ok c) :
    ∀ m ∈ c.file.testClass.methods, m.ComesFrom g.config sets := by
  obtain ⟨c', parts, hc', hparts⟩ := construct_parts htables sets
  cases hc.symm.trans hc'
  have hset : ∀ p ∈ parts, p.set ∈ sets := by
    intro p hp
    have hmem : p.set ∈ parts.map TablePart.set := List.mem_map_of_mem hp
    rw [hparts.sets_eq] at hmem
    exact List.mem_of_mem_filter hmem
  have hbuilt : ∀ p ∈ parts, ∀ t ∈ p.table, t.test.ComesFrom g.config sets ∧
      t.provider.ComesFrom g.config sets := by
    intro p hp t ht
    obtain ⟨h, h', hconfig, htable⟩ := (hparts.holds p hp).tabulates.of_mem ht
    exact ⟨.table htables (hset p hp) hconfig htable, .provider htables (hset p hp) hconfig htable⟩
  obtain ⟨helpers, hhelpers⟩ := hparts.statics_eq
  intro m hm
  rw [TestClass.methods, hparts.regions_eq, hhelpers, List.flatMap_map] at hm
  rcases List.mem_append.mp hm with hm | hm
  · obtain ⟨p, hp, hm⟩ := List.mem_flatMap.mp hm
    obtain ⟨listings, hmethods, hlists⟩ := (hparts.holds p hp).methods
    rcases List.mem_append.mp (hmethods ▸ hm) with hm | hm
    · obtain ⟨t, ht, rfl⟩ := List.mem_map.mp hm
      exact (hbuilt p hp t (Option.mem_toList.mp ht)).1
    · exact .listing (hset p hp) (hlists m hm)
  · rcases List.mem_append.mp hm with hm | hm
    · obtain ⟨p, hp, hm⟩ := List.mem_flatMap.mp hm
      obtain ⟨t, ht, rfl⟩ := List.mem_map.mp hm
      exact (hbuilt p hp t (Option.mem_toList.mp ht)).2
    · obtain ⟨h, -, rfl⟩ := List.mem_map.mp hm
      exact .helper h

/-- Every method of a class comes from the sets or is a helper. -/
theorem construct_comesFrom (hc : g.construct sets = .ok c) :
    ∀ m ∈ c.file.testClass.methods, m.ComesFrom g.config sets := by
  cases hmode : g.config.isParameterized with
  | false => exact comesFrom_of_plain hmode hc
  | true => exact comesFrom_of_tables hmode hc

end Generation

end TestWriter
