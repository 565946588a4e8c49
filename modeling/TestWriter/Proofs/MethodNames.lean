import Mathlib.Data.List.Nodup
import TestWriter.Proofs.FreshNames
import TestWriter.Proofs.HelperExactness

/-!
# Names of methods

A method takes its name from the supply of its class when it is built, and a name stays taken unless
the build that took it is given up.  Main statement: the tests, the data providers and the lists of
errors of a class have different names.
-/

namespace TestWriter

namespace MethodNames

/-- From one supply to another some names are taken, which were free before and differ. -/
structure Takes (names names' : MethodNames) (added : List String) : Prop where
  distinct : added.Nodup
  free : ∀ x ∈ added, names.supply.isTaken x = false
  taken : ∀ x, names'.supply.isTaken x = true ↔ names.supply.isTaken x = true ∨ x ∈ added

variable {names names' names'' : MethodNames} {added more : List String}

theorem takes_unique (names : MethodNames) (base : String) :
    Takes names (names.unique base).2 [(names.unique base).1] where
  distinct := List.nodup_singleton _
  free := List.forall_mem_singleton.mpr NameSupply.claim_free
  taken x := by
    rw [List.mem_singleton]
    exact NameSupply.isTaken_claim

theorem Takes.trans (h : Takes names names' added) (h' : Takes names' names'' more) :
    Takes names names'' (added ++ more) where
  distinct := by
    refine List.nodup_append.mpr ⟨h.distinct, h'.distinct, ?_⟩
    rintro x hx _ hx' rfl
    have hfree := h'.free x hx'
    rw [(h.taken x).mpr (Or.inr hx)] at hfree
    cases hfree
  free := by
    refine List.forall_mem_append.mpr ⟨h.free, fun x hx => ?_⟩
    apply Bool.eq_false_iff.mpr
    intro htaken
    have hfree := h'.free x hx
    rw [(h.taken x).mpr (Or.inl htaken)] at hfree
    cases hfree
  taken x := by rw [h'.taken, h.taken, List.mem_append, or_assoc]

end MethodNames

/-- A build of a method body takes no name for a method. -/
def Draft.KeepsNames {α : Type} (m : Build Draft α) : Prop :=
  ∀ d a d', m d = .ok a d' → d'.generation.usage.names = d.generation.usage.names

/-- No step takes a name for a method. -/
theorem Draft.keepsNames_composable : Composable KeepsNames where
  pure a d b d' h := by
    obtain ⟨-, rfl⟩ := Build.pure_eq_ok.mp h
    rfl
  refuse cause d b d' h := absurd h Build.refuse_ne_ok
  bind hm hk d b d'' h := by
    obtain ⟨a, d', hma, hka⟩ := Build.bind_eq_ok.mp h
    exact (hk a d' b d'' hka).trans (hm d a d' hma)
  freshVariable base d a d' h := by
    cases h
    rfl
  push s d a d' h := by
    cases h
    rfl
  drain d a d' h := by
    cases h
    rfl
  require k d a d' h := by
    cases h
    rfl
  markMocks d a d' h := by
    cases h
    rfl

/-- The test of a run takes its name. -/
theorem Execution.takes_of_toTest_ok {run : Execution} {e : Executable} {g g' : Generation}
    {m : Method} (h : run.toTest e g = .ok m g') :
    g.usage.names.Takes g'.usage.names [m.name] := by
  obtain ⟨body, d, hd, rfl, rfl⟩ := exists_draft_of_toTest_ok h
  have hnames : d.generation.usage.names = g.usage.names :=
    Draft.keepsNames_composable.bodyOfRun _ e run _ _ _ hd
  rw [← hnames]
  exact MethodNames.takes_unique _ _

/-- A data provider and its parameterized test take their names. -/
theorem TestSet.takes_of_toTable_ok {set : TestSet} {g g' : Generation} {t : ParameterizedTest}
    (h : set.toTable g = .ok t g') :
    g.usage.names.Takes g'.usage.names [t.provider.name, t.test.name] := by
  obtain ⟨providerBody, d, testBody, d', hd, hd', rfl, rfl⟩ := exists_drafts_of_toTable_ok h
  have hprovider : g.usage.names.Takes (g.usage.names.dataProvider set.executable).2
      [(g.usage.names.dataProvider set.executable).1] := MethodNames.takes_unique _ _
  have hnames : d'.generation.usage.names = (g.usage.names.dataProvider set.executable).2 :=
    (Draft.keepsNames_composable.tableBody _ _ _ _ _ _ hd').trans
      (Draft.keepsNames_composable.providerBody _ _ _ _ _ _ _ hd)
  rw [← hnames] at hprovider
  exact hprovider.trans (MethodNames.takes_unique _ _)

namespace Assembly

/-- The methods written so far have different names, all of which are taken. -/
structure Named (ms : List Method) (a : Assembly) : Prop where
  distinct : ((ms ++ a.providers).map Method.name).Nodup
  taken : ∀ m ∈ ms ++ a.providers, a.generation.usage.names.supply.isTaken m.name = true

variable {ms ms' : List Method} {a b : Assembly}

theorem Named.start (g : Generation) : Named [] (.start g) :=
  ⟨List.nodup_nil, List.forall_mem_nil _⟩

/-- Methods that take their names are added. -/
theorem Named.add (h : Named ms a) (added : List Method)
    (hnames : a.generation.usage.names.Takes b.generation.usage.names (added.map Method.name))
    (hperm : (ms' ++ b.providers).Perm ((ms ++ a.providers) ++ added)) : Named ms' b where
  distinct := by
    rw [(hperm.map Method.name).nodup_iff, List.map_append]
    refine List.nodup_append.mpr ⟨h.distinct, hnames.distinct, ?_⟩
    rintro x hx _ hx' rfl
    obtain ⟨m, hm, rfl⟩ := List.mem_map.mp hx
    have hfree := hnames.free _ hx'
    rw [h.taken m hm] at hfree
    cases hfree
  taken m hm := by
    rw [hnames.taken]
    rcases List.mem_append.mp (hperm.mem_iff.mp hm) with hm | hm
    · exact Or.inl (h.taken m hm)
    · exact Or.inr (List.mem_map_of_mem hm)

theorem named_invariant : Invariant Named where
  enter e h := ⟨h.distinct, h.taken⟩
  leave h := ⟨h.distinct, h.taken⟩
  tested {ms a run e m g} w h _ htest := by
    refine h.add [m] (Execution.takes_of_toTest_ok htest) ?_
    rw [providers_tested, List.append_assoc, List.append_assoc]
    exact List.Perm.append_left ms List.perm_append_comm
  tabled {ms a set t g} w h htable := by
    refine h.add [t.provider, t.test] (TestSet.takes_of_toTable_ok htable) ?_
    rw [providers_tabled, List.append_assoc, List.append_assoc]
    refine List.Perm.append_left ms ?_
    calc ([t.test] ++ (a.providers ++ [t.provider])).Perm
          ((a.providers ++ [t.provider]) ++ [t.test]) := List.perm_append_comm
      _ = a.providers ++ [t.provider, t.test] := List.append_assoc _ _ _
  counted {ms a e} w cause h _ := by
    refine ⟨?_, ?_⟩
    · rw [providers_counted]
      exact h.distinct
    · rw [providers_counted]
      exact h.taken
  listed {ms a} e errors h := by
    refine h.add [a.listing e errors] (MethodNames.takes_unique _ _) ?_
    have hproviders : (a.listed e errors).providers = a.providers := rfl
    rw [hproviders, List.append_assoc, List.append_assoc]
    exact List.Perm.append_left ms List.perm_append_comm

end Assembly

/-- The methods of a class that are no helpers have different names. -/
theorem Generation.construct_named (g : Generation) (sets : List TestSet) :
    ∃ c, g.construct sets = .ok c ∧
      ((c.file.testClass.methods.filter fun m => m.helper?.isNone).map Method.name).Nodup := by
  obtain ⟨regions, a, hsets, ha⟩ := Assembly.named_invariant.addSets (.start g) sets
  obtain ⟨statics, b, hstatics, hconstruct⟩ := construct_eq hsets
  refine ⟨_, hconstruct, ?_⟩
  obtain ⟨helpers, hmethods⟩ := Assembly.exists_helpers_of_addStatics hstatics
  have hnone : (helpers.map Method.ofHelper).filter (fun m => m.helper?.isNone) = [] := by
    refine List.filter_eq_nil_iff.mpr fun m hm => ?_
    obtain ⟨h, -, rfl⟩ := List.mem_map.mp hm
    exact Bool.false_ne_true
  change ((regions.flatMap Region.methods ++ statics.methods).filter _ |>.map _).Nodup
  rw [hmethods, ← List.append_assoc, List.filter_append, hnone, List.append_nil]
  exact (List.filter_sublist.map _).nodup ha.distinct

end TestWriter
