import Mathlib.Data.List.Forall2
import Mathlib.Logic.Function.Basic
import TestWriter.Proofs.Contributions
import TestWriter.Proofs.ReportAgreement

/-!
# Regions of clusters

What the clusters of a test set do to its region.  Main statement: group by group, the region holds
the tests of the runs that can be written, in a region of their own if the group is documented and
has such a run, and then the list of the errors, if there are any; so the tests of a set are in the
order of its runs, depth first, whatever its clusters.
-/

namespace TestWriter

/-! ## What a region should hold -/

/-- The tests of some runs: one for each run that can be written, in their order. -/
def WritesRuns (config : Config) (e : Executable) (runs : List Execution) (ms : List Method) :
    Prop :=
  List.Forall₂ (fun run m => run.Writes config e m) (runs.filter fun run => !run.fails config e) ms

/-- The summary of a group has a header or a content. -/
def Group.IsDocumented (g : Group) (note : ClusterNote) : Prop :=
  g.summary = some note ∧ (note.header ≠ none ∨ note.content ≠ [])

/-- Some run of a group can be written. -/
def Group.IsBuildable (config : Config) (e : Executable) (g : Group) : Prop :=
  ∃ run ∈ g.executions, run.fails config e = false

/-- The members of a region that stand for some groups, in their order. -/
inductive FollowsGroups (config : Config) (e : Executable) : List Group → List RegionItem → Prop
  | nil : FollowsGroups config e [] []
  /-- A documented group has a region of its own if it has tests. -/
  | nested {g : Group} {note : ClusterNote} {tests : List Method} {rest : List Group}
      {items : List RegionItem} (hnote : g.IsDocumented note)
      (hbuildable : g.IsBuildable config e) (htests : WritesRuns config e g.executions tests)
      (hrest : FollowsGroups config e rest items) :
      FollowsGroups config e (g :: rest)
        (.region (.mk note.header note.content (tests.map .method)) :: items)
  /-- The tests of any other group stand in the region of the set. -/
  | direct {g : Group} {tests : List Method} {rest : List Group} {items : List RegionItem}
      (hplain : ∀ note, g.IsDocumented note → ¬g.IsBuildable config e)
      (htests : WritesRuns config e g.executions tests)
      (hrest : FollowsGroups config e rest items) :
      FollowsGroups config e (g :: rest) (tests.map .method ++ items)

/-- The members of a region that list the errors of an executable: a region with one method, if
there are errors. -/
inductive ListsErrors (e : Executable) (errors : ErrorCounts) : List RegionItem → Prop
  | nothing (h : errors.isEmpty = true) : ListsErrors e errors []
  | listing (h : errors.isEmpty = false) (name : String) :
      ListsErrors e errors [.region (.mk (some ("Errors report for " ++ e.displayName)) []
        [.method (Assembly.errorListing name e errors)])]

/-- The region of a test set, given the errors that are known of it: its groups, then its errors. -/
def Region.FollowsSet (config : Config) (set : TestSet) (errors : ErrorCounts) (r : Region) :
    Prop :=
  ∃ tests listing, FollowsGroups config set.executable set.groups tests ∧
    ListsErrors set.executable errors listing ∧
    r = .mk (some ("Test suites for executable " ++ set.executable.display)) [] (tests ++ listing)

/-- The errors counted for each executable after a run of one of them: one more of its message if
the run cannot be written. -/
def countFailure (config : Config) (e : Executable) (counts : Executable → ErrorCounts)
    (run : Execution) : Executable → ErrorCounts :=
  match run.obstacle config e with
  | none => counts
  | some cause => Function.update counts e ((counts e).add cause.message 1)

/-- The errors counted for each executable after a test set. -/
def countFailures (config : Config) (counts : Executable → ErrorCounts) (set : TestSet) :
    Executable → ErrorCounts :=
  set.executions.foldl (countFailure config set.executable) counts

/-- The regions of some test sets, given the errors counted before them.  A set without runs has
none. -/
inductive FollowsSets (config : Config) :
    (Executable → ErrorCounts) → List TestSet → List Region → Prop
  | nil (counts : Executable → ErrorCounts) : FollowsSets config counts [] []
  | passed {counts : Executable → ErrorCounts} {set : TestSet} {rest : List TestSet}
      {regions : List Region} (hcovered : set.isCovered = false)
      (hrest : FollowsSets config counts rest regions) :
      FollowsSets config counts (set :: rest) regions
  | covered {counts : Executable → ErrorCounts} {set : TestSet} {rest : List TestSet} {r : Region}
      {regions : List Region} (hcovered : set.isCovered = true)
      (hset : r.FollowsSet config set
        (set.errors.merge (countFailures config counts set set.executable)))
      (hrest : FollowsSets config (countFailures config counts set) rest regions) :
      FollowsSets config counts (set :: rest) (r :: regions)

/-! ## What is written -/

theorem WritesRuns.append {config : Config} {e : Executable} {runs more : List Execution}
    {ms ns : List Method} (h : WritesRuns config e runs ms) (hmore : WritesRuns config e more ns) :
    WritesRuns config e (runs ++ more) (ms ++ ns) := by
  rw [WritesRuns, List.filter_append]
  exact List.rel_append h hmore

/-- There are tests of some runs if and only if one of them can be written. -/
theorem WritesRuns.ne_nil_iff {config : Config} {e : Executable} {runs : List Execution}
    {ms : List Method} (h : WritesRuns config e runs ms) :
    ms ≠ [] ↔ ∃ run ∈ runs, run.fails config e = false := by
  have hlength : (runs.filter fun run => !run.fails config e).length = ms.length := h.length_eq
  rw [← List.length_pos_iff, ← hlength, List.length_pos_iff, ne_eq, List.filter_eq_nil_iff]
  simp

namespace Assembly

open Region (methodsOf methodsOf_append methodsOf_map_method)

variable {a : Assembly} {config : Config} {e : Executable}

/-- A run that cannot be written is counted. -/
theorem errorsFor_addRuns (hconfig : a.generation.config = config)
    (hcur : a.generation.current = some e) {runs : List Execution} {ms : List Method}
    {b : Assembly} (h : addRuns e runs a = .ok ms b) :
    b.generation.errorsFor = runs.foldl (countFailure config e) a.generation.errorsFor := by
  induction runs generalizing a ms with
  | nil =>
      obtain ⟨-, rfl⟩ := Build.pure_eq_ok.mp h
      rfl
  | cons run rest ih =>
      obtain ⟨m, a', hrun, h⟩ := Build.bind_eq_ok.mp h
      obtain ⟨ks, b', hrest, h⟩ := Build.bind_eq_ok.mp h
      obtain ⟨-, rfl⟩ := Build.pure_eq_ok.mp h
      obtain ⟨m', a'', hrun', hconfig', hcur'⟩ := addRun_ok hcur run
      rw [hrun] at hrun'
      cases hrun'
      rw [ih (hconfig'.trans hconfig) hcur' hrest, List.foldl_cons]
      congr 1
      rcases addRun_cases hcur run with ⟨ho, k, g, htest, heq⟩ | ⟨cause, ho, heq⟩
      all_goals
        rw [hrun] at heq
        cases heq
        rw [hconfig] at ho
        rw [countFailure, ho]
      · have hback := congrArg Generation.errorsFor (Execution.restore_of_toTest_ok htest)
        exact hback
      · funext k
        simp only [counted, Generation.errorsFor, Generation.errorsAt?_tallyAt,
          Function.update_apply]
        split <;> rfl

/-- The tests of a group stand in a region of their own if the group is documented and has a run
that can be written. -/
theorem follows_groupItems {g : Group} {tests : List Method} {rest : List Group}
    {items : List RegionItem} (htests : WritesRuns config e g.executions tests)
    (hrest : FollowsGroups config e rest items) :
    FollowsGroups config e (g :: rest) (groupItems g.summary tests ++ items) := by
  by_cases hnested : ∃ note, g.IsDocumented note ∧ g.IsBuildable config e
  · obtain ⟨note, hnote, hbuildable⟩ := hnested
    have hitems : groupItems g.summary tests =
        [.region (.mk note.header note.content (tests.map .method))] := by
      have hne : tests ≠ [] := htests.ne_nil_iff.mpr hbuildable
      have hsays : ¬(note.header.isNone && note.content.isEmpty) = true := by
        simpa [Option.isNone_iff_eq_none, or_iff_not_imp_left] using hnote.2
      simp only [groupItems, hnote.1]
      rw [if_neg (by simp [hne, hsays])]
    rw [hitems]
    exact .nested hnote hbuildable htests hrest
  · have hplain : ∀ note, g.IsDocumented note → ¬g.IsBuildable config e :=
      fun note hnote hbuildable => hnested ⟨note, hnote, hbuildable⟩
    have hitems : groupItems g.summary tests = tests.map .method := by
      cases hsummary : g.summary with
      | none => rfl
      | some note =>
          have hnone : tests = [] ∨ note.header = none ∧ note.content = [] := by
            by_contra hnot
            obtain ⟨hne, hsays⟩ := not_or.mp hnot
            exact hplain note ⟨hsummary, not_and_or.mp hsays⟩ (htests.ne_nil_iff.mp hne)
          simp only [groupItems]
          rw [if_pos (by simpa using hnone)]
    rw [hitems]
    exact .direct hplain htests hrest

theorem addGroups_follows (hconfig : a.generation.config = config)
    (hcur : a.generation.current = some e) (groups : List Group) :
    ∃ items b, addGroups e groups a = .ok items b ∧ b.generation.config = config ∧
      FollowsGroups config e groups items ∧
      b.generation.errorsFor =
        (groups.flatMap Group.executions).foldl (countFailure config e)
          a.generation.errorsFor := by
  induction groups generalizing a with
  | nil => exact ⟨[], a, rfl, hconfig, .nil, rfl⟩
  | cons g rest ih =>
      obtain ⟨tests, b, hg, hconfig', -, htests⟩ := addRuns_writes hconfig hcur g.executions
      obtain ⟨tests', b', hg', -, hcur'⟩ := addRuns_ok hcur g.executions
      rw [hg] at hg'
      cases hg'
      obtain ⟨items, c, hrest, hconfig'', hitems, herrors⟩ := ih hconfig' hcur'
      refine ⟨groupItems g.summary tests ++ items, c, ?_, hconfig'',
        follows_groupItems htests hitems, ?_⟩
      · exact Build.bind_eq_ok.mpr ⟨tests, b, hg, Build.bind_eq_ok.mpr ⟨items, c, hrest, rfl⟩⟩
      · rw [herrors, errorsFor_addRuns hconfig hcur hg, List.flatMap_cons, List.foldl_append]

theorem addErrors_lists (set : TestSet) (a : Assembly) :
    ∃ listing b, addErrors set a = .ok listing b ∧ b.generation.config = a.generation.config ∧
      b.generation.errorsFor = a.generation.errorsFor ∧
      ListsErrors set.executable
        (set.errors.merge (a.generation.errorsFor set.executable)) listing := by
  by_cases h : (a.errorsOf set).isEmpty = true
  · exact ⟨[], a, if_pos h, rfl, rfl, .nothing h⟩
  · exact ⟨_, _, if_neg h, rfl, rfl, .listing (Bool.not_eq_true _ ▸ h) _⟩

/-- The region of a test set that has runs holds what its groups and its errors ask for. -/
theorem addSet_follows (hconfig : a.generation.config = config)
    (hplain : config.isParameterized = false) {set : TestSet} (hcovered : set.isCovered = true) :
    ∃ r b, addSet set a = .ok (some r) b ∧ b.generation.config = config ∧
      r.FollowsSet config set
        (set.errors.merge (countFailures config a.generation.errorsFor set set.executable)) ∧
      b.generation.errorsFor = countFailures config a.generation.errorsFor set := by
  obtain ⟨tests, b, hgroups, hconfig', htests, herrors⟩ :=
    addGroups_follows (a := a.entered set.executable) hconfig rfl set.groups
  have hwritten : addTests set (a.entered set.executable) = .ok tests b := by
    simp only [addTests]
    rw [if_neg (by simpa [entered, Generation.enter, hconfig] using hplain)]
    exact hgroups
  obtain ⟨listing, c, hlisting, hconfig'', herrors', hlists⟩ := addErrors_lists set b
  have hcounts : b.generation.errorsFor = countFailures config a.generation.errorsFor set := by
    rw [herrors, set.flatMap_groups]
    rfl
  have hset : addSet set a = .ok (if (tests ++ listing).isEmpty then none else
      some (.mk (some ("Test suites for executable " ++ set.executable.display)) []
        (tests ++ listing))) c.left :=
    Build.bind_eq_ok.mpr ⟨(), _, rfl, Build.bind_eq_ok.mpr ⟨tests, b, hwritten,
      Build.bind_eq_ok.mpr ⟨listing, c, hlisting, rfl⟩⟩⟩
  -- A set that has runs writes a test or counts an error, so its region is kept.
  obtain ⟨r, d, hr, -, -⟩ := addSet_belongs a hcovered
  by_cases hempty : (tests ++ listing).isEmpty = true
  · rw [hset, if_pos hempty] at hr
    cases hr
  · rw [if_neg hempty] at hset
    rw [hcounts] at hlists
    exact ⟨_, c.left, hset, hconfig''.trans hconfig', ⟨tests, listing, htests, hlists, rfl⟩,
      herrors'.trans hcounts⟩

theorem addSets_follow (hconfig : a.generation.config = config)
    (hplain : config.isParameterized = false) (sets : List TestSet) :
    ∃ regions b, addSets sets a = .ok regions b ∧
      FollowsSets config a.generation.errorsFor sets regions := by
  induction sets generalizing a with
  | nil => exact ⟨[], a, rfl, .nil _⟩
  | cons set rest ih =>
      cases hcovered : set.isCovered with
      | true =>
          obtain ⟨r, b, hr, hconfig', hset, hcounts⟩ := addSet_follows hconfig hplain hcovered
          obtain ⟨regions, c, hregions, hrest⟩ := ih hconfig'
          rw [hcounts] at hrest
          rw [← addCovered_of_isCovered hcovered] at hr
          exact ⟨_, c, addSets_cons_eq hr hregions, .covered hcovered hset hrest⟩
      | false =>
          obtain ⟨regions, c, hregions, hrest⟩ := ih hconfig
          exact ⟨_, c, addSets_cons_eq (addCovered_of_not_isCovered hcovered a) hregions,
            .passed hcovered hrest⟩

end Assembly

/-! ## The order of the tests -/

/-- The tests of some groups are those of their runs, depth first. -/
theorem FollowsGroups.writes {config : Config} {e : Executable} {groups : List Group}
    {items : List RegionItem} (h : FollowsGroups config e groups items) :
    WritesRuns config e (groups.flatMap Group.executions) (Region.methodsOf items) := by
  induction h with
  | nil => exact .nil
  | nested hnote hbuildable htests hrest ih =>
      simp only [Region.methodsOf, Region.methods, Region.methodsOf_map_method, List.flatMap_cons]
      exact htests.append ih
  | direct hplain htests hrest ih =>
      rw [List.flatMap_cons, Region.methodsOf_append, Region.methodsOf_map_method]
      exact htests.append ih

theorem WritesRuns.isRunTest {config : Config} {e : Executable} {runs : List Execution}
    {ms : List Method} (h : WritesRuns config e runs ms) : ∀ m ∈ ms, m.isRunTest = true := by
  intro m hm
  obtain ⟨run, -, g, g', -, htest⟩ := exists_left_of_forall₂ h hm
  exact Execution.isRunTest_of_toTest_ok htest

theorem ListsErrors.isRunTest {e : Executable} {errors : ErrorCounts} {items : List RegionItem}
    (h : ListsErrors e errors items) : (Region.methodsOf items).filter Method.isRunTest = [] := by
  cases h <;> rfl

/-- The tests of a set are those of its runs that can be written, depth first. -/
theorem Region.FollowsSet.writes {config : Config} {set : TestSet} {errors : ErrorCounts}
    {r : Region} (h : r.FollowsSet config set errors) :
    WritesRuns config set.executable set.executions (r.methods.filter Method.isRunTest) := by
  obtain ⟨tests, listing, htests, hlisting, rfl⟩ := h
  have hwrites := htests.writes
  rw [set.flatMap_groups] at hwrites
  rw [Region.methods, Region.methodsOf_append, List.filter_append, hlisting.isRunTest,
    List.append_nil, List.filter_eq_self.mpr hwrites.isRunTest]
  exact hwrites

theorem FollowsSets.writes {config : Config} {counts : Executable → ErrorCounts}
    {sets : List TestSet} {regions : List Region} (h : FollowsSets config counts sets regions) :
    List.Forall₂ (fun set r => WritesRuns config set.executable set.executions
      (r.methods.filter Method.isRunTest)) (sets.filter TestSet.isCovered) regions := by
  induction h with
  | nil => exact .nil
  | passed hcovered hrest ih => rwa [List.filter_cons_of_neg (by simp [hcovered])]
  | covered hcovered hset hrest ih =>
      rw [List.filter_cons_of_pos hcovered]
      exact .cons hset.writes ih

/-- Where each run has its own test, the region of a test set holds its groups in order and then the
list of its errors, if there are any: those recorded with the set and those counted for its
executable up to then.  Each documented group with a run that can be written has a region with its
header and content, and the tests of other groups stand in the region of the set.  So the tests of
a set are those of its runs that can be written, in their order, depth first. -/
theorem regions_follow_groups (g : Generation) (sets : List TestSet)
    (hplain : g.config.isParameterized = false) :
    ∃ c, g.construct sets = .ok c ∧
      FollowsSets g.config g.errorsFor sets c.file.testClass.regions ∧
      List.Forall₂ (fun set r => WritesRuns g.config set.executable set.executions
        (r.methods.filter Method.isRunTest))
        (sets.filter TestSet.isCovered) c.file.testClass.regions := by
  obtain ⟨regions, a, hsets, hfollow⟩ := Assembly.addSets_follow (a := .start g) rfl hplain sets
  obtain ⟨statics, b, -, hconstruct⟩ := Generation.construct_eq hsets
  exact ⟨_, hconstruct, hfollow, hfollow.writes⟩

/-- Three runs of a function without parameters, of which the second has an argument too many.  The
first two are in a documented cluster. -/
def clusteredRuns : TestSet :=
  { executable := ⟨⟨"", "calc"⟩, "run", [], .void, .function⟩
    executions := [.ofArguments [] .completed, .ofArguments [.null] .completed,
      .ofArguments [] .completed]
    clusters := [⟨⟨some "Edge cases", []⟩, 0, 2⟩]
    errors := .empty }

/-- The first group is documented and has a test, the second is not documented, and the error of the
second run is counted. -/
theorem regions_follow_groups_clusteredRuns :
    let g := Generation.new ⟨"", "calc"⟩ (.forLanguage .javascript)
    g.config.isParameterized = false ∧
      (∃ first second, clusteredRuns.groups = [first, second] ∧
        first.IsDocumented ⟨some "Edge cases", []⟩ ∧
        first.IsBuildable g.config clusteredRuns.executable ∧ second.summary = none) ∧
      (countFailures g.config g.errorsFor clusteredRuns clusteredRuns.executable).isEmpty = false ∧
      ∃ c, g.construct [clusteredRuns] = .ok c ∧
        FollowsSets g.config g.errorsFor [clusteredRuns] c.file.testClass.regions := by
  intro g
  have hplain : g.config.isParameterized = false := by decide
  obtain ⟨c, hc, hfollow, -⟩ := regions_follow_groups g [clusteredRuns] hplain
  refine ⟨hplain, ⟨_, _, rfl, ⟨rfl, Or.inl (by simp)⟩, ⟨_, List.mem_cons_self, by decide⟩, rfl⟩,
    by decide, c, hc, hfollow⟩

end TestWriter
