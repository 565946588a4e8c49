import TestWriter.Proofs.Recording
import TestWriter.Proofs.Regions

/-!
# Records in step with the code

The record of a generation is, at every point, what the methods written so far use, because a build
that is given up takes back what it recorded.  Main statements: building a class keeps this in every
step, so a class is built in the end whose record is in step with its methods; and what holds of
every method that can be written holds of those of a class.
-/

namespace TestWriter

/-- The helper that the method is, if it is one. -/
def Method.helper? (m : Method) : Option Helper :=
  match m.kind with
  | .helper h => some h
  | _ => none

/-- One of some methods uses a feature. -/
def Method.UsedBy (ms : List Method) (f : Feature) : Prop := ∃ m ∈ ms, Stmt.Uses m.body f

/-- One of some methods calls a helper. -/
def Method.CalledBy (ms : List Method) (h : Helper) : Prop := ∃ m ∈ ms, Stmt.Call m.body h

/-- The code of a class uses a feature, in an annotation or in the body of a method. -/
def TestClass.Uses (c : TestClass) (f : Feature) : Prop :=
  (∃ a ∈ c.annotations, Mention.Uses a.mentions f) ∨ Method.UsedBy c.methods f

/-- The code of a class calls a helper, in an annotation or in the body of a method. -/
def TestClass.Calls (c : TestClass) (h : Helper) : Prop :=
  (∃ a ∈ c.annotations, Mention.helper h ∈ a.mentions) ∨ Method.CalledBy c.methods h

namespace Method

variable {ms ns : List Method} {f : Feature} {h : Helper}

theorem usedBy_append : UsedBy (ms ++ ns) f ↔ UsedBy ms f ∨ UsedBy ns f := by
  simp only [UsedBy, List.mem_append, or_and_right, exists_or]

theorem usedBy_singleton {m : Method} : UsedBy [m] f ↔ Stmt.Uses m.body f := by
  simp [UsedBy]

theorem usedBy_helper_iff : UsedBy ms (.helper h) ↔ CalledBy ms h :=
  exists_congr fun _ => and_congr_right fun _ => Stmt.uses_helper_iff

theorem calledBy_singleton {m : Method} : CalledBy [m] h ↔ Stmt.Call m.body h := by
  simp [CalledBy]

theorem not_usedBy_ofHelper (helpers : List Helper) : ¬UsedBy (helpers.map ofHelper) f := by
  rintro ⟨m, hm, huse⟩
  obtain ⟨k, -, rfl⟩ := List.mem_map.mp hm
  exact Stmt.not_uses_nil huse

end Method

theorem TestClass.uses_helper_iff {c : TestClass} {h : Helper} : c.Uses (.helper h) ↔ c.Calls h :=
  or_congr (exists_congr fun _ => and_congr_right fun _ => Mention.uses_helper_iff)
    Method.usedBy_helper_iff

/-- The extension that creates mock objects is the use of no feature itself. -/
theorem Generation.not_uses_extensionAnnotations (g : Generation) (f : Feature) :
    ∀ a ∈ g.extensionAnnotations, ¬Mention.Uses a.mentions f := by
  intro a ha
  simp only [extensionAnnotations] at ha
  split at ha
  · simp only [List.mem_singleton] at ha
    subst ha
    simp [AnnotationUse.mentions, AnnotationUse.withValue, AnnotationUse.marker, Expr.mentions,
      Mention.feature?]
  · simp at ha

@[simp] theorem Generation.has_named (g : Generation) (names : MethodNames) (f : Feature) :
    (g.named names).usage.Has f ↔ g.usage.Has f := by
  cases f <;> rfl

theorem Execution.records_of_toTest_ok {run : Execution} {e : Executable} {g g' : Generation}
    {m : Method} (h : run.toTest e g = .ok m g') :
    m.helper? = none ∧
      (∀ f, g'.usage.Has f ↔ g.usage.Has f ∨ Method.UsedBy [m] f) ∧
      ∀ k, Method.CalledBy [m] k → k.supported g.language = true := by
  obtain ⟨body, d, name, names, hbody, rfl, rfl⟩ := eq_of_toTest_ok h
  obtain ⟨hrecord, hsupported⟩ := Draft.bodyOfRun_records hbody
  simp only [Method.usedBy_singleton, Method.calledBy_singleton]
  refine ⟨rfl, ?_, hsupported⟩
  intro f
  rw [Generation.has_named]
  exact hrecord f

theorem TestSet.records_of_toTable_ok {set : TestSet} {g g' : Generation} {t : ParameterizedTest}
    (h : set.toTable g = .ok t g') :
    t.test.helper? = none ∧ t.provider.helper? = none ∧
      (∀ f, g'.usage.Has f ↔ g.usage.Has f ∨ Method.UsedBy [t.test, t.provider] f) ∧
      ∀ k, Method.CalledBy [t.test, t.provider] k → k.supported g.language = true := by
  obtain ⟨names, providerBody, d, testBody, d', providerName, testName, names', hprovider, htest,
    rfl, rfl⟩ := eq_of_toTable_ok h
  obtain ⟨hrecord, hsupported⟩ := Draft.providerBody_records hprovider
  obtain ⟨hrecord', hsupported'⟩ := Draft.tableBody_records htest
  refine ⟨rfl, rfl, ?_, ?_⟩
  · intro f
    have hused : Method.UsedBy [tableTestWith set.executable
        (Column.ofRuns g.config set.executable set.rows) testName providerName testBody,
        providerWith providerName providerBody] f ↔
          Stmt.Uses testBody f ∨ Stmt.Uses providerBody f := by
      simp [Method.UsedBy, tableTestWith, providerWith]
    have hfirst := hrecord f
    rw [Generation.has_named] at hfirst
    rw [Generation.has_named, hrecord' f, hfirst, hused, or_assoc,
      or_comm (a := Stmt.Uses testBody f)]
  · rintro k ⟨m, hm, hk⟩
    simp only [List.mem_cons, List.not_mem_nil, or_false] at hm
    rcases hm with rfl | rfl
    · exact hsupported' k hk
    · exact hsupported k hk

namespace Assembly

/-- The features on record are those that the methods use which are written so far. -/
structure InStep (config : Config) (ms : List Method) (a : Assembly) : Prop where
  config_eq : a.generation.config = config
  emitted : a.generation.emitted = []
  record : ∀ f, a.generation.usage.Has f ↔ Method.UsedBy (ms ++ a.providers) f
  supported : ∀ h, Method.CalledBy (ms ++ a.providers) h → h.supported config.language = true
  noHelper : ∀ m ∈ ms ++ a.providers, m.helper? = none

variable {config : Config} {ms : List Method} {a : Assembly}

theorem InStep.start (g : Generation) (hemitted : g.emitted = [])
    (hunused : g.usage = ⟨[], false, g.usage.names⟩) : InStep g.config [] (.start g) where
  config_eq := rfl
  emitted := hemitted
  record := by
    intro f
    change g.usage.Has f ↔ Method.UsedBy [] f
    rw [hunused]
    cases f <;> simp [Usage.Has, Method.UsedBy]
  supported := by
    intro h hcalled
    simp [Method.CalledBy, Assembly.start] at hcalled
  noHelper := by
    intro m hm
    simp [Assembly.start] at hm

theorem InStep.required (h : InStep config ms a) (k : Helper) :
    k ∈ a.generation.usage.required ↔ Method.CalledBy (ms ++ a.providers) k :=
  (h.record (.helper k)).trans Method.usedBy_helper_iff

/-- Methods are added to those of the regions or to the providers, with the features that they
use. -/
theorem InStep.add {b : Assembly} {ms' : List Method} (h : InStep config ms a)
    (added : List Method)
    (hconfig : b.generation.config = a.generation.config)
    (hemitted : b.generation.emitted = a.generation.emitted)
    (hmethods : ∀ m, m ∈ ms' ++ b.providers ↔ m ∈ ms ++ a.providers ∨ m ∈ added)
    (hnone : ∀ m ∈ added, m.helper? = none)
    (hrecord : ∀ f, b.generation.usage.Has f ↔
      a.generation.usage.Has f ∨ Method.UsedBy added f)
    (hsupported : ∀ k, Method.CalledBy added k → k.supported config.language = true) :
    InStep config ms' b := by
  have hused : ∀ f, Method.UsedBy (ms' ++ b.providers) f ↔
      Method.UsedBy (ms ++ a.providers) f ∨ Method.UsedBy added f := by
    intro f
    simp only [Method.UsedBy, hmethods, or_and_right, exists_or]
  refine ⟨hconfig.trans h.config_eq, hemitted.trans h.emitted, ?_, ?_, ?_⟩
  · intro f
    rw [hrecord, h.record, hused]
  · intro k hk
    rw [← Method.usedBy_helper_iff, hused, Method.usedBy_helper_iff, Method.usedBy_helper_iff] at hk
    exact hk.elim (h.supported k) (hsupported k)
  · intro m hm
    rcases (hmethods m).mp hm with hm | hm
    · exact h.noHelper m hm
    · exact hnone m hm

theorem not_usedBy_listing (a : Assembly) (e : Executable) (errors : ErrorCounts) (f : Feature) :
    ¬Method.UsedBy [a.listing e errors] f := by
  intro hf
  simp [listing, errorListing, Method.UsedBy, Stmt.Uses, Stmt.mentionsOf, Stmt.mentions] at hf

theorem inStep_invariant (config : Config) : Invariant (InStep config) where
  enter e h := ⟨h.config_eq, h.emitted, h.record, h.supported, h.noHelper⟩
  leave h := ⟨h.config_eq, h.emitted, h.record, h.supported, h.noHelper⟩
  counted w cause h hcur := by
    refine ⟨h.config_eq, h.emitted, ?_, ?_, ?_⟩
    · intro f
      rw [providers_counted]
      exact h.record f
    · rw [providers_counted]
      exact h.supported
    · rw [providers_counted]
      exact h.noHelper
  tested w h hplain htest := by
    obtain ⟨hm, hrecord, hsupported⟩ := Execution.records_of_toTest_ok htest
    have hg := Execution.restore_of_toTest_ok htest
    have hconfig := congrArg Generation.config hg
    have hemitted := congrArg Generation.emitted hg
    rw [Generation.language, h.config_eq] at hsupported
    exact h.add [_] hconfig hemitted (fun _ => mem_tested_iff w _) (by simpa using hm) hrecord
      hsupported
  listed e errors h := by
    rename_i ms a
    refine h.add [a.listing e errors] rfl rfl (fun _ => mem_listed_iff a e errors) ?_ ?_ ?_
    · simp [listing, errorListing, Method.helper?]
    · intro f
      rw [or_iff_left (not_usedBy_listing _ e errors f)]
      cases f <;> rfl
    · intro k hk
      exact absurd (Method.usedBy_helper_iff.mpr hk) (not_usedBy_listing _ e errors _)
  tabled w h htable := by
    obtain ⟨htest, hprovider, hrecord, hsupported⟩ := TestSet.records_of_toTable_ok htable
    have hg := TestSet.restore_of_toTable_ok htable
    have hconfig := congrArg Generation.config hg
    have hemitted := congrArg Generation.emitted hg
    rw [Generation.language, h.config_eq] at hsupported
    exact h.add [_, _] hconfig hemitted (fun _ => mem_tabled_iff w _)
      (by simpa using ⟨htest, hprovider⟩) hrecord hsupported

/-- The region of static methods holds the data providers, and the helpers if they are inline. -/
theorem methods_of_addStatics {a b : Assembly} {statics : Region}
    (h : addStatics a = .ok statics b) :
    statics.methods = a.providers ++
        (if a.generation.config.inlinesHelpers then
          (Helper.resolve a.generation.language a.generation.emitted
            a.generation.usage.required).1.map Method.ofHelper
        else []) ∧
      b.generation.config = a.generation.config := by
  cases h
  exact ⟨Region.methodsOf_map_method _, rfl⟩

theorem exists_helpers_of_addStatics {a b : Assembly} {statics : Region}
    (h : addStatics a = .ok statics b) :
    ∃ helpers : List Helper, statics.methods = a.providers ++ helpers.map Method.ofHelper := by
  obtain ⟨hmethods, -⟩ := methods_of_addStatics h
  split at hmethods
  · exact ⟨_, hmethods⟩
  · exact ⟨[], hmethods⟩

/-- The helpers in a class and its annotations use nothing, so what it uses is on record. -/
theorem InStep.uses_testClass_iff {b : Assembly} {regions : List Region} {statics : Region}
    (hinv : InStep config (regions.flatMap Region.methods) a) (h : addStatics a = .ok statics b)
    (f : Feature) : (b.generation.testClass regions statics).Uses f ↔ a.generation.usage.Has f := by
  have hannotations : ¬∃ x ∈ b.generation.extensionAnnotations, Mention.Uses x.mentions f := by
    rintro ⟨x, hx, huse⟩
    exact b.generation.not_uses_extensionAnnotations f x hx huse
  obtain ⟨helpers, hmethods⟩ := exists_helpers_of_addStatics h
  have hstatic : Method.UsedBy statics.methods f ↔ Method.UsedBy a.providers f := by
    rw [hmethods, Method.usedBy_append]
    exact or_iff_left (Method.not_usedBy_ofHelper helpers)
  rw [hinv.record, Method.usedBy_append, ← hstatic, ← Method.usedBy_append]
  exact or_iff_right hannotations

/-! ## All methods of a class -/

section

variable {P : Method → Prop}
  (htest : ∀ {run : Execution} {e : Executable} {g g' : Generation} {m : Method},
    g.config = config → run.toTest e g = .ok m g' → P m)
  (htable : ∀ {set : TestSet} {g g' : Generation} {t : ParameterizedTest},
    g.config = config → set.toTable g = .ok t g' → P t.test ∧ P t.provider)
  (hlisting : ∀ (name : String) (e : Executable) (errors : ErrorCounts),
    P (errorListing name e errors))

include htest htable hlisting

/-- What holds of every method that can be written holds of those that are written so far. -/
theorem methods_invariant :
    Invariant fun ms a => a.generation.config = config ∧ ∀ m ∈ ms ++ a.providers, P m where
  enter _ h := h
  leave h := h
  tested {ms a run e m g} w h _ hrun := by
    obtain ⟨hconfig, hall⟩ := h
    refine ⟨(Execution.config_of_toTest_ok hrun).trans hconfig, fun k hk => ?_⟩
    rcases (mem_tested_iff w m).mp hk with hk | hk
    · exact hall k hk
    · rw [List.mem_singleton.mp hk]
      exact htest hconfig hrun
  tabled {ms a set t g} w h hset := by
    obtain ⟨hconfig, hall⟩ := h
    refine ⟨(TestSet.config_of_toTable_ok hset).trans hconfig, fun k hk => ?_⟩
    obtain ⟨htest, hprovider⟩ := htable hconfig hset
    rcases (mem_tabled_iff w t).mp hk with hk | hk
    · exact hall k hk
    · exact List.forall_mem_cons.mpr ⟨htest, List.forall_mem_singleton.mpr hprovider⟩ k hk
  counted {ms a e} w cause h _ := by
    refine ⟨h.1, ?_⟩
    rw [providers_counted]
    exact h.2
  listed {ms a} e errors h := by
    obtain ⟨hconfig, hall⟩ := h
    refine ⟨hconfig, fun k hk => ?_⟩
    rcases (mem_listed_iff a e errors).mp hk with hk | hk
    · exact hall k hk
    · rw [List.mem_singleton.mp hk]
      exact hlisting _ e errors

end

end Assembly

/-- What holds of every method that can be written, and of helpers, holds of those of a class. -/
theorem Generation.forall_methods {P : Method → Prop} {g : Generation} {sets : List TestSet}
    {c : Construction}
    (htest : ∀ {run : Execution} {e : Executable} {h h' : Generation} {m : Method},
      h.config = g.config → run.toTest e h = .ok m h' → P m)
    (htable : ∀ {set : TestSet} {h h' : Generation} {t : ParameterizedTest},
      h.config = g.config → set.toTable h = .ok t h' → P t.test ∧ P t.provider)
    (hlisting : ∀ (name : String) (e : Executable) (errors : ErrorCounts),
      P (Assembly.errorListing name e errors))
    (hhelper : ∀ k : Helper, P (.ofHelper k)) (hc : g.construct sets = .ok c) :
    ∀ m ∈ c.file.testClass.methods, P m := by
  have hstart : (Assembly.start g).generation.config = g.config ∧
      ∀ m ∈ [] ++ (Assembly.start g).providers, P m := ⟨rfl, List.forall_mem_nil _⟩
  obtain ⟨regions, a, hsets, -, hall⟩ :=
    (Assembly.methods_invariant htest htable hlisting).addSets hstart sets
  obtain ⟨statics, b, hstatics, hconstruct⟩ := construct_eq hsets
  obtain ⟨helpers, hmethods⟩ := Assembly.exists_helpers_of_addStatics hstatics
  rw [hc] at hconstruct
  cases hconstruct
  rw [List.nil_append] at hall
  intro m hm
  change m ∈ regions.flatMap Region.methods ++ statics.methods at hm
  rw [hmethods, ← List.append_assoc] at hm
  rcases List.mem_append.mp hm with hm | hm
  · exact hall m hm
  · obtain ⟨k, -, rfl⟩ := List.mem_map.mp hm
    exact hhelper k

end TestWriter
