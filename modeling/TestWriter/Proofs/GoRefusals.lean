import TestWriter.Proofs.TableParts
import TestWriter.Proofs.WrittenFiles

/-!
# Refusals of Go

Go has no name for `void` and for the class of an error, so it cannot write an array of such
elements.  The builders do not look at element types.  Main statement: a valid configuration for Go
gives tests unless a run that is written as a test has a value with such an array in it, and then no
test of the class is written.
-/

namespace TestWriter

open Layout Rendering

namespace Target.Go

variable {config : Config} {m : Method}

/-- A statement of built code that is written has names for its arrays. -/
theorem isNamed_of_built (s : Surroundings) (hlanguage : config.language = .go)
    (hmocks : config.staticMocking ≠ .off → config.language.supportsMocking = true)
    {tested : Option Executable} {x : Stmt} (hx : x.Built config tested)
    (hwritten : ((dialect s).stmt x).Succeeds) : ∀ t ∈ x.arrayTypes, IsNamed t := by
  cases hx with
  | rebuilds h =>
      cases h with
      | array name element hvalues =>
          have hdeclare := (succeeds_append_iff.mp hwritten).2
          have harray := (succeeds_declare_iff s name _).mp hdeclare
          exact List.forall_mem_singleton.mpr ((succeeds_arrayOf_iff s element _).mp harray).1
      | object => exact List.forall_mem_nil _
      | allocated name owner =>
          rw [Draft.arrayTypes_declare_allocation]
          exact List.forall_mem_nil _
      | field name =>
          rw [Draft.FieldWriting.arrayTypes_statement]
          exact List.forall_mem_nil _
      | mock => exact List.forall_mem_nil _
      | stub => exact List.forall_mem_nil _
  | result name he hcall =>
      rw [hcall.arrayTypes_declare]
      exact List.forall_mem_nil _
  | mocked handle owner hstatic =>
      have hsupported := hmocks hstatic
      rw [hlanguage] at hsupported
      cases hsupported
  | branch htables => exact absurd hlanguage htables.ne_go
  | _ => exact List.forall_mem_nil _

/-- A built method for Go is written exactly when there are names for its arrays. -/
theorem succeeds_method_iff (s : Surroundings) (hlanguage : config.language = .go)
    (hmocks : config.staticMocking ≠ .off → config.language.supportsMocking = true)
    (hm : m.IsBuilt config) :
    ((methods s).method m).Succeeds ↔ ∀ t ∈ Stmt.arrayTypesOf m.body, IsNamed t := by
  have hnohelper := hm.kind_ne_helper (Or.inr hlanguage)
  have hnotable := hm.isTabular_eq_false (Or.inr hlanguage)
  have hopening : (opening (dialect s) m).Succeeds := by
    simp only [opening]
    cases hkind : m.kind with
    | test info =>
        simp only [succeeds_append_iff]
        refine ⟨⟨by simp [testHead], ?_⟩, ?_⟩
        · split <;> simp
        · split <;> simp
    | errorReport e => simp [testHead]
    | parameterized e provider => simp [Method.isTabular, hkind] at hnotable
    | dataProvider => simp [Method.isTabular, hkind] at hnotable
    | helper h => exact absurd hkind (hnohelper h)
  have hwhole : ((methods s).method m).Succeeds ↔ ((dialect s).stmts m.body).Succeeds := by
    have hclosing : (closing m).Succeeds := by simp [closing]
    rw [MethodForms.method_eq_whole hnohelper]
    exact succeeds_documentedAbove_iff.trans (by simp [hopening, hclosing])
  rw [hwhole]
  constructor
  · intro hwritten t ht
    obtain ⟨x, hx, ht⟩ := Stmt.mem_arrayTypesOf_iff.mp ht
    exact isNamed_of_built s hlanguage hmocks (hm.body x hx)
      (Dialect.succeeds_stmts_iff.mp hwritten x hx) t ht
  · exact (dialect_writes s hlanguage).body hmocks hm

/-- A file of tests for Go is written exactly when its methods are. -/
theorem succeeds_file_iff {s : Surroundings} {f : SourceFile} (hkind : f.testClass.kind = .test) :
    (file s f).Succeeds ↔ ∀ m ∈ f.testClass.methods, ((methods s).method m).Succeeds := by
  have hdocumentation :=
    succeeds_documentation f.testClass.documentation (dialect s).comments
  have himports : (importBlock f.imports).Succeeds := succeeds_ite succeeds_nothing (by simp)
  rw [← forall_methods_iff, ← MethodForms.forall_inhabited_iff]
  simp only [file, hkind]
  simp only [succeeds_append_iff, succeeds_line, himports, true_and, and_true,
    succeeds_concat_iff, List.forall_mem_map, succeeds_newline, MethodForms.succeeds_region_iff]
  exact and_iff_right hdocumentation

end Target.Go

/-- Go has no name for the element type of an array in one of the values that the test of a run
writes. -/
def Execution.HasUnnamedArray (run : Execution) (config : Config) (e : Executable) : Prop :=
  ∃ v ∈ run.writtenValues config e, ∃ t ∈ v.arrayTypes, ¬Target.Go.IsNamed t

/-- The arrays in the test of a run are those of the values that it writes. -/
theorem Execution.Writes.isNamed_iff {run : Execution} {config : Config} {e : Executable}
    {m : Method} (h : run.Writes config e m) :
    (∀ t ∈ Stmt.arrayTypesOf m.body, Target.Go.IsNamed t) ↔ ¬run.HasUnnamedArray config e := by
  obtain ⟨g, g', rfl, htest⟩ := h
  obtain ⟨body, d, name, names, hbody, rfl, -⟩ := eq_of_toTest_ok htest
  have htypes : Stmt.arrayTypesOf (run.testWith g.config e name body).body =
      Value.arrayTypesOf (run.writtenValues g.config e) := (Draft.bodyOfRun_built hbody).2
  rw [htypes]
  simp only [HasUnnamedArray, Value.mem_arrayTypesOf_iff]
  push Not
  exact ⟨fun h v hv t ht => h t ⟨v, hv, ht⟩, fun h t ⟨v, hv, ht⟩ => h v hv t ht⟩

/-- A list of errors has no arrays. -/
theorem Method.Lists.isNamed {m : Method} {e : Executable} (h : m.Lists e) :
    ∀ t ∈ Stmt.arrayTypesOf m.body, Target.Go.IsNamed t := by
  obtain ⟨name, errors, rfl⟩ := h
  exact List.forall_mem_nil _

namespace Construction.Follows

variable {c : Construction} {g : Generation} {sets : List TestSet}

/-- A class for Go has no static methods. -/
theorem statics_of_go (h : c.Follows g sets) (hlanguage : g.config.language = .go) :
    c.file.testClass.statics.methods = [] := by
  refine List.eq_nil_iff_forall_not_mem.mpr fun m hm => ?_
  have hmember : m ∈ c.file.testClass.methods := List.mem_append_right _ hm
  have hnone := h.statics m hm
  have hbuilt := h.built m hmember
  have htabular := hbuilt.isTabular_eq_false (Or.inr hlanguage)
  cases hkind : m.kind with
  | dataProvider => simp [Method.isTabular, hkind] at htabular
  | helper k => exact absurd hkind (hbuilt.kind_ne_helper (Or.inr hlanguage) k)
  | _ => simp [Method.executable?, hkind] at hnone

/-- A file for Go is written exactly when there are names for the arrays of its tests. -/
theorem succeeds_fileDoc_iff_of_go (h : c.Follows g sets) (hlanguage : g.config.language = .go)
    (hmocks : g.config.staticMocking ≠ .off → g.config.language.supportsMocking = true) :
    (Target.fileDoc c.generation.settings c.file).Succeeds ↔
      ∀ m ∈ c.file.testClass.regions.flatMap Region.methods,
        ∀ t ∈ Stmt.arrayTypesOf m.body, Target.Go.IsNamed t := by
  have hsettings : c.generation.settings.language = .go := h.language_eq.trans hlanguage
  have hkind : c.file.testClass.kind = .test := by
    rw [h.testClass_eq]
    rfl
  have hmethods : c.file.testClass.methods =
      c.file.testClass.regions.flatMap Region.methods := by
    rw [TestClass.methods, h.statics_of_go hlanguage, List.append_nil]
  simp only [Target.fileDoc, hsettings]
  rw [← hmethods]
  refine (Target.Go.succeeds_file_iff hkind).trans (forall₂_congr fun m hm => ?_)
  exact Target.Go.succeeds_method_iff _ hlanguage hmocks (h.built m hm)

end Construction.Follows

/-- The tests in a class are written exactly when no run that is written has an unnamed array. -/
theorem Generation.isNamed_construct_iff {g : Generation} {c : Construction} {sets : List TestSet}
    (hlanguage : g.config.language = .go) (hc : g.construct sets = .ok c)
    (hfollows : c.Follows g sets) :
    (∀ m ∈ c.file.testClass.regions.flatMap Region.methods,
        ∀ t ∈ Stmt.arrayTypesOf m.body, Target.Go.IsNamed t) ↔
      g.config.isParameterized = true ∨
        ∀ set ∈ sets, ∀ run ∈ set.writable g.config,
          ¬run.HasUnnamedArray g.config set.executable := by
  cases htables : g.config.isParameterized with
  | true =>
      obtain ⟨c', parts, hc', hparts⟩ := construct_parts htables sets
      rw [hc] at hc'
      cases hc'
      refine iff_of_true (fun m hm => ?_) (Or.inl rfl)
      have hmember : m ∈ c.file.testClass.methods := List.mem_append_left _ hm
      rw [hparts.regions_eq] at hm
      obtain ⟨r, hr, hm⟩ := List.mem_flatMap.mp hm
      obtain ⟨p, hp, rfl⟩ := List.mem_map.mp hr
      obtain ⟨listings, hmethods, hlists⟩ := (hparts.holds p hp).methods
      rw [hmethods] at hm
      rcases List.mem_append.mp hm with htest | hlisting
      · obtain ⟨t, ht, rfl⟩ := List.mem_map.mp htest
        have htabular :=
          (hfollows.built t.test hmember).isTabular_eq_false (Or.inr hlanguage)
        have hkind := ((hparts.holds p hp).tabulates.kind_eq (Option.mem_toList.mp ht)).1
        simp [Method.isTabular, hkind] at htabular
      · exact (hlists m hlisting).isNamed
  | false =>
      obtain ⟨c', parts, hc', hmethods, hparts⟩ := construct_contributes htables sets
      rw [hc] at hc'
      cases hc'
      rw [hmethods]
      simp only [Bool.false_eq_true, false_or]
      constructor
      · intro hnamed set hset run hrun
        obtain ⟨m, hm, hwrites⟩ := TestSet.exists_test_of_contributes hparts hset hrun
        exact hwrites.isNamed_iff.mp (hnamed m hm)
      · intro hruns m hm
        obtain ⟨set, hset, hcases⟩ := TestSet.cases_of_contributes hparts hm
        rcases hcases with ⟨run, hrun, hwrites⟩ | hlists
        · exact hwrites.isNamed_iff.mpr (hruns set hset run hrun)
        · exact hlists.isNamed

/-- A valid configuration for Go gives tests, unless each run has its own test and a run that is
written as a test has an array whose elements have no type name in Go.  Then nothing is written, and
the cause is that Go does not support it. -/
theorem go_generation_succeeds_iff {config : Config} (hvalid : config.validate = .ok ())
    (hlanguage : config.language = .go) (cut : ClassName) (sets : List TestSet)
    (className : Option String) :
    ∃ gen, Generator.new cut config = .ok gen ∧
      ((∃ out, gen.generate sets className = .ok out) ↔
        config.isParameterized = true ∨
          ∀ set ∈ sets, ∀ run ∈ set.writable config,
            ¬run.HasUnnamedArray config set.executable) ∧
      ∀ err, gen.generate sets className = .error err → ∃ cause, err = .unsupported cause := by
  obtain ⟨gen, c, hnew, hconfig, hc, hfollows⟩ :=
    Generator.exists_construct_of_validate hvalid cut sets className
  have hmocks := Config.supportsMocking_of_validate hvalid
  rw [← hconfig] at hmocks hlanguage ⊢
  refine ⟨gen, hconfig ▸ hnew, ?_, ?_⟩
  · calc (∃ out, gen.generate sets className = .ok out)
      ↔ (Target.fileDoc c.generation.settings c.file).Succeeds :=
          Generator.generate_succeeds_iff hc
      _ ↔ ∀ m ∈ c.file.testClass.regions.flatMap Region.methods,
            ∀ t ∈ Stmt.arrayTypesOf m.body, Target.Go.IsNamed t :=
          hfollows.succeeds_fileDoc_iff_of_go hlanguage hmocks
      _ ↔ _ := Generation.isNamed_construct_iff hlanguage hc hfollows
  · intro err herr
    cases hdoc : Target.fileDoc c.generation.settings c.file with
    | error cause =>
        rw [Generator.generate_eq_error hc hdoc] at herr
        cases herr
        exact ⟨cause, rfl⟩
    | ok d =>
        obtain ⟨out, hout⟩ := (Generator.generate_succeeds_iff hc).mpr ⟨d, hdoc⟩
        rw [hout] at herr
        cases herr

/-- A function in Go that takes an array and gives nothing back. -/
def takesArray : Executable :=
  ⟨⟨"demo", "m"⟩, "f", [⟨"a", .array .any⟩], .void, .function⟩

/-- A run with an array of nothing. -/
def voidArray : TestSet := ⟨takesArray, [.ofArguments [.array .void []] .completed], [], .empty⟩

/-- The run has no obstacle, so its test is built and not counted as an error, and the class is
refused. -/
theorem go_generation_succeeds_iff_voidArray :
    (Config.forLanguage .go).validate = .ok () ∧ (Config.forLanguage .go).language = .go ∧
      voidArray.failures (.forLanguage .go) = 0 ∧
      ∃ gen, Generator.new ⟨"demo", "m"⟩ (.forLanguage .go) = .ok gen ∧
        ∃ cause, gen.generate [voidArray] none = .error (.unsupported cause) := by
  have hvalid : (Config.forLanguage .go).validate = .ok () := rfl
  obtain ⟨gen, hnew, hiff, hcause⟩ :=
    go_generation_succeeds_iff hvalid rfl ⟨"demo", "m"⟩ [voidArray] none
  have hunnamed : (Execution.ofArguments [.array .void []] .completed).HasUnnamedArray
      (.forLanguage .go) takesArray :=
    ⟨_, List.mem_singleton_self _, .void, List.mem_singleton_self _, id⟩
  refine ⟨hvalid, rfl, rfl, gen, hnew, ?_⟩
  cases hgenerate : gen.generate [voidArray] none with
  | error err =>
      obtain ⟨cause, rfl⟩ := hcause err hgenerate
      exact ⟨cause, rfl⟩
  | ok out =>
      rcases hiff.mp ⟨out, hgenerate⟩ with htables | hnone
      · cases htables
      · exact absurd hunnamed
          (hnone voidArray (List.mem_singleton_self _) _ (List.mem_singleton_self _))

end TestWriter
