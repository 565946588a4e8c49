import TestWriter.Proofs.BuiltCode
import TestWriter.Proofs.NameClashes

/-!
# Discovery of tests

The runners of Python and Go find tests by their names: in Python a test begins with `test`, in Go
with `Test` and no lower-case letter behind it.  A counter behind a name does not change whether it
is found.  Main statement: the condition under which all tests of a class are found.  In Python they
always are; in Go a suggested name only gets a capital.
-/

namespace TestWriter

namespace Text

/-- Code points with the property Other_Lowercase, which are no letters of lower case themselves
(general category Ll). -/
def otherLowercaseRuns : List Run :=
  [
    ⟨0xaa, 0xaa, 1⟩, ⟨0xba, 0xba, 1⟩, ⟨0x2b0, 0x2b8, 1⟩, ⟨0x2c0, 0x2c1, 1⟩, ⟨0x2e0, 0x2e4, 1⟩,
    ⟨0x345, 0x345, 1⟩, ⟨0x37a, 0x37a, 1⟩, ⟨0x10fc, 0x10fc, 1⟩, ⟨0x1d2c, 0x1d6a, 1⟩,
    ⟨0x1d78, 0x1d78, 1⟩, ⟨0x1d9b, 0x1dbf, 1⟩, ⟨0x2071, 0x2071, 1⟩, ⟨0x207f, 0x207f, 1⟩,
    ⟨0x2090, 0x209c, 1⟩, ⟨0x2170, 0x217f, 1⟩, ⟨0x24d0, 0x24e9, 1⟩, ⟨0x2c7c, 0x2c7d, 1⟩,
    ⟨0xa69c, 0xa69d, 1⟩, ⟨0xa770, 0xa770, 1⟩, ⟨0xa7f1, 0xa7f4, 1⟩, ⟨0xa7f8, 0xa7f9, 1⟩,
    ⟨0xab5c, 0xab5f, 1⟩, ⟨0xab69, 0xab69, 1⟩, ⟨0x10780, 0x10780, 1⟩, ⟨0x10783, 0x10785, 1⟩,
    ⟨0x10787, 0x107b0, 1⟩, ⟨0x107b2, 0x107ba, 1⟩, ⟨0x1e030, 0x1e06d, 1⟩
  ]

/-- Whether a character is a lower-case letter (general category Ll). -/
def isLowerLetter (c : Char) : Bool :=
  isLower c && !inRuns otherLowercaseRuns c

/-- Whether a text begins with a lower-case letter. -/
def beginsLower (cs : List Char) : Bool :=
  cs.head?.any isLowerLetter

theorem isLowerLetter_of_isDigit {c : Char} (h : c.isDigit = true) : isLowerLetter c = false := by
  have hnine : c ≤ '9' := by
    simp only [Char.isDigit, Bool.and_eq_true, decide_eq_true_eq] at h
    exact h.2
  have hascii : c.toNat < 128 := Nat.lt_of_le_of_lt hnine (by decide)
  have hletter : ¬ 'a' ≤ c := fun hletter =>
    absurd (Char.le_trans hletter hnine) (by decide)
  simp [isLowerLetter, isLower, hascii, hletter]

theorem beginsLower_append {cs more : List Char} (h : beginsLower more = false) :
    beginsLower (cs ++ more) = beginsLower cs := by
  cases cs with
  | nil => exact h
  | cons c rest => rfl

end Text

open Text (beginsLower)

/-! ## Names that are found -/

/-- Whether the test runner of a language finds a test by its name.  The tests of the other
languages are registered in the file. -/
def Language.Finds : Language → String → Prop
  | .python, name => "test".toList <+: name.toList
  | .go, name => ∃ rest, name.toList = "Test".toList ++ rest ∧ beginsLower rest = false
  | _, _ => True

/-- A text begins with a pattern whatever follows, if nothing that follows is in the pattern. -/
theorem prefix_append_iff {α : Type} {pattern text more : List α} (h : ∀ x ∈ pattern, x ∉ more) :
    pattern <+: text ++ more ↔ pattern <+: text := by
  constructor
  · intro hlong
    have htext := List.prefix_append text more
    rcases List.prefix_or_prefix_of_prefix hlong htext with hshort | ⟨t, rfl⟩
    · exact hshort
    · have hmore := (List.prefix_append_right_inj text).mp hlong
      cases t with
      | nil => simp
      | cons x t => exact absurd (hmore.subset List.mem_cons_self) (h x (by simp))
  · exact fun hshort => hshort.trans (List.prefix_append text more)

namespace NameSupply

variable {base separator : String}

/-- A counter behind a name does not change whether the name is found. -/
theorem finds_numbered_iff (base : String) (n : Nat) (language : Language) :
    language.Finds (numbered base (MethodNames.separator language) n) ↔ language.Finds base := by
  have hdigits : ∀ c ∈ (toString n).toList, c.isDigit = true :=
    fun c => isDigit_of_mem_toString
  cases language with
  | java | kotlin | javascript => exact Iff.rfl
  | python =>
      simp only [Language.Finds, numbered, MethodNames.separator, String.toList_append,
        List.append_assoc]
      refine prefix_append_iff fun c hc hmore => ?_
      have hletter : ∀ c ∈ "test".toList, c ≠ '_' ∧ c.isDigit = false := by simp
      rcases List.mem_append.mp hmore with hmark | hdigit
      · exact (hletter c hc).1 (by simpa using hmark)
      · exact Bool.false_ne_true ((hletter c hc).2.symm.trans (hdigits c hdigit))
  | go =>
      have hletter : ∀ c ∈ "Test".toList, c.isDigit = false := by simp
      have hnumber : beginsLower (toString n).toList = false := by
        cases htext : (toString n).toList with
        | nil => rfl
        | cons c rest =>
            exact Text.isLowerLetter_of_isDigit (hdigits c (htext ▸ List.mem_cons_self))
      have happend : ∀ rest, beginsLower (rest ++ (toString n).toList) = beginsLower rest :=
        fun rest => Text.beginsLower_append hnumber
      simp only [Language.Finds, numbered, MethodNames.separator, String.toList_append,
        String.toList_empty, List.append_nil]
      constructor
      · rintro ⟨rest, heq, hrest⟩
        obtain ⟨rest', heq'⟩ := (prefix_append_iff fun c hc hdigit =>
          Bool.false_ne_true ((hletter c hc).symm.trans (hdigits c hdigit))).mp ⟨rest, heq.symm⟩
        rw [← heq', List.append_assoc, List.append_cancel_left_eq] at heq
        rw [← heq, happend] at hrest
        exact ⟨rest', heq'.symm, hrest⟩
      · rintro ⟨rest, heq, hrest⟩
        exact ⟨rest ++ (toString n).toList, by rw [heq, List.append_assoc], by rwa [happend]⟩

theorem finds_claim_iff (s : NameSupply) (base : String) (language : Language) :
    language.Finds (s.claim base (MethodNames.separator language)).1 ↔ language.Finds base := by
  rcases claim_cases s base (MethodNames.separator language) with heq | ⟨n, heq⟩
  · rw [heq]
  · rw [heq]
    exact finds_numbered_iff base n language

end NameSupply

/-- Whether a test of a run is found in Go: a suggested name has to fit when it gets a capital, and
any other name does if the name of the executable gets one. -/
def Execution.IsFound (run : Execution) (e : Executable) : Prop :=
  match run.testName with
  | some name => Language.go.Finds (Text.capitalize name)
  | none => beginsLower (Text.capitalize e.displayName).toList = false

theorem Language.finds_go_iff {name : String} {rest : List Char}
    (h : name.toList = "Test".toList ++ rest) :
    Language.go.Finds name ↔ beginsLower rest = false := by
  constructor
  · rintro ⟨rest', heq, hrest⟩
    rw [h, List.append_cancel_left_eq] at heq
    rwa [heq]
  · exact fun hrest => ⟨rest, h, hrest⟩

namespace MethodNames

variable {names : MethodNames} (e : Executable)

theorem finds_style_python (camel : String) : Language.python.Finds (style .python camel) := by
  simp only [style]
  split
  · next hbegins => exact List.isPrefixOf_iff_prefix.mp hbegins
  · refine ⟨'_' :: (Text.snakeCase camel).toList, ?_⟩
    simp

/-- In Go the name of a test that is made from an executable begins with `Test`. -/
theorem toList_style_go (rest : String) :
    (style .go ("test" ++ rest)).toList = "Test".toList ++ rest.toList := by
  have hupper : Text.upper 't' = ['T'] := by decide
  simp [style, Text.capitalize, hupper]

theorem finds_testBase_go_iff (run : Execution) :
    Language.go.Finds (testBase .go e run) ↔ run.IsFound e := by
  simp only [testBase, Execution.IsFound]
  cases run.testName with
  | some name => exact Iff.rfl
  | none =>
      have hpanics : beginsLower "Panics".toList = false := by decide
      have hsuffix : beginsLower (failureSuffix .go run.outcome).toList = false := by
        cases run.outcome with
        | runtimeFailure exception message kind => exact hpanics
        | success | timeout | crash => rfl
      rw [Option.getD_none, String.append_assoc, Language.finds_go_iff (toList_style_go _),
        String.toList_append, Text.beginsLower_append hsuffix]

theorem finds_test_iff (run : Execution) :
    names.language.Finds (names.test e run).1 ↔
      (names.language = .go → run.IsFound e) := by
  refine (NameSupply.finds_claim_iff names.supply _ names.language).trans ?_
  cases names.language with
  | java | kotlin | javascript => simp [Language.Finds]
  | python => simpa [testBase] using finds_style_python _
  | go => simpa using finds_testBase_go_iff e run

theorem finds_errorReport_iff :
    names.language.Finds (names.errorReport e).1 ↔
      (names.language = .go → beginsLower (Text.capitalize e.displayName).toList = false) := by
  refine (NameSupply.finds_claim_iff names.supply _ names.language).trans ?_
  cases names.language with
  | java | kotlin | javascript => simp [Language.Finds]
  | python => simpa using finds_style_python _
  | go =>
      have hsuffix : beginsLower "_errors".toList = false := by decide
      rw [String.append_assoc, Language.finds_go_iff (toList_style_go _), String.toList_append,
        Text.beginsLower_append hsuffix]
      simp

theorem finds_parameterizedTest (hgo : names.language ≠ .go) :
    names.language.Finds (names.parameterizedTest e).1 := by
  refine (NameSupply.finds_claim_iff names.supply _ names.language).mpr ?_
  cases hlanguage : names.language with
  | java | kotlin | javascript => trivial
  | python =>
      have hbegins : "test".toList <+: "test_".toList := ⟨['_'], by decide⟩
      rw [if_pos rfl, Language.Finds, String.toList_append]
      exact hbegins.trans (List.prefix_append _ _)
  | go => exact absurd hlanguage hgo

end MethodNames

/-! ## The methods of a class -/

/-- The name of a test of a run is found if the run's is, that of a list of errors if the executable
gets a capital, and that of a parameterized test always. -/
structure Method.Titled (config : Config) (m : Method) : Prop where
  test : ∀ info, m.kind = .test info → ∃ run : Execution,
    (config.language.Finds m.name ↔ (config.language = .go → run.IsFound info.executable))
  errorReport : ∀ e, m.kind = .errorReport e → (config.language.Finds m.name ↔
    (config.language = .go → beginsLower (Text.capitalize e.displayName).toList = false))
  parameterized : ∀ e provider, m.kind = .parameterized e provider → config.language.Finds m.name

theorem Method.Titled.finds_of_ne_go {config : Config} {m : Method} (h : m.Titled config)
    (hgo : config.language ≠ .go) (hm : m.isTest = true) : config.language.Finds m.name := by
  cases hkind : m.kind with
  | test info =>
      obtain ⟨run, hfinds⟩ := h.test info hkind
      exact hfinds.mpr fun heq => absurd heq hgo
  | errorReport e => exact (h.errorReport e hkind).mpr fun heq => absurd heq hgo
  | parameterized e provider => exact h.parameterized e provider hkind
  | dataProvider | helper k => simp [isTest, hkind] at hm

namespace Assembly

/-- The supply of names speaks the language of the configuration, and the methods so far have names
made by it. -/
structure Titles (config : Config) (ms : List Method) (a : Assembly) : Prop where
  config_eq : a.generation.config = config
  language_eq : a.generation.usage.names.language = config.language
  titled : ∀ m ∈ ms ++ a.providers, m.Titled config

variable {config : Config} {ms ms' : List Method} {a b : Assembly}

theorem Titles.start {g : Generation} (hlanguage : g.usage.names = .new g.config.language) :
    Titles g.config [] (.start g) where
  config_eq := rfl
  language_eq := congrArg MethodNames.language hlanguage
  titled := List.forall_mem_nil _

theorem Titles.add (h : Titles config ms a) (added : List Method)
    (hconfig : b.generation.config = a.generation.config)
    (hlanguage : b.generation.usage.names.language = a.generation.usage.names.language)
    (hmethods : ∀ m, m ∈ ms' ++ b.providers → m ∈ ms ++ a.providers ∨ m ∈ added)
    (hadded : ∀ m ∈ added, m.Titled config) : Titles config ms' b where
  config_eq := hconfig.trans h.config_eq
  language_eq := hlanguage.trans h.language_eq
  titled m hm := (hmethods m hm).elim (h.titled m) (hadded m)

theorem titles_invariant (config : Config) : Invariant (Titles config) where
  enter e h := ⟨h.config_eq, h.language_eq, h.titled⟩
  leave h := ⟨h.config_eq, h.language_eq, h.titled⟩
  tested {ms a run e m g} w h hplain htest := by
    have hconfig := Execution.config_of_toTest_ok htest
    obtain ⟨hname, hnames⟩ := Execution.names_of_toTest_ok htest
    have hlanguage := congrArg MethodNames.language hnames
    refine h.add [m] hconfig hlanguage (fun _ => (mem_tested_iff w m).mp) ?_
    obtain ⟨body, d, name, names, -, rfl, -⟩ := Execution.eq_of_toTest_ok htest
    refine List.forall_mem_singleton.mpr ⟨?_, by rintro _ ⟨⟩, by rintro _ _ ⟨⟩⟩
    rintro info ⟨⟩
    refine ⟨run, ?_⟩
    rw [hname, ← h.language_eq]
    exact MethodNames.finds_test_iff e run
  tabled {ms a set t g} w h htable := by
    have hconfig := TestSet.config_of_toTable_ok htable
    obtain ⟨-, htest, hlanguage⟩ := TestSet.names_of_toTable_ok htable
    have hgo := (TestSet.hasTables_of_toTable_ok htable).ne_go
    rw [h.config_eq] at hgo
    refine h.add [t.test, t.provider] hconfig hlanguage (fun _ => (mem_tabled_iff w t).mp) ?_
    obtain ⟨_, _, _, _, _, _, _, _, -, -, rfl, -⟩ := TestSet.eq_of_toTable_ok htable
    refine List.forall_mem_cons.mpr ⟨⟨by rintro _ ⟨⟩, by rintro _ ⟨⟩, fun _ _ _ => ?_⟩,
      List.forall_mem_singleton.mpr ⟨by rintro _ ⟨⟩, by rintro _ ⟨⟩, by rintro _ _ ⟨⟩⟩⟩
    rw [htest, ← h.language_eq]
    exact @MethodNames.finds_parameterizedTest
      (a.generation.usage.names.dataProvider set.executable).2 _ (h.language_eq ▸ hgo)
  counted {ms a e} w cause h _ := by
    refine ⟨h.config_eq, h.language_eq, ?_⟩
    rw [providers_counted]
    exact h.titled
  listed {ms a} e errors h := by
    refine h.add [a.listing e errors] rfl rfl (fun _ => (mem_listed_iff a e errors).mp) ?_
    refine List.forall_mem_singleton.mpr ⟨by rintro _ ⟨⟩, ?_, by rintro _ _ ⟨⟩⟩
    rintro _ ⟨⟩
    rw [← h.language_eq]
    exact MethodNames.finds_errorReport_iff e

section

variable {start : Assembly} {sets : List TestSet} {regions : List Region}
  (hplain : config.isParameterized = false) (hgo : config.language = .go)
  (hstart : Settled config ms start) (hsets : addSets sets start = .ok regions a)

include hplain hgo hstart hsets

/-- In Go a run is found if the method is that has the name it was to get. -/
theorem isFound_of_finds (ha : Settled config (regions.flatMap Region.methods) a)
    (hfinds : ∀ m ∈ regions.flatMap Region.methods ++ a.providers, Language.go.Finds m.name) :
    ∀ set ∈ sets, ∀ run ∈ set.writable config, run.IsFound set.executable := by
  intro set hset run hrun
  obtain ⟨regions', b, hsets', -, hclaimed⟩ := addSets_names hplain hstart sets
  rw [hsets] at hsets'
  cases hsets'
  obtain ⟨m, hm, hname⟩ := ha.owned _ (hclaimed set hset run hrun)
  rw [← MethodNames.finds_testBase_go_iff, ← hgo, ← hname, hgo]
  exact hfinds m hm

theorem finds_of_isFound
    (hfound : ∀ set ∈ sets, ∀ run ∈ set.writable config, run.IsFound set.executable) :
    ∀ m ∈ regions.flatMap Region.methods, m.isRunTest = true → Language.go.Finds m.name := by
  intro m hm hrunTest
  obtain ⟨regions', b, hsets', hmade, -⟩ := addSets_names hplain hstart sets
  rw [hsets] at hsets'
  cases hsets'
  obtain ⟨set, hset, run, hrun, names, hlanguage, hname⟩ := hmade m hm hrunTest
  rw [hgo] at hlanguage
  have hfinds : names.language.Finds (names.test set.executable run).1 :=
    (MethodNames.finds_test_iff set.executable run).mpr fun _ => hfound set hset run hrun
  rw [hlanguage] at hfinds
  rwa [hname]

end

/-- When all methods of a class in Go are tests: which of them are found. -/
theorem finds_go_iff {start : Assembly} {sets : List TestSet} {regions : List Region}
    (hgo : config.language = .go) (hstart : Settled config ms start)
    (hsets : addSets sets start = .ok regions a)
    (ha : Settled config (regions.flatMap Region.methods) a)
    (htitles : Titles config (regions.flatMap Region.methods) a)
    (hisTest : ∀ m ∈ regions.flatMap Region.methods ++ a.providers, m.isTest = true) :
    (∀ m ∈ regions.flatMap Region.methods ++ a.providers, Language.go.Finds m.name) ↔
      (config.isParameterized = false →
        ∀ set ∈ sets, ∀ run ∈ set.writable config, run.IsFound set.executable) ∧
      ∀ m ∈ regions.flatMap Region.methods ++ a.providers, ∀ e, m.kind = .errorReport e →
        beginsLower (Text.capitalize e.displayName).toList = false := by
  have herror : ∀ m ∈ regions.flatMap Region.methods ++ a.providers, ∀ e,
      m.kind = .errorReport e → (Language.go.Finds m.name ↔
        beginsLower (Text.capitalize e.displayName).toList = false) := by
    intro m hm e hkind
    rw [← hgo]
    exact ((htitles.titled m hm).errorReport e hkind).trans (imp_iff_right hgo)
  constructor
  · intro hfinds
    exact ⟨fun hplain => isFound_of_finds hplain hgo hstart hsets ha hfinds,
      fun m hm e hkind => (herror m hm e hkind).mp (hfinds m hm)⟩
  · rintro ⟨hruns, herrors⟩ m hm
    cases hkind : m.kind with
    | errorReport e => exact (herror m hm e hkind).mpr (herrors m hm e hkind)
    | test info =>
        have hrunTest : m.isRunTest = true := by simp [Method.isRunTest, hkind]
        have hplain : config.isParameterized = false := by
          by_contra htables
          rw [ha.tables (by simpa using htables) m hm] at hrunTest
          cases hrunTest
        rcases List.mem_append.mp hm with hregion | hprovider
        · exact finds_of_isFound hplain hgo hstart hsets (hruns hplain) m hregion hrunTest
        · rw [ha.providers m hprovider] at hrunTest
          cases hrunTest
    | parameterized e provider => exact hgo ▸ (htitles.titled m hm).parameterized e provider hkind
    | dataProvider | helper k => simpa [Method.isTest, hkind] using hisTest m hm

end Assembly

/-- All methods of a class in Go are tests. -/
theorem Method.IsBuilt.isTest_of_go {config : Config} {m : Method} (hm : m.IsBuilt config)
    (hgo : config.language = .go) : m.isTest = true := by
  have htabular := hm.isTabular_eq_false (Or.inr hgo)
  have hhelper := hm.kind_ne_helper (Or.inr hgo)
  cases hkind : m.kind with
  | test | errorReport | parameterized => simp [isTest, hkind]
  | dataProvider => simp [isTabular, hkind] at htabular
  | helper k => exact absurd hkind (hhelper k)

/-- When all tests of a class are found.  In Go the suggested names of the runs that are written
have to be found when they get a capital, and where there is none the name of the executable has to
begin with a letter that has one. -/
theorem tests_found_iff (g : Generation) (customName : Option String) (optimize : Bool)
    (sets : List TestSet) :
    ∃ c, (g.derive customName optimize).construct sets = .ok c ∧
      ((∀ m ∈ c.file.testClass.methods, m.isTest = true → g.language.Finds m.name) ↔
        (g.language = .go →
          (g.config.isParameterized = false →
            ∀ set ∈ sets, ∀ run ∈ set.writable g.config, run.IsFound set.executable) ∧
          ∀ m ∈ c.file.testClass.methods, ∀ e, m.kind = .errorReport e →
            beginsLower (Text.capitalize e.displayName).toList = false)) := by
  have hstart : Assembly.Settled g.config [] (.start (g.derive customName optimize)) :=
    @Assembly.Settled.start (g.derive customName optimize) rfl
  have htitled : Assembly.Titles g.config [] (.start (g.derive customName optimize)) :=
    @Assembly.Titles.start (g.derive customName optimize) rfl
  obtain ⟨regions, a, hsets, hsettled⟩ :=
    (Assembly.settled_invariant g.config).addSets hstart sets
  obtain ⟨regions', a', hsets', htitles⟩ :=
    (Assembly.titles_invariant g.config).addSets htitled sets
  cases hsets.symm.trans hsets'
  rw [List.nil_append] at hsettled htitles
  obtain ⟨statics, b, hstatics, hconstruct⟩ := Generation.construct_eq hsets
  obtain ⟨helpers, hmethods, -⟩ := Assembly.helpers_of_addStatics hstatics
  obtain ⟨c, hc, hfollows⟩ := (g.derive customName optimize).construct_follows sets
  cases hconstruct.symm.trans hc
  have hall : (b.finish regions statics).file.testClass.methods =
      (regions.flatMap Region.methods ++ a.providers) ++ helpers.map Method.ofHelper := by
    rw [List.append_assoc, ← hmethods]
    rfl
  have htested : ∀ m ∈ (b.finish regions statics).file.testClass.methods, m.isTest = true →
      m ∈ regions.flatMap Region.methods ++ a.providers := by
    intro m hm hisTest
    rw [hall] at hm
    rcases List.mem_append.mp hm with hm | hm
    · exact hm
    · obtain ⟨k, -, rfl⟩ := List.mem_map.mp hm
      cases hisTest
  refine ⟨_, hconstruct, ?_⟩
  by_cases hgo : g.language = .go
  · have hisTest : ∀ m ∈ (b.finish regions statics).file.testClass.methods, m.isTest = true :=
      fun m hm => (hfollows.built m hm).isTest_of_go hgo
    have hmem : ∀ m, m ∈ (b.finish regions statics).file.testClass.methods ↔
        m ∈ regions.flatMap Region.methods ++ a.providers := by
      refine fun m => ⟨fun hm => htested m hm (hisTest m hm), fun hm => ?_⟩
      rw [hall]
      exact List.mem_append_left _ hm
    have hfinds := Assembly.finds_go_iff hgo hstart hsets hsettled htitles
      fun m hm => hisTest m ((hmem m).mpr hm)
    simp only [← hmem] at hfinds
    rw [imp_iff_right hgo, ← hfinds, hgo]
    exact forall₂_congr fun m hm => imp_iff_right (hisTest m hm)
  · refine iff_of_true (fun m hm hisTest => ?_) fun h => absurd h hgo
    exact (htitles.titled m (htested m hm hisTest)).finds_of_ne_go hgo hisTest

end TestWriter
