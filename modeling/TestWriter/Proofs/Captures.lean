import TestWriter.Proofs.LocalNames
import TestWriter.Proofs.WrittenFiles

/-!
# Captured names

The supply of a method starts out empty, so it does not know the names that the method takes from
outside: imported classes and functions, modules and packages, helpers, and the parameter that each
test has.  Main statement: a method captures a name that it relies on exactly when its evidence asks
for this name, or for one that becomes it with a counter.
-/

namespace TestWriter

open Layout
open NameSupply (handedOut numbered wanted)

/-! ## What a method relies on and what it introduces -/

namespace Text

/-- A letter, a digit or an underscore. -/
def isWordChar (c : Char) : Bool := c.isAlphanum || c = '_'

/-- The words in a text that an opening parenthesis follows, or the other ones. -/
def words (called : Bool) (text : List Char) : List (List Char) :=
  let runs := text.splitBy fun a b => isWordChar a == isWordChar b
  (runs.zip (runs.tail ++ [[]])).filterMap fun (run, next) =>
    if run.any isWordChar && (next.head? == some '(') == called then some run else none

end Text

namespace Target.Surroundings

/-- Whether a member of a package stands behind the name of the package and a dot. -/
def isQualified (s : Surroundings) (package : String) : Bool :=
  s.settings.language = .go && !(Go.qualifier s package).isEmpty

/-- The name that a step of a text takes from outside of its method.  Of a path with dots it is the
first part. -/
def outerName? (s : Surroundings) (step : Step) : Option String :=
  let head := fun text : String => String.ofList (text.toList.takeWhile (· ≠ '.'))
  match step with
  | .text (.ofClass c) text => if s.isQualified c.package then none else some (head text)
  | .text (.function module _) text =>
    if s.isQualified module.package then none else some (head text)
  | .text (.helper _) text | .text (.module _) text => some (head text)
  | _ => none

/-- A method relies on a name from outside: its text refers to it, or the text of a helper calls
it, or it is the name of the parameter that each test has. -/
inductive ReliesOn (s : Surroundings) (m : Method) : String → Prop
  | refers {d : Doc} {step : Step} {name : String} (hdoc : s.methodForms.method m = .ok d)
    (hstep : step ∈ d) (hname : s.outerName? step = some name) : ReliesOn s m name
  | calls {h : Helper} {d : Doc} {text name : String} (hkind : m.kind = .helper h)
    (hdoc : s.methodForms.method m = .ok d) (htext : .text .plain text ∈ d)
    (hname : name.toList ∈ Text.words true text.toList) : ReliesOn s m name
  | self (hlanguage : s.settings.language = .python) (hmethod : m.isStatic = false) :
    ReliesOn s m "self"
  | testing (hlanguage : s.settings.language = .go) : ReliesOn s m "t"

/-- A method introduces a name: it is that of a parameter or a variable as it is written, or a word
of the text of a helper that is not called there. -/
inductive Introduces (s : Surroundings) (m : Method) : String → Prop
  | written {name : String} (hname : name ∈ m.locals) :
    Introduces s m (s.methodForms.dialect.identifier name)
  | word {h : Helper} {d : Doc} {text name : String} (hkind : m.kind = .helper h)
    (hdoc : s.methodForms.method m = .ok d) (htext : .text .plain text ∈ d)
    (hname : name.toList ∈ Text.words false text.toList) : Introduces s m name

/-- A name from outside that a method relies on is hidden by one that it introduces. -/
def Captures (s : Surroundings) (m : Method) (name : String) : Prop :=
  s.ReliesOn m name ∧ s.Introduces m name

end Target.Surroundings

/-! ## What a method asks for -/

/-- A method asks for names with some bases: those for the evidence that it is built from. -/
inductive Method.AsksFor (config : Config) : Method → List String → Prop
  | test {run : Execution} {e : Executable} {g g' : Generation} {m : Method}
    (hconfig : g.config = config) (h : run.toTest e g = .ok m g') :
    AsksFor config m (run.bases config e)
  | table {set : TestSet} {g g' : Generation} {t : ParameterizedTest} (hconfig : g.config = config)
    (h : set.toTable g = .ok t g') : AsksFor config t.test (set.tableBases config)
  | provider {set : TestSet} {g g' : Generation} {t : ParameterizedTest}
    (hconfig : g.config = config) (h : set.toTable g = .ok t g') :
    AsksFor config t.provider (set.providerBases config)
  | listing (name : String) (e : Executable) (errors : ErrorCounts) :
    AsksFor config (Assembly.errorListing name e errors) []
  | helper (h : Helper) : AsksFor config (.ofHelper h) []

namespace Method.AsksFor

variable {config : Config} {m : Method} {bases : List String}

/-- Without mocked static methods a method has the names that are handed out for what it asks
for. -/
theorem locals_eq (h : m.AsksFor config bases) (hoff : config.staticMocking = .off) :
    m.locals = handedOut bases := by
  cases h with
  | test hconfig htest =>
      subst hconfig
      exact Execution.locals_eq hoff htest
  | table hconfig htable =>
      subst hconfig
      exact TestSet.table_locals_eq htable
  | provider hconfig htable =>
      subst hconfig
      exact TestSet.provider_locals_eq htable
  | listing name e errors => rfl
  | helper k => rfl

/-- Only the method of a helper is one. -/
theorem eq_ofHelper (h : m.AsksFor config bases) {k : Helper} (hkind : m.kind = .helper k) :
    m = .ofHelper k ∧ bases = [] := by
  cases h with
  | test hconfig htest =>
      obtain ⟨_, _, _, _, -, rfl, -⟩ := Execution.eq_of_toTest_ok htest
      cases hkind
  | table hconfig htable =>
      obtain ⟨_, _, _, _, _, _, _, _, -, -, rfl, -⟩ := TestSet.eq_of_toTable_ok htable
      cases hkind
  | provider hconfig htable =>
      obtain ⟨_, _, _, _, _, _, _, _, -, -, rfl, -⟩ := TestSet.eq_of_toTable_ok htable
      cases hkind
  | listing name e errors => cases hkind
  | helper k' =>
      cases hkind
      exact ⟨rfl, rfl⟩

end Method.AsksFor

/-- Every method of a class asks for names. -/
theorem Generation.asks_construct {g : Generation} {sets : List TestSet} {c : Construction}
    (hc : g.construct sets = .ok c) :
    ∀ m ∈ c.file.testClass.methods, ∃ bases, m.AsksFor g.config bases := by
  refine forall_methods ?_ ?_ ?_ ?_ hc
  · exact fun hconfig htest => ⟨_, .test hconfig htest⟩
  · exact fun hconfig htable => ⟨⟨_, .table hconfig htable⟩, ⟨_, .provider hconfig htable⟩⟩
  · exact fun name e errors => ⟨_, .listing name e errors⟩
  · exact fun k => ⟨_, .helper k⟩

/-! ## Helpers -/

theorem Layout.cases_of_mem_lines {lines : List String} {step : Step}
    (h : step ∈ lines.flatMap fun l => [Step.text .plain l, .newline]) :
    (∃ l ∈ lines, step = .text .plain l) ∨ step = .newline := by
  obtain ⟨l, hl, hstep⟩ := List.mem_flatMap.mp h
  simp only [List.mem_cons, List.not_mem_nil, or_false] at hstep
  exact hstep.imp_left fun heq => ⟨l, hl, heq⟩

theorem Layout.mem_words_of_mem_lines {lines : List String} {called : Bool} {text : String}
    {name : List Char}
    (htext : .text .plain text ∈ lines.flatMap fun l => [Step.text .plain l, .newline])
    (hname : name ∈ Text.words called text.toList) :
    name ∈ lines.flatMap fun l => Text.words called l.toList := by
  rcases cases_of_mem_lines htext with ⟨l, hl, heq⟩ | heq
  · cases heq
    exact List.mem_flatMap.mpr ⟨text, hl, hname⟩
  · cases heq

namespace Target

/-- The text of a helper in Python calls no name that it has otherwise. -/
theorem not_mem_words {h : Helper} {lines : List String} (hlines : pythonHelper? h = some lines) :
    ∀ name ∈ lines.flatMap (fun l => Text.words true l.toList),
      name ∉ lines.flatMap fun l => Text.words false l.toList := by
  cases h
  case deepEquals | iterablesDeepEquals | mapsDeepEquals | hasCustomEquals =>
    cases hlines
    simp only [List.flatMap_cons, List.flatMap_nil]
    -- the characters of each line first, so that no text is decoded
    repeat rw [String.toList_ofList]
    decide +kernel
  all_goals cases hlines

namespace Surroundings

variable {s : Surroundings} {m : Method}

/-- Outside the JVM the text of a helper is that in Python. -/
theorem exists_lines_of_method {h : Helper} {d : Doc}
    (hother : s.settings.language.isJvm = false) (hkind : m.kind = .helper h)
    (hdoc : s.methodForms.method m = .ok d) :
    s.settings.language = .python ∧ ∃ lines, pythonHelper? h = some lines ∧
      d = lines.flatMap fun l => [.text .plain l, .newline] := by
  simp only [MethodForms.method, hkind, methodForms] at hdoc
  cases hlanguage : s.settings.language with
  | java => simp [hlanguage, Language.isJvm] at hother
  | kotlin => simp [hlanguage, Language.isJvm] at hother
  | javascript =>
      rw [hlanguage] at hdoc
      cases hdoc
  | go =>
      rw [hlanguage] at hdoc
      cases hdoc
  | python =>
      rw [hlanguage] at hdoc
      simp only [formsOf, Python.forms, Python.methods] at hdoc
      cases hlines : pythonHelper? h with
      | none =>
          rw [hlines] at hdoc
          cases hdoc
      | some lines =>
          rw [hlines] at hdoc
          have heq := (Rendering.concat_lines lines).symm.trans hdoc
          exact ⟨rfl, lines, rfl, (Except.ok.inj heq).symm⟩

/-- The method of a helper captures no name. -/
theorem not_captures_ofHelper (hother : s.settings.language.isJvm = false) (k : Helper)
    (name : String) : ¬s.Captures (.ofHelper k) name := by
  rintro ⟨hrelies, hintroduces⟩
  cases hintroduces with
  | written hname => cases hname
  | word hkind hdoc htext hword =>
      obtain ⟨hpython, lines, hlines, rfl⟩ := exists_lines_of_method hother hkind hdoc
      cases hrelies with
      | refers hdoc' hstep hname =>
          cases hdoc.symm.trans hdoc'
          rcases cases_of_mem_lines hstep with ⟨l, -, rfl⟩ | rfl
          · cases hname
          · cases hname
      | calls hkind' hdoc' htext' hcalled =>
          cases hdoc.symm.trans hdoc'
          exact not_mem_words hlines _ (mem_words_of_mem_lines htext' hcalled)
            (mem_words_of_mem_lines htext hword)
      | self hlanguage hmethod => cases hmethod
      | testing hlanguage =>
          rw [hpython] at hlanguage
          cases hlanguage

/-- Apart from helpers, a method introduces its parameters and variables. -/
theorem introduces_iff (hkind : ∀ k, m.kind ≠ .helper k) (name : String) :
    s.Introduces m name ↔ ∃ x ∈ m.locals, s.methodForms.dialect.identifier x = name := by
  constructor
  · rintro (hname | ⟨hhelper, -, -, -⟩)
    · exact ⟨_, hname, rfl⟩
    · exact absurd hhelper (hkind _)
  · rintro ⟨x, hx, rfl⟩
    exact .written hx

end Surroundings

end Target

/-! ## Captures in a class -/

/-- A name that is handed out is asked for, or it has a counter. -/
theorem NameSupply.exists_handedOut_iff (bases : List String) (written : String → String)
    (name : String) :
    (∃ x ∈ handedOut bases, written x = name) ↔ ∃ base ∈ bases, written (wanted base) = name ∨
      ∃ n, numbered (wanted base) "" n ∈ handedOut bases ∧
        written (numbered (wanted base) "" n) = name := by
  constructor
  · rintro ⟨x, hx, hname⟩
    obtain ⟨base, hbase, rfl | ⟨n, rfl⟩⟩ := exists_base_of_mem_handOut hx
    · exact ⟨base, hbase, Or.inl hname⟩
    · exact ⟨base, hbase, Or.inr ⟨n, hx, hname⟩⟩
  · rintro ⟨base, hbase, hname | ⟨n, hx, hname⟩⟩
    · exact ⟨_, wanted_mem_handedOut hbase, hname⟩
    · exact ⟨_, hx, hname⟩

/-- Under a valid configuration for Python, JavaScript or Go the parameters and the variables of a
method have the names that are handed out for what its evidence asks for.  So it captures a name
that it relies on exactly when the evidence asks for it, or for one that is handed out with a
counter and then written like it. -/
theorem captures_iff {config : Config} (hvalid : config.validate = .ok ())
    (hother : config.language.isJvm = false) (cut : ClassName) (sets : List TestSet)
    (className : Option String) :
    ∃ gen c, Generator.new cut config = .ok gen ∧
      (gen.base.derive className true).construct sets = .ok c ∧
      ∀ m ∈ c.file.testClass.methods, (∃ bases, m.AsksFor config bases) ∧
        ∀ bases, m.AsksFor config bases → m.locals = handedOut bases ∧ ∀ name,
          let s := Target.Surroundings.ofFile c.generation.settings c.file
          let written := s.methodForms.dialect.identifier
          s.Captures m name ↔ s.ReliesOn m name ∧ ∃ base ∈ bases,
            written (wanted base) = name ∨ ∃ n, numbered (wanted base) "" n ∈ handedOut bases ∧
              written (numbered (wanted base) "" n) = name := by
  obtain ⟨gen, c, hnew, hconfig, hc, hfollows⟩ :=
    Generator.exists_construct_of_validate hvalid cut sets className
  have hlanguage : c.generation.settings.language.isJvm = false := by
    have heq : c.generation.settings.language = config.language :=
      hfollows.language_eq.trans (hconfig ▸ rfl)
    rw [heq, hother]
  have hoff : config.staticMocking = .off := by
    by_contra hmocks
    have hmocked := Config.supportsMocking_of_validate hvalid hmocks
    rw [Language.supportsMocking, hother] at hmocked
    cases hmocked
  refine ⟨gen, c, hnew, hc, fun m hm => ⟨?_, fun bases hasks => ⟨hasks.locals_eq hoff, ?_⟩⟩⟩
  · rw [← hconfig]
    exact Generation.asks_construct hc m hm
  intro name s written
  refine and_congr_right fun hrelies => ?_
  by_cases hhelper : ∃ k, m.kind = .helper k
  · obtain ⟨k, hkind⟩ := hhelper
    obtain ⟨rfl, rfl⟩ := hasks.eq_ofHelper hkind
    refine iff_of_false (fun hintroduces => ?_) (by simp)
    exact Target.Surroundings.not_captures_ofHelper hlanguage k name ⟨hrelies, hintroduces⟩
  · rw [Target.Surroundings.introduces_iff (fun k hk => hhelper ⟨k, hk⟩), hasks.locals_eq hoff]
    exact NameSupply.exists_handedOut_iff bases written name

/-- A call with an array that holds one, which gives one back. -/
def sumOfOne : Execution :=
  .ofArguments [.array (.primitive .int) [.literal (.int 1)]] (.returning (.literal (.int 1)))

/-- A function in Go whose parameter is called like the one of each test. -/
def sums : TestSet :=
  ⟨⟨⟨"example.com/calc", "calc"⟩, "Sum", [⟨"t", .array (.primitive .int)⟩], .primitive .int,
    .function⟩, [sumOfOne], [], .empty⟩

/-- The test declares the argument as `t`, so its assertion is not given the test any more. -/
theorem captures_iff_sums :
    (Config.forLanguage .go).validate = .ok () ∧ (Config.forLanguage .go).language.isJvm = false ∧
      ∃ gen c m, Generator.new ⟨"example.com/calc", "calc"⟩ (.forLanguage .go) = .ok gen ∧
        (gen.base.derive none true).construct [sums] = .ok c ∧ m ∈ c.file.testClass.methods ∧
        m.AsksFor (.forLanguage .go) ["t", "actual"] ∧
        (Target.Surroundings.ofFile c.generation.settings c.file).Captures m "t" := by
  obtain ⟨gen, c, hnew, hc, hall⟩ := @captures_iff (.forLanguage .go) rfl rfl
    ⟨"example.com/calc", "calc"⟩ [sums] none
  obtain rfl : ⟨.new ⟨"example.com/calc", "calc"⟩ (.forLanguage .go)⟩ = gen := Except.ok.inj hnew
  obtain ⟨c', hc', hfollows⟩ := Generation.construct_follows _ [sums]
  cases hc.symm.trans hc'
  obtain ⟨c', parts, hc', hregions, hparts⟩ := Generation.construct_contributes
    (g := (Generation.new ⟨"example.com/calc", "calc"⟩ (.forLanguage .go)).derive none true)
    rfl [sums]
  cases hc.symm.trans hc'
  have hwritable : sumOfOne ∈ sums.writable (.forLanguage .go) :=
    List.mem_filter.mpr ⟨List.mem_cons_self, by decide⟩
  obtain ⟨m, hm, g, g', hconfig, htest⟩ :=
    TestSet.exists_test_of_contributes hparts List.mem_cons_self hwritable
  rw [← hregions] at hm
  have hmember : m ∈ c.file.testClass.methods := List.mem_append_left _ hm
  have hbases : sumOfOne.bases (.forLanguage .go) sums.executable = ["t", "actual"] := by decide
  have hasks : m.AsksFor (.forLanguage .go) ["t", "actual"] := hbases ▸ .test hconfig htest
  have hlanguage : c.generation.settings.language = .go := hfollows.language_eq
  have hwritten : ∀ s : Target.Surroundings, s.settings.language = .go →
      s.methodForms.dialect.identifier (wanted "t") = "t" := by
    intro s hs
    simp only [Target.Surroundings.methodForms, hs]
    rfl
  refine ⟨rfl, rfl, _, c, m, rfl, hc, hmember, hasks, ?_⟩
  exact (((hall m hmember).2 _ hasks).2 "t").mpr
    ⟨.testing hlanguage, "t", List.mem_cons_self, Or.inl (hwritten _ hlanguage)⟩

end TestWriter
