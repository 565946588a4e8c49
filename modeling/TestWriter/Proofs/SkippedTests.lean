import TestWriter.Proofs.NeededImports
import TestWriter.Proofs.PytestRows

/-!
# Skipped tests

A run that crashed, one that hangs without a timeout, or one whose static methods were to be mocked
is not run again by its test.  Main statement: tests of runs are disabled exactly for these reasons,
in a generated text exactly the disabled tests have the mark by which their framework skips a test,
and with tables no run that crashed or hung has a row.
-/

namespace TestWriter

open Layout

/-! ## Runs that are not run again -/

/-- A run ended its process, it hangs without end, or it needs static mocking that is off. -/
def Execution.IsDangerous (run : Execution) (config : Config) : Prop :=
  (∃ reason, run.outcome = .crash reason) ∨
    ((∃ limit, run.outcome = .timeout limit) ∧ config.enableTimeout = false) ∨
    (run.staticStubs ≠ [] ∧ config.staticMocking = .off)

/-- Whether a test is written disabled. -/
def Method.isDisabled (m : Method) : Bool :=
  match m.kind with
  | .test info => info.disabled.isSome
  | _ => false

theorem Execution.lacksStaticMocking_iff (run : Execution) (config : Config) :
    run.lacksStaticMocking config = true ↔ run.staticStubs ≠ [] ∧ config.staticMocking = .off := by
  simp [lacksStaticMocking]

theorem Execution.isSome_disabledReason?_iff (run : Execution) (config : Config) :
    (run.disabledReason? config).isSome = true ↔ run.IsDangerous config := by
  simp only [IsDangerous, ← run.lacksStaticMocking_iff config, disabledReason?]
  cases run.lacksStaticMocking config with
  | true => simp
  | false => cases run.outcome <;> simp

/-- The test of a run is disabled when the run is not to be repeated. -/
theorem Execution.Writes.isDisabled_iff {run : Execution} {config : Config} {e : Executable}
    {m : Method} (h : run.Writes config e m) :
    (∃ info, m.kind = .test info) ∧ (m.isDisabled = true ↔ run.IsDangerous config) := by
  obtain ⟨g, g', rfl, htest⟩ := h
  obtain ⟨body, d, name, names, -, rfl, -⟩ := Execution.eq_of_toTest_ok htest
  exact ⟨⟨_, rfl⟩, run.isSome_disabledReason?_iff g.config⟩

/-! ## Steps of a rendering -/

namespace Layout.Rendering

variable {P : Step → Prop} {a b : Rendering} {rs : List Rendering}

/-- All steps that a rendering writes have a property. -/
def Only (P : Step → Prop) (r : Rendering) : Prop := ∀ d, r = .ok d → ∀ x ∈ d, P x

theorem only_ok {d : Doc} (h : ∀ x ∈ d, P x) : Only P (.ok d) := by
  intro d' hd
  cases hd
  exact h

theorem only_append (ha : a.Only P) (hb : b.Only P) : (a ++ b).Only P := by
  intro d hd
  obtain ⟨x, y, hx, hy, rfl⟩ := append_eq_ok_iff.mp hd
  exact List.forall_mem_append.mpr ⟨ha x hx, hb y hy⟩

theorem only_concat (h : ∀ r ∈ rs, r.Only P) : (concat rs).Only P := by
  induction rs with
  | nil => exact only_ok (List.forall_mem_nil _)
  | cons first rest ih =>
      obtain ⟨hfirst, hrest⟩ := List.forall_mem_cons.mp h
      exact only_append hfirst (ih hrest)

theorem only_separated {separator : Rendering} (hseparator : separator.Only P)
    (h : ∀ r ∈ rs, r.Only P) : (separated separator rs).Only P := by
  fun_induction separated separator rs with
  | case1 => exact only_ok (List.forall_mem_nil _)
  | case2 first => exact h first (List.mem_singleton_self _)
  | case3 first rest hrest ih =>
      obtain ⟨hfirst, hothers⟩ := List.forall_mem_cons.mp h
      exact only_append (only_append hfirst hseparator) (ih hothers)

/-- A rendering has no fixed words that begin with a word. -/
def Avoids (word : String) (r : Rendering) : Prop :=
  r.Only fun x => ∀ rest, x ≠ .text .plain (word ++ rest)

section

variable {word text : String}

theorem plain_ne_append (h : ¬word.toList <+: text.toList) (rest : String) :
    Step.text .plain text ≠ .text .plain (word ++ rest) := by
  intro heq
  rw [(Step.text.inj heq).2, String.toList_append] at h
  exact h (List.prefix_append _ _)

theorem avoids_say (h : ¬word.toList <+: text.toList) : (say text).Avoids word :=
  only_ok (List.forall_mem_singleton.mpr (plain_ne_append h))

theorem avoids_line (h : ¬word.toList <+: text.toList) : (line text).Avoids word :=
  only_ok (List.forall_mem_cons.mpr ⟨plain_ne_append h, List.forall_mem_singleton.mpr nofun⟩)

end

end Layout.Rendering

/-! ## Marks of annotations -/

/-- An annotation of a class, by its short or its qualified name. -/
def Layout.Doc.Annotates (d : Doc) (c : ClassName) : Prop :=
  ∃ name, (name = c.name ∨ name = c.qualifiedName) ∧
    [.text .plain "@", .text (.ofClass c) name] <:+: d

/-- What stands above or before a test tells a framework to skip the test. -/
def Framework.Skips (framework : Framework) (head : Doc) : Prop :=
  match framework with
  | .junit5 => head.Annotates ⟨"org.junit.jupiter.api", "Disabled"⟩
  | .junit4 => head.Annotates ⟨"org.junit", "Ignore"⟩
  | .testng => [.text .plain "enabled = ", .text .plain "false"] <:+: head
  | .mocha => ∃ title, [.text .plain ("it.skip(" ++ title)] <:+: head
  | .pytest => ∃ reason, [.text .plain "@", .text (.module "pytest") "pytest",
      .text .plain ".mark.skip(reason=", .text .plain reason] <:+: head
  | .unittest => ∃ reason, [.text .plain "@", .text (.module "unittest") "unittest",
      .text .plain ".skip(", .text .plain reason] <:+: head
  | .goTesting => ∃ reason, [.indent, .text .plain ("t.Skip(" ++ reason)] <:+: head

namespace AnnotationUse

/-- A framework of the JVM skips a test for an annotation. -/
def Skips (framework : Framework) (a : AnnotationUse) : Prop :=
  match framework with
  | .junit5 => a.owner = ⟨"org.junit.jupiter.api", "Disabled"⟩
  | .junit4 => a.owner = ⟨"org.junit", "Ignore"⟩
  | .testng => (some "enabled", .literal (.bool false)) ∈ a.arguments
  | _ => False

/-- The arguments of an annotation are options, or the unit of a time. -/
def HasOptions (a : AnnotationUse) : Prop :=
  ∀ argument ∈ a.arguments, (∃ l : Literal, l.IsOption ∧ argument.2 = .literal l) ∨
    argument.2 = .staticField ⟨"java.util.concurrent", "TimeUnit"⟩ "MILLISECONDS"

theorem additive_hasOptions : Additive HasOptions where
  mark _ _ := List.forall_mem_nil _
  value _ text ha := List.forall_mem_append.mpr
    ⟨ha, List.forall_mem_singleton.mpr (Or.inl ⟨_, .str text, rfl⟩)⟩
  argument _ _ _ hl ha := List.forall_mem_append.mpr
    ⟨ha, List.forall_mem_singleton.mpr (Or.inl ⟨_, hl, rfl⟩)⟩
  unit _ ha := List.forall_mem_append.mpr ⟨ha, List.forall_mem_singleton.mpr (Or.inr rfl)⟩

end AnnotationUse

namespace Target

open Rendering

theorem mem_annotationFor {α : Type} {value : Option α} {make : α → AnnotationUse}
    {a : AnnotationUse} : a ∈ annotationFor value make ↔ ∃ v, value = some v ∧ make v = a := by
  simp [annotationFor]

theorem owner_withOptional {α : Type} (a : AnnotationUse) (value : Option α) (name : String)
    (e : α → Expr) :
    (AnnotationUse.withOptional a value fun a v => a.withArgument name (e v)).owner = a.owner := by
  cases value <;> rfl

theorem arguments_withOptional {α : Type} (a : AnnotationUse) (value : Option α) (name : String)
    (e : α → Expr) :
    (AnnotationUse.withOptional a value fun a v => a.withArgument name (e v)).arguments =
      a.arguments ++ (value.map fun v => (some name, e v)).toList := by
  cases value <;> simp [AnnotationUse.withOptional, AnnotationUse.withArgument]

/-- The annotation of a test for TestNG says whether the test is enabled when it is not. -/
theorem enabled_mem_iff {info : TestInfo} {a : AnnotationUse}
    (ha : a ∈ testAnnotations .testng info) (e : Expr) :
    (some "enabled", e) ∈ a.arguments ↔
      info.disabled.isSome = true ∧ e = .literal (.bool false) := by
  cases List.mem_singleton.mp ha
  rw [arguments_withOptional, arguments_withOptional, arguments_withOptional]
  cases info.disabled <;> simp [AnnotationUse.marker]

/-- Only false stands for whether a method is enabled. -/
theorem eq_false_of_enabled {m : Method} {a : AnnotationUse} {e : Expr}
    (ha : a ∈ methodAnnotations .testng m) (h : (some "enabled", e) ∈ a.arguments) :
    e = .literal (.bool false) := by
  simp only [methodAnnotations] at ha
  cases hkind : m.kind with
  | test info =>
      rw [hkind] at ha
      exact ((enabled_mem_iff ha e).mp h).2
  | _ =>
      rw [hkind] at ha
      simp_all [annotationFor, Framework.testAnnotation?, AnnotationUse.marker,
        AnnotationUse.withArgument]

/-- The framework skips a test for one of its annotations when the test is disabled. -/
theorem exists_skips_iff {framework : Framework}
    (hframework : framework = .junit5 ∨ framework = .junit4 ∨ framework = .testng) {m : Method}
    (hm : m.isTest = true) :
    (∃ a ∈ methodAnnotations framework m, a.Skips framework) ↔ m.isDisabled = true := by
  simp only [methodAnnotations, Method.isDisabled, Method.isTest] at hm ⊢
  cases hkind : m.kind with
  | test info =>
      rcases hframework with rfl | rfl | rfl
      · simp [testAnnotations, mem_annotationFor, AnnotationUse.marker, AnnotationUse.withValue,
          AnnotationUse.withArgument, AnnotationUse.Skips, or_and_right, exists_or,
          Option.isSome_iff_exists]
      · simp [testAnnotations, mem_annotationFor, AnnotationUse.marker, AnnotationUse.withValue,
          owner_withOptional, AnnotationUse.Skips, Option.isSome_iff_exists]
      · constructor
        · rintro ⟨a, ha, hargument⟩
          exact ((enabled_mem_iff ha _).mp hargument).1
        · intro hdisabled
          exact ⟨_, List.mem_singleton_self _,
            (enabled_mem_iff (List.mem_singleton_self _) _).mpr ⟨hdisabled, rfl⟩⟩
  | errorReport e =>
      rcases hframework with rfl | rfl | rfl <;>
        simp [mem_annotationFor, Framework.testAnnotation?, AnnotationUse.Skips]
      all_goals decide
  | parameterized e provider =>
      rcases hframework with rfl | rfl | rfl <;>
        simp [AnnotationUse.marker, AnnotationUse.withValue, AnnotationUse.withArgument,
          AnnotationUse.Skips]
  | dataProvider | helper h =>
      rw [hkind] at hm
      cases hm

/-- How the languages of the JVM write the parts of annotations.  No option reads like the name of
the argument by which a test is skipped. -/
structure Dialect.WritesAnnotations (d : Dialect) : Prop where
  className : ∀ c, ∃ name, (name = c.name ∨ name = c.qualifiedName) ∧
    d.className c = [.text (.ofClass c) name]
  option : ∀ l : Literal, l.IsOption →
    ∃ text, text ≠ "enabled = " ∧ d.literal l = [.text .plain text]
  no : d.literal (.bool false) = [.text .plain "false"]
  staticField : ∀ c name, d.staticField c name = .ok (d.className c) ++ say ("." ++ name)

section

variable {d : Dialect} (hd : d.WritesAnnotations) {suffix : String}

include hd

/-- The steps of annotations are fixed words, the names of their classes, and those of their
arguments. -/
theorem only_jvmAnnotations {P : Step → Prop} {annotations : List AnnotationUse}
    (hoptions : ∀ a ∈ annotations, a.HasOptions) (hnewline : P .newline)
    (hplain : ∀ text, text ≠ "enabled = " → P (.text .plain text))
    (hclass : ∀ c name, (c = ⟨"java.util.concurrent", "TimeUnit"⟩ ∨
      ∃ a ∈ annotations, a.owner = c) → P (.text (.ofClass c) name))
    (hname : ∀ a ∈ annotations, ∀ name e, (some name, e) ∈ a.arguments →
      P (.text .plain (name ++ " = "))) : (jvmAnnotations d suffix annotations).Only P := by
  have hsay : ∀ text, text ≠ "enabled = " → (say text).Only P := fun text htext =>
    only_ok (List.forall_mem_singleton.mpr (hplain text htext))
  have howner : ∀ c, (c = ⟨"java.util.concurrent", "TimeUnit"⟩ ∨ ∃ a ∈ annotations, a.owner = c) →
      Rendering.Only P (.ok (d.className c)) := by
    intro c hc
    obtain ⟨name, -, hwritten⟩ := hd.className c
    rw [hwritten]
    exact only_ok (List.forall_mem_singleton.mpr (hclass c name hc))
  have hliteral : ∀ l : Literal, l.IsOption → Rendering.Only P (.ok (d.literal l)) := by
    intro l hl
    obtain ⟨text, htext, hwritten⟩ := hd.option l hl
    rw [hwritten]
    exact only_ok (List.forall_mem_singleton.mpr (hplain text htext))
  have hunit : (d.staticField ⟨"java.util.concurrent", "TimeUnit"⟩ "MILLISECONDS").Only P := by
    rw [hd.staticField]
    exact only_append (howner _ (Or.inl rfl)) (hsay _ (by decide))
  refine only_concat (List.forall_mem_map.mpr fun a ha => ?_)
  refine only_append (only_append ?_ ?_) (only_ok (List.forall_mem_singleton.mpr hnewline))
  · exact only_append (hsay _ (by decide)) (howner _ (Or.inr ⟨a, ha, rfl⟩))
  · split
    · exact only_ok (List.forall_mem_nil _)
    · refine only_append (only_append (hsay _ (by decide)) ?_) (hsay _ (by decide))
      -- A name alone may read "enabled = "; what stands for an argument never does.
      refine only_separated (hsay _ (by decide)) (List.forall_mem_map.mpr ?_)
      rintro ⟨name, e⟩ hargument
      have hnamed : ∀ r : Rendering, r.Only P → ∀ word, name = some word →
          (say (word ++ " = ") ++ r).Only P := by
        rintro r hr word rfl
        exact only_append
          (only_ok (List.forall_mem_singleton.mpr (hname a ha word e hargument))) hr
      rcases hoptions a ha _ hargument with ⟨l, hl, rfl⟩ | rfl
      · cases name with
        | none => exact hliteral l hl
        | some word => exact hnamed _ (hliteral l hl) word rfl
      · cases name with
        | none => exact hunit
        | some word => exact hnamed _ hunit word rfl

/-- Annotations hold the name of each of their classes behind a sign. -/
theorem annotates_of_mem {annotations : List AnnotationUse} {a : AnnotationUse}
    (ha : a ∈ annotations) {head : Doc} (h : jvmAnnotations d suffix annotations = .ok head) :
    head.Annotates a.owner := by
  have hholds : (jvmAnnotations d suffix annotations).Holds
      (say "@" ++ .ok (d.className a.owner)) :=
    holds_concat (List.mem_map_of_mem ha) (holds_left (holds_left (holds_refl _)))
  obtain ⟨name, hname, hwritten⟩ := hd.className a.owner
  obtain ⟨x, hx, hpart⟩ := hholds head h
  rw [hwritten] at hx
  cases hx
  exact ⟨name, hname, hpart⟩

/-- Only the annotations of a class name it, unless it is the unit of times. -/
theorem exists_owner_of_annotates {annotations : List AnnotationUse}
    (hoptions : ∀ a ∈ annotations, a.HasOptions) {c : ClassName}
    (hc : c ≠ ⟨"java.util.concurrent", "TimeUnit"⟩) {head : Doc}
    (h : jvmAnnotations d suffix annotations = .ok head) (hhead : head.Annotates c) :
    ∃ a ∈ annotations, a.owner = c := by
  obtain ⟨name, -, hpart⟩ := hhead
  have hmem : .text (.ofClass c) name ∈ head := hpart.subset (by simp)
  have honly : (jvmAnnotations d suffix annotations).Only fun x => ∀ name,
      x = .text (.ofClass c) name → ∃ a ∈ annotations, a.owner = c := by
    refine only_jvmAnnotations hd hoptions (fun _ h => nomatch h) (fun _ _ _ h => nomatch h) ?_
      fun _ _ _ _ _ _ h => nomatch h
    intro k name hk name' heq
    cases heq
    exact hk.resolve_left hc
  exact honly head h _ hmem name rfl

theorem enabled_infix_of_mem {annotations : List AnnotationUse} {a : AnnotationUse}
    (ha : a ∈ annotations) (hargument : (some "enabled", .literal (.bool false)) ∈ a.arguments)
    {head : Doc} (h : jvmAnnotations d suffix annotations = .ok head) :
    [.text .plain "enabled = ", .text .plain "false"] <:+: head := by
  have hnonempty : ¬a.arguments.isEmpty = true := by
    rw [List.isEmpty_iff]
    exact List.ne_nil_of_mem hargument
  have hholds : (jvmAnnotations d suffix annotations).Holds
      (say ("enabled" ++ " = ") ++ d.expr (.literal (.bool false))) := by
    refine holds_concat (List.mem_map_of_mem ha) (holds_left (holds_right ?_))
    rw [if_neg hnonempty]
    exact holds_left
      (holds_right (holds_separated _ (List.mem_map_of_mem hargument) (holds_refl _)))
  obtain ⟨x, hx, hpart⟩ := hholds head h
  rw [show d.expr (.literal (.bool false)) = .ok [.text .plain "false"] from
    congrArg Except.ok hd.no] at hx
  cases hx
  exact hpart

theorem exists_argument_of_infix {annotations : List AnnotationUse}
    (hoptions : ∀ a ∈ annotations, a.HasOptions) {head : Doc}
    (h : jvmAnnotations d suffix annotations = .ok head)
    (hhead : [.text .plain "enabled = ", .text .plain "false"] <:+: head) :
    ∃ a ∈ annotations, ∃ e, (some "enabled", e) ∈ a.arguments := by
  have hmem : .text .plain "enabled = " ∈ head := hhead.subset (by simp)
  have honly : (jvmAnnotations d suffix annotations).Only fun x => x = .text .plain "enabled = " →
      ∃ a ∈ annotations, ∃ e, (some "enabled", e) ∈ a.arguments := by
    refine only_jvmAnnotations hd hoptions (fun h => nomatch h) ?_ (fun _ _ _ h => nomatch h) ?_
    · rintro text htext heq
      cases heq
      exact absurd rfl htext
    · intro a ha name e hargument heq
      have hname : name ++ " = " = "enabled" ++ " = " := (Step.text.inj heq).2
      obtain rfl : name = "enabled" := (String.append_left_inj _).mp hname
      exact ⟨a, ha, e, hargument⟩
  exact honly head h _ hmem rfl

/-- Annotations have the mark of a framework when there is one for which it skips a test. -/
theorem skips_jvmAnnotations_iff {framework : Framework}
    (hframework : framework = .junit5 ∨ framework = .junit4 ∨ framework = .testng) {m : Method}
    {head : Doc} (h : jvmAnnotations d suffix (methodAnnotations framework m) = .ok head) :
    framework.Skips head ↔ ∃ a ∈ methodAnnotations framework m, a.Skips framework := by
  have hoptions : ∀ a ∈ methodAnnotations framework m, a.HasOptions :=
    forall_methodAnnotations AnnotationUse.additive_hasOptions framework m
  rcases hframework with rfl | rfl | rfl
  · refine ⟨exists_owner_of_annotates hd hoptions (by decide) h, ?_⟩
    rintro ⟨a, ha, howner⟩
    have hannotates := annotates_of_mem hd ha h
    rwa [show a.owner = _ from howner] at hannotates
  · refine ⟨exists_owner_of_annotates hd hoptions (by decide) h, ?_⟩
    rintro ⟨a, ha, howner⟩
    have hannotates := annotates_of_mem hd ha h
    rwa [show a.owner = _ from howner] at hannotates
  · constructor
    -- The two steps of the mark could belong to different annotations; the first decides.
    · intro hhead
      obtain ⟨a, ha, e, hargument⟩ := exists_argument_of_infix hd hoptions h hhead
      rw [eq_false_of_enabled ha hargument] at hargument
      exact ⟨a, ha, hargument⟩
    · rintro ⟨a, ha, hargument⟩
      exact enabled_infix_of_mem hd ha hargument h

end

theorem Surroundings.className_cases (s : Surroundings) (implicitPackage : String) (c : ClassName) :
    s.className implicitPackage c = c.name ∨ s.className implicitPackage c = c.qualifiedName := by
  simp only [Surroundings.className]
  split
  · exact Or.inl rfl
  · exact Or.inr rfl

/-- A text between quotes begins with a quote. -/
theorem quoted_ne {marked : List Char} (text : String) {word : String}
    (hword : word.toList.head? ≠ some '"') : Text.Quoted.literal '"' marked text ≠ word := by
  rintro rfl
  rw [Text.Quoted.literal, String.toList_ofList] at hword
  exact hword rfl

theorem Java.literal_ne {l : Literal} (hl : l.IsOption) : Java.literal l ≠ "enabled = " := by
  cases hl with
  | str text => exact quoted_ne text (by decide)
  | long n =>
      simp only [Java.literal]
      split
      · decide
      · intro heq
        have hlast := congrArg (fun text => text.toList.getLast?) heq
        simp at hlast
  | bool b => cases b <;> decide

theorem Java.writesAnnotations (s : Surroundings) : (Java.dialect s).WritesAnnotations where
  className c := ⟨_, s.className_cases "java.lang" c, rfl⟩
  option _ hl := ⟨_, Java.literal_ne hl, rfl⟩
  no := rfl
  staticField _ _ := rfl

theorem Kotlin.writesAnnotations (s : Surroundings) : (Kotlin.dialect s).WritesAnnotations where
  className c := ⟨_, s.className_cases "kotlin" c, rfl⟩
  option l hl := by
    refine ⟨_, ?_, rfl⟩
    cases hl with
    | str text => exact quoted_ne text (by decide)
    | long n => exact Java.literal_ne (.long n)
    | bool b => exact Java.literal_ne (.bool b)
  no := rfl
  staticField _ _ := rfl

/-! ## Heads of tests -/

/-- What a language writes of a test above its own name: annotations or decorators; in JavaScript
the opening of the registration, and in Go that of the function, up to its own statements. -/
def Surroundings.headOf (s : Surroundings) (m : Method) : Rendering :=
  match s.settings.language with
  | .java => jvmAnnotations (Java.dialect s) ".class" (methodAnnotations s.settings.framework m)
  | .kotlin =>
    jvmAnnotations (Kotlin.dialect s) "::class" (methodAnnotations s.settings.framework m)
  | .python => Python.decorators s (Python.dialect s) m
  | .javascript => JavaScript.opening m
  | .go => Go.opening (Go.dialect s) m

/-- The first part of the head of a documented method stands before its statements. -/
theorem exists_head_of_documentedAbove {d : Dialect} {opening closing : Method → Rendering}
    {m : Method} {head rest : Rendering} (h : opening m = head ++ rest) :
    ∃ above below : Rendering, documentedAbove d opening closing m = above ++ head ++ below ∧
      below.Holds (d.stmts m.body) := by
  refine ⟨if m.documentation.isEmpty then nothing else .ok (d.documentation m.documentation),
    rest ++ d.stmts m.body ++ closing m, ?_, holds_left (holds_right (holds_refl _))⟩
  rw [documentedAbove, h]
  simp only [append_assoc]

theorem Python.exists_head (s : Surroundings) (m : Method) :
    ∃ above below : Rendering,
      (methods s).whole m = above ++ decorators s (dialect s) m ++ below ∧
        below.Holds ((dialect s).stmts m.body) := by
  let names := (if m.isStatic then [] else [say "self"]) ++
    m.parameters.map fun p => (dialect s).reference p.name
  let signature := say ("def " ++ m.name ++ "(") ++ commas names ++ line "):" ++ .ok [.indent]
  let body := if m.documentation.isEmpty then suite ((dialect s).blockOf m.body)
    else .ok (docstring m.documentation) ++ (dialect s).stmts m.body
  -- A suite without documentation is written from the block, which has the same statements.
  have hbody : body.Holds ((dialect s).stmts m.body) := by
    dsimp only [body]
    split
    · refine holds_left ?_
      rw [Dialect.content_blockOf]
      exact holds_refl _
    · exact holds_right (holds_refl _)
  refine ⟨nothing, signature ++ (body ++ closing m), ?_, holds_right (holds_left hbody)⟩
  rw [nothing_append]
  simp only [methods, opening, signature, names, body, append_assoc]

/-- The head of a test stands before its statements. -/
theorem Surroundings.exists_head (s : Surroundings) {m : Method} (hm : m.isTest = true) :
    ∃ above below : Rendering, s.methodForms.method m = above ++ s.headOf m ++ below ∧
      below.Holds (s.methodForms.dialect.stmts m.body) := by
  have hkind : ∀ h, m.kind ≠ .helper h := by
    intro h hkind
    simp [Method.isTest, hkind] at hm
  rw [MethodForms.method_eq_whole hkind]
  simp only [Surroundings.methodForms, Surroundings.headOf]
  cases s.settings.language with
  | java => exact exists_head_of_documentedAbove (append_assoc _ _ _)
  | kotlin => exact exists_head_of_documentedAbove (append_assoc _ _ _)
  | python => exact Python.exists_head s m
  | javascript => exact exists_head_of_documentedAbove (append_nothing _).symm
  | go => exact exists_head_of_documentedAbove (append_nothing _).symm

/-- A comment names no module. -/
theorem Dialect.module_not_mem_comment {d : Dialect} {path name text : String} :
    .text (.module path) name ∉ d.comment text := by
  simp only [Dialect.comment]
  split <;> simp

namespace Python

variable {s : Surroundings}

/-- The decorator of a disabled test is the mark of its framework. -/
theorem skips_skipDecorator
    (hframework : s.settings.framework = .unittest ∨ s.settings.framework = .pytest)
    {reason : String} {x : Doc} (h : skipDecorator s reason = .ok x) (y : Doc) :
    s.settings.framework.Skips (x ++ y) := by
  rcases hframework with hframework | hframework
  · rw [hframework]
    simp only [skipDecorator, isPytest, hframework] at h
    cases h
    exact ⟨quote reason, (List.prefix_append _ _).isInfix⟩
  · rw [hframework]
    simp only [skipDecorator, isPytest, hframework] at h
    cases h
    exact ⟨quote reason, (List.prefix_append _ _).isInfix⟩

/-- The decorator of a test with a timeout is no mark. -/
theorem not_skips_timeoutDecorator
    (hframework : s.settings.framework = .unittest ∨ s.settings.framework = .pytest) {millis : Nat}
    {x : Doc} (h : timeoutDecorator s (dialect s) millis = .ok x) :
    ¬s.settings.framework.Skips x := by
  rcases hframework with hframework | hframework
  · rw [hframework]
    simp only [timeoutDecorator, isPytest, hframework] at h
    cases h
    rintro ⟨reason, hpart⟩
    have hmem : .text (.module "unittest") "unittest" ∈ (dialect s).comment _ :=
      hpart.subset (by simp)
    exact Dialect.module_not_mem_comment hmem
  · rw [hframework]
    simp only [timeoutDecorator, isPytest, hframework] at h
    cases h
    rintro ⟨reason, hpart⟩
    simp [List.infix_cons_iff, List.cons_prefix_cons] at hpart

theorem not_skips_nil
    (hframework : s.settings.framework = .unittest ∨ s.settings.framework = .pytest) :
    ¬s.settings.framework.Skips [] := by
  rcases hframework with hframework | hframework
  · rw [hframework]
    rintro ⟨reason, hpart⟩
    cases List.infix_nil.mp hpart
  · rw [hframework]
    rintro ⟨reason, hpart⟩
    cases List.infix_nil.mp hpart

theorem skips_decorators_iff
    (hframework : s.settings.framework = .unittest ∨ s.settings.framework = .pytest) {m : Method}
    (hm : m.isTest = true) {head : Doc} (h : decorators s (dialect s) m = .ok head) :
    s.settings.framework.Skips head ↔ m.isDisabled = true := by
  simp only [decorators] at h
  simp only [Method.isDisabled]
  cases hkind : m.kind with
  | test info =>
      rw [hkind] at h
      obtain ⟨x, y, hx, hy, rfl⟩ := append_eq_ok_iff.mp h
      dsimp only
      cases hdisabled : info.disabled with
      | some reason =>
          rw [hdisabled] at hx
          exact iff_of_true (skips_skipDecorator hframework hx y) rfl
      | none =>
          rw [hdisabled] at hx
          cases hx
          refine iff_of_false ?_ Bool.false_ne_true
          rw [List.nil_append]
          cases htimeout : info.timeoutMillis with
          | some millis =>
              rw [htimeout] at hy
              exact not_skips_timeoutDecorator hframework hy
          | none =>
              rw [htimeout] at hy
              cases hy
              exact not_skips_nil hframework
  | errorReport e =>
      rw [hkind] at h
      cases h
      exact iff_of_false (not_skips_nil hframework) Bool.false_ne_true
  | parameterized e provider =>
      rw [hkind] at h
      refine iff_of_false ?_ Bool.false_ne_true
      rcases hframework with hframework | hframework
      · simp only [isPytest, hframework] at h
        cases h
      · simp only [isPytest, hframework] at h
        cases h
        rw [hframework]
        rintro ⟨reason, hpart⟩
        simp [List.infix_cons_iff, List.cons_prefix_cons] at hpart
  | dataProvider | helper k => simp [Method.isTest, hkind] at hm

end Python

namespace JavaScript

theorem skips_register_skip (title : String) {x : Doc}
    (h : register "it.skip" title = .ok x) : Framework.mocha.Skips x := by
  cases h
  refine ⟨quote title ++ r", function () {", ?_⟩
  have htext : "it.skip" ++ "(" ++ quote title ++ r", function () {" =
      "it.skip(" ++ (quote title ++ r", function () {") := by
    rw [String.append_assoc]
    rfl
  rw [← htext]
  exact (List.prefix_append [_] _).isInfix

theorem avoids_register (title : String) : (register "it" title).Avoids "it.skip(" := by
  refine only_append (avoids_line ?_) (only_ok (List.forall_mem_singleton.mpr nofun))
  simp

theorem avoids_timeout (millis : Nat) :
    (line ("this.timeout(" ++ toString millis ++ ");")).Avoids "it.skip(" := by
  refine avoids_line ?_
  simp

theorem not_skips_of_avoids {r : Rendering} (h : r.Avoids "it.skip(") {x : Doc} (hx : r = .ok x) :
    ¬Framework.mocha.Skips x := by
  rintro ⟨title, hpart⟩
  exact h x hx _ (hpart.subset (List.mem_singleton_self _)) title rfl

theorem skips_opening_iff {m : Method} (hm : m.isTest = true) {head : Doc}
    (h : opening m = .ok head) : Framework.mocha.Skips head ↔ m.isDisabled = true := by
  simp only [opening] at h
  simp only [Method.isDisabled]
  cases hkind : m.kind with
  | test info =>
      rw [hkind] at h
      dsimp only at h ⊢
      cases hdisabled : info.disabled with
      | some reason =>
          rw [hdisabled] at h
          obtain ⟨x, hx, hpart⟩ := holds_left (holds_right (holds_refl _)) head h
          obtain ⟨title, htitle⟩ := skips_register_skip _ hx
          exact iff_of_true ⟨title, htitle.trans hpart⟩ rfl
      | none =>
          rw [hdisabled] at h
          refine iff_of_false (not_skips_of_avoids (only_append (avoids_register _) ?_) h)
            Bool.false_ne_true
          cases info.timeoutMillis with
          | some millis => exact avoids_timeout millis
          | none => exact only_ok (List.forall_mem_nil _)
  | errorReport e =>
      rw [hkind] at h
      exact iff_of_false (not_skips_of_avoids (avoids_register m.name) h) Bool.false_ne_true
  | parameterized e provider =>
      rw [hkind] at h
      cases h
  | dataProvider | helper k => simp [Method.isTest, hkind] at hm

end JavaScript

namespace Go

variable {d : Dialect}

/-- The first statement of a disabled test skips it. -/
theorem skips_of_skip (name reason : String) {x : Doc}
    (h : testHead name ++ line ("t.Skip(" ++ quote reason ++ ")") = .ok x) :
    Framework.goTesting.Skips x := by
  rw [String.append_assoc] at h
  cases h
  exact ⟨quote reason ++ ")", [_, _, _, _], [.newline], rfl⟩

theorem avoids_testHead (name : String) : (testHead name).Avoids "t.Skip(" := by
  have hfunc : (say ("func " ++ name ++ "(t *")).Avoids "t.Skip(" := avoids_say (by simp)
  have hend : (line r".T) {").Avoids "t.Skip(" := avoids_line (by simp)
  refine only_append (only_append (only_append hfunc ?_) hend) ?_
  · exact only_ok (List.forall_mem_singleton.mpr nofun)
  · exact only_ok (List.forall_mem_singleton.mpr nofun)

theorem avoids_comment (s : Surroundings) (text : String) :
    Rendering.Avoids "t.Skip(" (.ok ((dialect s).comment text)) := by
  have hslashes : ∀ rest, Step.text .plain "//" ≠ .text .plain ("t.Skip(" ++ rest) :=
    plain_ne_append (by simp)
  have hspace : ∀ rest, Step.text .plain " " ≠ .text .plain ("t.Skip(" ++ rest) :=
    plain_ne_append (by simp)
  intro d hd x hx rest heq
  cases hd
  subst heq
  simp only [Dialect.comment] at hx
  split at hx
  · rcases List.mem_cons.mp hx with h | hx
    · exact hslashes rest h.symm
    · cases List.mem_singleton.mp hx
  · rcases List.mem_cons.mp hx with h | hx
    · exact hslashes rest h.symm
    rcases List.mem_cons.mp hx with h | hx
    · exact hspace rest h.symm
    rcases List.mem_cons.mp hx with h | hx
    · cases h
    · cases List.mem_singleton.mp hx

theorem not_skips_of_avoids {r : Rendering} (h : r.Avoids "t.Skip(") {x : Doc} (hx : r = .ok x) :
    ¬Framework.goTesting.Skips x := by
  rintro ⟨reason, hpart⟩
  exact h x hx _ (hpart.subset (by simp)) reason rfl

theorem skips_opening_iff {s : Surroundings} {m : Method} (hm : m.isTest = true) {head : Doc}
    (h : opening (dialect s) m = .ok head) :
    Framework.goTesting.Skips head ↔ m.isDisabled = true := by
  simp only [opening] at h
  simp only [Method.isDisabled]
  cases hkind : m.kind with
  | test info =>
      rw [hkind] at h
      dsimp only at h ⊢
      cases hdisabled : info.disabled with
      | some reason =>
          rw [hdisabled] at h
          obtain ⟨x, hx, hpart⟩ := holds_left (holds_refl _) head h
          obtain ⟨rest, hrest⟩ := skips_of_skip _ _ hx
          exact iff_of_true ⟨rest, hrest.trans hpart⟩ rfl
      | none =>
          rw [hdisabled] at h
          refine iff_of_false (not_skips_of_avoids (only_append (only_append
            (avoids_testHead m.name) (only_ok (List.forall_mem_nil _))) ?_) h) Bool.false_ne_true
          cases info.timeoutMillis with
          | some millis => exact avoids_comment s _
          | none => exact only_ok (List.forall_mem_nil _)
  | errorReport e =>
      rw [hkind] at h
      exact iff_of_false (not_skips_of_avoids (avoids_testHead m.name) h) Bool.false_ne_true
  | parameterized e provider =>
      rw [hkind] at h
      cases h
  | dataProvider | helper k => simp [Method.isTest, hkind] at hm

end Go

/-- The head of a test has the mark of the framework when the test is disabled. -/
theorem Surroundings.skips_headOf_iff {s : Surroundings}
    (hframework : s.settings.framework ∈ s.settings.language.frameworks) {m : Method}
    (hm : m.isTest = true) {head : Doc} (h : s.headOf m = .ok head) :
    s.settings.framework.Skips head ↔ m.isDisabled = true := by
  simp only [Surroundings.headOf] at h
  cases hlanguage : s.settings.language with
  | java =>
      rw [hlanguage] at h hframework
      have hjvm : s.settings.framework = .junit5 ∨ s.settings.framework = .junit4 ∨
          s.settings.framework = .testng := by simpa [Language.frameworks] using hframework
      exact (skips_jvmAnnotations_iff (Java.writesAnnotations s) hjvm h).trans
        (exists_skips_iff hjvm hm)
  | kotlin =>
      rw [hlanguage] at h hframework
      have hjvm : s.settings.framework = .junit5 ∨ s.settings.framework = .junit4 ∨
          s.settings.framework = .testng := by simpa [Language.frameworks] using hframework
      exact (skips_jvmAnnotations_iff (Kotlin.writesAnnotations s) hjvm h).trans
        (exists_skips_iff hjvm hm)
  | python =>
      rw [hlanguage] at h hframework
      have hpython : s.settings.framework = .unittest ∨ s.settings.framework = .pytest := by
        simpa [Language.frameworks] using hframework
      exact Python.skips_decorators_iff hpython hm h
  | javascript =>
      rw [hlanguage] at h hframework
      rw [show s.settings.framework = .mocha from List.mem_singleton.mp hframework]
      exact JavaScript.skips_opening_iff hm h
  | go =>
      rw [hlanguage] at h hframework
      rw [show s.settings.framework = .goTesting from List.mem_singleton.mp hframework]
      exact Go.skips_opening_iff hm h

/-! ## Tests of a file -/

theorem Kotlin.holds_body {f : MethodForms} {c : TestClass} {m : Method} (hm : m ∈ c.methods) :
    (body f c).Holds (f.method m) := by
  simp only [body]
  split
  · exact MethodForms.holds_class hm
  · rcases List.mem_append.mp hm with hm | hm
    · exact holds_left (MethodForms.holds_regions hm)
    · rw [c.statics.isEmpty_eq_false hm]
      exact holds_right (holds_left (holds_right
        (holds_nest (MethodForms.holds_region c.statics hm))))

theorem Python.holds_file {s : Surroundings} {f : SourceFile} {m : Method}
    (hm : m ∈ f.testClass.methods) : (file s f).Holds ((methods s).method m) := by
  simp only [file]
  split
  · intro d hd
    cases hd
  · next statics hstatics =>
    rcases List.mem_append.mp hm with hm | hm
    · exact holds_right (holds_right (holds_nest (holds_right (MethodForms.holds_regions hm))))
    · rw [f.testClass.statics.isEmpty_eq_false hm, if_neg Bool.false_ne_true] at hstatics
      obtain ⟨x, hx, hpart⟩ :=
        holds_right (MethodForms.holds_region f.testClass.statics hm) statics hstatics
      refine holds_left fun d hd => ⟨x, hx, hpart.trans ?_⟩
      cases hd
      exact ⟨_, _, rfl⟩

theorem Go.holds_file {s : Surroundings} {f : SourceFile} {m : Method}
    (hm : m ∈ f.testClass.methods) : (file s f).Holds ((methods s).method m) := by
  simp only [file]
  split
  · intro d hd
    cases hd
  · have hall : ∀ r ∈ MethodForms.inhabited (f.testClass.regions ++ [f.testClass.statics]),
        ∀ m ∈ r.methods, (concat ((MethodForms.inhabited
          (f.testClass.regions ++ [f.testClass.statics])).map fun r =>
            newline ++ (methods s).region r)).Holds ((methods s).method m) := fun r hr m hm =>
      holds_concat (List.mem_map_of_mem hr) (holds_right (MethodForms.holds_region r hm))
    exact holds_right
      ((forall_methods_iff _).mp ((MethodForms.forall_inhabited_iff _).mp hall) m hm)

/-- A file holds each method of its class. -/
theorem holds_fileDoc {settings : Settings} {f : SourceFile} {m : Method}
    (hm : m ∈ f.testClass.methods) :
    (fileDoc settings f).Holds ((Surroundings.ofFile settings f).methodForms.method m) := by
  simp only [fileDoc, Surroundings.methodForms]
  have hlanguage : (Surroundings.ofFile settings f).settings.language = settings.language := rfl
  rw [hlanguage]
  cases settings.language with
  | java => exact holds_left (holds_right (holds_nest (MethodForms.holds_class hm)))
  | kotlin => exact holds_left (holds_right (holds_nest (Kotlin.holds_body hm)))
  | javascript => exact holds_left (holds_right (holds_nest (MethodForms.holds_class hm)))
  | python => exact Python.holds_file hm
  | go => exact Go.holds_file hm

/-- A document has a test in one piece, with a head that stands before the statements. -/
structure Surroundings.HasTest (s : Surroundings) (d : Doc) (m : Method) (head : Doc) : Prop where
  headOf_eq : s.headOf m = .ok head
  method : ∃ above below body, s.methodForms.method m = .ok (above ++ head ++ below) ∧
    above ++ head ++ below <:+: d ∧ s.methodForms.dialect.stmts m.body = .ok body ∧
    body <:+: below

/-- A file has the tests of its class. -/
theorem exists_hasTest {settings : Settings} {f : SourceFile} {d : Doc}
    (hd : fileDoc settings f = .ok d) {m : Method} (hm : m ∈ f.testClass.methods)
    (htest : m.isTest = true) : ∃ head, (Surroundings.ofFile settings f).HasTest d m head := by
  obtain ⟨test, hwritten, hpart⟩ := holds_fileDoc hm d hd
  obtain ⟨above, below, hparts, hstatements⟩ := (Surroundings.ofFile settings f).exists_head htest
  obtain ⟨x, z, hx, hz, rfl⟩ := append_eq_ok_iff.mp (hparts.symm.trans hwritten)
  obtain ⟨y, head, -, hhead, rfl⟩ := append_eq_ok_iff.mp hx
  obtain ⟨body, hbody, hbelow⟩ := hstatements z hz
  exact ⟨head, hhead, y, z, body, hwritten, hpart, hbody, hbelow⟩

end Target

/-! ## Generated tests -/

/-- A run ended its process, or it hung. -/
def Execution.CrashedOrHung (run : Execution) : Prop :=
  (∃ reason, run.outcome = .crash reason) ∨ ∃ limit, run.outcome = .timeout limit

/-- A run with a row came to an end. -/
theorem TestSet.not_crashedOrHung_of_mem_rows {set : TestSet} {run : Execution}
    (h : run ∈ set.rows) : ¬run.CrashedOrHung := by
  have htabular := (List.mem_filter.mp h).2
  rintro (⟨reason, hcrash⟩ | ⟨limit, htimeout⟩)
  · rw [hcrash] at htabular
    cases htabular
  · rw [htimeout] at htabular
    cases htabular

namespace Method.ComesFrom

variable {config : Config} {sets : List TestSet} {m : Method}

/-- The test of a run was written for a run of the sets. -/
theorem exists_run (h : m.ComesFrom config sets) {info : TestInfo} (hkind : m.kind = .test info) :
    config.isParameterized = false ∧
      ∃ set ∈ sets, ∃ run ∈ set.executions, run.Writes config set.executable m := by
  cases h with
  | test hplain hset hrun hwrites => exact ⟨hplain, _, hset, _, hrun, hwrites⟩
  | table htables hset hconfig htable =>
      rw [(TestSet.parts_of_toTable_ok htable).1] at hkind
      cases hkind
  | provider htables hset hconfig htable =>
      obtain ⟨names, providerBody, d, testBody, d', providerName, testName, names', -, -, rfl, -⟩ :=
        TestSet.eq_of_toTable_ok htable
      cases hkind
  | listing hset hlists =>
      obtain ⟨name, errors, rfl⟩ := hlists
      cases hkind
  | helper h => cases hkind

/-- A data provider gives the rows of the runs of a set that came to an end. -/
theorem exists_rows (h : m.ComesFrom config sets) (hkind : m.kind = .dataProvider) :
    ∃ set ∈ sets,
      Stmt.GivesRows m.body (Column.ofRuns config set.executable set.rows) set.rows := by
  cases h with
  | test hplain hset hrun hwrites =>
      obtain ⟨⟨info, htest⟩, -⟩ := hwrites.isDisabled_iff
      rw [htest] at hkind
      cases hkind
  | table htables hset hconfig htable =>
      rw [(TestSet.parts_of_toTable_ok htable).1] at hkind
      cases hkind
  | provider htables hset hconfig htable =>
      subst hconfig
      exact ⟨_, hset, (TestSet.parts_of_toTable_ok htable).2.2.2⟩
  | listing hset hlists =>
      obtain ⟨name, errors, rfl⟩ := hlists
      cases hkind
  | helper h => cases hkind

end Method.ComesFrom

/-- The test of a run is disabled exactly when the run crashed, when it hung and there is no
timeout, or when it needs static mocking that is off.  In a generated text exactly the disabled
tests have the mark by which the framework skips a test.  With a test for each run, every run that
can be written has its test; with tables there is no test of a run, and no run that crashed or hung
has a row. -/
theorem dangerous_tests_are_skipped {cut : ClassName} {config : Config} {gen : Generator}
    (hnew : Generator.new cut config = .ok gen) :
    (∀ (run : Execution) (e : Executable) (m : Method), run.Writes config e m →
      (∃ info, m.kind = .test info) ∧ (m.isDisabled = true ↔ run.IsDangerous config)) ∧
    ∀ (sets : List TestSet) (className : Option String) (out : GeneratedTests),
      gen.generate sets className = .ok out →
      ∃ c d, (gen.base.derive className true).construct sets = .ok c ∧
        Target.fileDoc c.generation.settings c.file = .ok d ∧
        out.code = d.toText
          (Target.Surroundings.ofFile c.generation.settings c.file).methodForms.dialect.tab ∧
        (∀ m ∈ c.file.testClass.methods, m.isTest = true → ∃ head,
          (Target.Surroundings.ofFile c.generation.settings c.file).HasTest d m head ∧
            (config.framework.Skips head ↔ m.isDisabled = true)) ∧
        (config.isParameterized = false →
          (∀ set ∈ sets, ∀ run ∈ set.writable config, ∃ m ∈ c.file.testClass.methods,
            run.Writes config set.executable m) ∧
          ∀ m ∈ c.file.testClass.methods, (∃ info, m.kind = .test info) →
            ∃ set ∈ sets, ∃ run ∈ set.executions, run.Writes config set.executable m) ∧
        (config.isParameterized = true →
          (∀ m ∈ c.file.testClass.methods, ∀ info, m.kind ≠ .test info) ∧
          ∀ m ∈ c.file.testClass.methods, m.kind = .dataProvider → ∃ set ∈ sets,
            (∀ run ∈ set.rows, ¬run.CrashedOrHung) ∧
            Stmt.GivesRows m.body (Column.ofRuns config set.executable set.rows) set.rows) := by
  refine ⟨fun run e m h => h.isDisabled_iff, ?_⟩
  intro sets className out hout
  obtain ⟨c, d, hc, hfollows, hd, hcode⟩ := Generator.exists_doc_of_generate_ok hout
  obtain ⟨rfl, hvalid⟩ := Generator.eq_of_new_ok hnew
  have hcomes : ∀ m ∈ c.file.testClass.methods, m.ComesFrom config sets :=
    Generation.construct_comesFrom hc
  have hframework : c.generation.config.framework = config.framework :=
    congrArg Config.framework hfollows.config_eq
  have havailable : c.generation.config.framework ∈ c.generation.language.frameworks := by
    rw [hframework, hfollows.language_eq]
    exact Config.framework_mem_of_validate hvalid
  refine ⟨c, d, hc, hd, hcode, ?_, ?_, ?_⟩
  · intro m hm htest
    obtain ⟨head, hwritten⟩ := Target.exists_hasTest hd hm htest
    have hskips := Target.Surroundings.skips_headOf_iff havailable htest hwritten.headOf_eq
    rw [← hframework]
    exact ⟨head, hwritten, hskips⟩
  · intro hplain
    constructor
    · intro set hset run hrun
      obtain ⟨c', parts, hc', hmethods, hparts⟩ := Generation.construct_contributes
        (g := (Generation.new cut config).derive className true) hplain sets
      obtain rfl : c = c' := Except.ok.inj (hc.symm.trans hc')
      obtain ⟨m, hm, hwrites⟩ := TestSet.exists_test_of_contributes hparts hset hrun
      exact ⟨m, List.mem_append_left _ (hmethods ▸ hm), hwrites⟩
    · rintro m hm ⟨info, hkind⟩
      exact ((hcomes m hm).exists_run hkind).2
  · intro htables
    constructor
    · intro m hm info hkind
      rw [((hcomes m hm).exists_run hkind).1] at htables
      cases htables
    · intro m hm hkind
      obtain ⟨set, hset, hrows⟩ := (hcomes m hm).exists_rows hkind
      exact ⟨set, hset, fun run hrun => TestSet.not_crashedOrHung_of_mem_rows hrun, hrows⟩

/-- A run that ended its process. -/
def crashedRun : Execution := .ofArguments [] (.crash "out of memory")

/-- A function with one run that ended its process. -/
def crashedFunction : TestSet :=
  ⟨⟨⟨"demo", "demo"⟩, "boom", [], .void, .function⟩, [crashedRun], [], .empty⟩

/-- The test of a run that ended its process is registered to be skipped. -/
theorem dangerous_tests_are_skipped_crashedFunction :
    ∃ gen out, Generator.new ⟨"demo", "demo"⟩ (.forLanguage .javascript) = .ok gen ∧
      crashedRun.IsDangerous (.forLanguage .javascript) ∧
      gen.generate [crashedFunction] none = .ok out ∧
      ∃ c d, (gen.base.derive none true).construct [crashedFunction] = .ok c ∧
        Target.fileDoc c.generation.settings c.file = .ok d ∧
        ∃ m ∈ c.file.testClass.methods,
          crashedRun.Writes (.forLanguage .javascript) crashedFunction.executable m ∧
          ∃ head title,
            (Target.Surroundings.ofFile c.generation.settings c.file).HasTest d m head ∧
            [.text .plain ("it.skip(" ++ title)] <:+: head := by
  have hdanger : crashedRun.IsDangerous (.forLanguage .javascript) := Or.inl ⟨_, rfl⟩
  have hnew : Generator.new ⟨"demo", "demo"⟩ (.forLanguage .javascript) =
      .ok ⟨.new ⟨"demo", "demo"⟩ (.forLanguage .javascript)⟩ := rfl
  obtain ⟨hdisabled, htexts⟩ := dangerous_tests_are_skipped hnew
  obtain ⟨_, _, _, _, _, gen, hgen, -, hout⟩ := @Generator.exists_doc_of_validate
    (.forLanguage .javascript) rfl (by decide) ⟨"demo", "demo"⟩ [crashedFunction] none
  cases hnew.symm.trans hgen
  obtain ⟨c, d, hc, hd, -, htests, hplain, -⟩ := htexts _ _ _ hout
  obtain ⟨m, hm, hwrites⟩ := (hplain rfl).1 crashedFunction (List.mem_singleton_self _) crashedRun
    (List.mem_filter.mpr ⟨List.mem_singleton_self _, by decide +kernel⟩)
  obtain ⟨⟨info, hkind⟩, hiff⟩ := hdisabled _ _ _ hwrites
  have htest : m.isTest = true := by simp [Method.isTest, hkind]
  obtain ⟨head, hwritten, hskips⟩ := htests m hm htest
  obtain ⟨title, hmark⟩ := hskips.mpr (hiff.mpr hdanger)
  exact ⟨_, _, hnew, hdanger, hout, c, d, hc, hd, m, hm, hwrites, head, title, hwritten, hmark⟩

end TestWriter
