import TestWriter.Proofs.MethodOrder
import TestWriter.Proofs.PythonSuites

/-!
# Suites of methods, classes and files in Python

A method has a line of code below its heading when it is documented or its statements have one; a
class has one unless its regions have members but no methods.  Main statement: in a file that is
written, each heading has a line of code below it exactly when this is so for the class, for every
method and for every suite in one.
-/

namespace TestWriter.Target.Python

open Layout Rendering

variable (s : Surroundings)

/-! ## Methods -/

/-- Whether the headings with which a method is written have lines of code below them. -/
def isMethodFilled (m : Method) : Bool :=
  match m.kind with
  | .helper _ => true
  | _ => (!m.documentation.isEmpty || hasCode m.body) && areFilled m.body

theorem reads_docstring (lines : List String) : Reads true true (docstring lines) := by
  have hquotes : IsCode [.text .plain "\"\"\""] := isCode_words rfl rfl
  simp only [docstring]
  generalize lines.map (fun text => String.ofList (Text.Quoted.escapeTripleQuotes text.toList)) =
    texts
  split
  · exact ((hquotes.append (continues_text .remark _)).append (continues_text .plain _)).reads
  · have hline (text : String) : IsCode [.text .remark text] := isCode_name (by simp) text
    obtain ⟨code, htexts⟩ := exists_reads_flatMap fun text (_ : text ∈ texts) => (hline text).reads
    exact (hquotes.reads.append htexts).append hquotes.reads

theorem opensLine_at : Writes OpensLine (say "@") := opensLine_of_isCode (isCode_say rfl rfl)

/-- A decorator that is a member of the `pytest` module, with its arguments. -/
theorem reads_pytestDecorator (member arguments rest : String) :
    Writes (Reads true true) (say "@" ++ pytest member ++ say arguments ++ line rest) :=
  reads_append_line (opensLine_append (opensLine_append opensLine_at
    (continues_of_isCode (isCode_pytest member))) (continues_say arguments)) rest

theorem reads_skipDecorator (reason : String) :
    Writes (Reads true true) (skipDecorator s reason) := by
  unfold skipDecorator
  split
  · exact reads_pytestDecorator _ _ _
  · exact reads_append_line (opensLine_append (opensLine_append (opensLine_append opensLine_at
      (continues_piece _ _)) (continues_say _)) (continues_say _)) _

theorem reads_timeoutDecorator (millis : Nat) :
    ∃ code, Writes (Reads code true) (timeoutDecorator s (dialect s) millis) := by
  unfold timeoutDecorator
  split
  · exact ⟨_, reads_pytestDecorator _ _ _⟩
  · exact ⟨_, writes_ok (reads_comment s _)⟩

/-- Decorators are lines, of code or of comments. -/
theorem reads_decorators (m : Method) :
    ∃ code, Writes (Reads code true) (decorators s (dialect s) m) := by
  have hnothing : ∃ code, Writes (Reads code true) nothing := ⟨_, reads_nothing⟩
  unfold decorators
  split
  · next info hkind =>
    refine exists_reads_append ?disabled ?timeout
    case disabled =>
      cases info.disabled with
      | none => exact hnothing
      | some reason => exact ⟨_, reads_skipDecorator s reason⟩
    case timeout =>
      cases info.timeoutMillis with
      | none => exact hnothing
      | some n => exact reads_timeoutDecorator s n
  · split
    · exact ⟨_, reads_pytestDecorator _ _ _⟩
    · exact ⟨true, writes_refuse _ _⟩
  all_goals exact hnothing

/-- The lines of helpers are deeper than the headings above them. -/
theorem exists_wellIndented {h : Helper} {lines : List String}
    (hlines : pythonHelper? h = some lines) :
    ∃ first rest, lines = first :: rest ∧ wellIndented none (first :: rest) := by
  cases h <;> simp only [pythonHelper?, Option.some.injEq, reduceCtorEq] at hlines <;>
    subst hlines <;> exact ⟨_, _, rfl, by decide +kernel⟩

/-- The heading of a method, below its decorators. -/
def headingOf (m : Method) : Rendering :=
  say ("def " ++ m.name ++ "(") ++
    commas ((if m.isStatic then [] else [say "self"]) ++
      m.parameters.map fun p => (dialect s).reference p.name) ++ line "):"

/-- What a method holds below its heading. -/
def suiteOf (m : Method) : Rendering :=
  if m.documentation.isEmpty then suite ((dialect s).blockOf m.body)
  else .ok (docstring m.documentation) ++ (dialect s).stmts m.body

theorem whole_eq (m : Method) : (methods s).whole m =
    decorators s (dialect s) m ++ (headingOf s m ++ nest (suiteOf s m ++ freshLine)) := by
  simp only [methods, opening, closing, headingOf, suiteOf, nest_eq, append_assoc]

theorem isHeading_headingOf (m : Method) : Writes IsHeading (headingOf s m) := by
  have hnames : ∀ r ∈ (if m.isStatic then [] else [say "self"]) ++
      m.parameters.map fun p => (dialect s).reference p.name, Writes IsCode r := by
    refine List.forall_mem_append.mpr ⟨?_, List.forall_mem_map.mpr fun p _ => ?_⟩
    · split
      · simp
      · simpa using isCode_say rfl rfl
    · exact isCode_reference s p.name
  rw [headingOf, String.append_assoc]
  exact isHeading_append_line (opensHeading_append
    (writes_ok (opensHeading_word "def " (by decide) _)) (continues_commas hnames)) _ rfl

theorem reads_suiteOf (m : Method) :
    Writes (Reads (!m.documentation.isEmpty || hasCode m.body) (areFilled m.body))
      (suiteOf s m) := by
  have hbody := reads_stmts s m.body
  unfold suiteOf
  cases m.documentation.isEmpty with
  | true => exact reads_suite s hbody
  | false =>
      have hdocumented := reads_append (writes_ok (reads_docstring m.documentation)) hbody
      exact hdocumented

theorem reads_whole (m : Method) :
    Writes (Reads true ((!m.documentation.isEmpty || hasCode m.body) && areFilled m.body))
      ((methods s).whole m) := by
  obtain ⟨code, hdecorators⟩ := reads_decorators s m
  have hlines := reads_append (reads_suiteOf s m) (writes_ok reads_freshLine)
  rw [Bool.or_false, Bool.and_true] at hlines
  have hwhole := reads_append hdecorators (reads_heading (isHeading_headingOf s m) hlines)
  rw [Bool.or_true, Bool.true_and] at hwhole
  rw [whole_eq]
  exact hwhole

theorem reads_helper (h : Helper) : Writes (Reads true true) ((methods s).helper h) := by
  simp only [methods]
  split
  · next lines hlines =>
    obtain ⟨first, rest, rfl, hwell⟩ := exists_wellIndented hlines
    rw [concat_lines]
    exact writes_ok (reads_wellIndented hwell)
  · exact writes_refuse _ _

/-- A method is written as lines of code. -/
theorem reads_method (m : Method) :
    Writes (Reads true (isMethodFilled m)) ((methods s).method m) := by
  cases hkind : m.kind with
  | helper h => simpa only [MethodForms.method, isMethodFilled, hkind] using reads_helper s h
  | _ => simpa only [MethodForms.method, isMethodFilled, hkind] using reads_whole s m

/-! ## Classes and files -/

theorem reads_regionHeader (header : Option String) :
    Writes (Reads false true) ((methods s).regionHeader header) := by
  cases header with
  | none => exact reads_nothing
  | some text =>
      exact writes_ok (((trails_text .plain " ").append (trails_text .remark text)).reads_comment
        (s := "# region") (by simp) rfl)

theorem reads_regionDocumentation (lines : List String) :
    Writes (Reads false true) ((methods s).regionDocumentation lines) :=
  writes_ite reads_nothing (writes_ok (reads_comments s lines))

theorem reads_regionFooter (header : Option String) :
    Writes (Reads false true) ((methods s).regionFooter header) := by
  cases header with
  | none => exact reads_nothing
  | some text => exact writes_ok (trails_nil.reads_comment (s := "# endregion") (by simp) rfl)

theorem not_isEmpty_append {α : Type} (xs ys : List α) :
    (!(xs ++ ys).isEmpty) = (!xs.isEmpty || !ys.isEmpty) := by
  cases xs <;> rfl

mutual

/-- A region is written with a line of code when it has methods. -/
theorem reads_region : ∀ r : Region,
    Writes (Reads (!r.methods.isEmpty) (r.methods.all isMethodFilled)) ((methods s).region r)
  | .mk header documentation items => by
      have hregion := reads_append (reads_append (reads_append (reads_regionHeader s header)
        (reads_regionDocumentation s documentation)) (reads_items header.isSome items))
        (reads_regionFooter s header)
      simpa only [MethodForms.region, Region.methods, Bool.false_or, Bool.or_false, Bool.true_and,
        Bool.and_true] using hregion

theorem reads_items (apart : Bool) : ∀ items : List RegionItem,
    Writes (Reads (!(Region.methodsOf items).isEmpty)
      ((Region.methodsOf items).all isMethodFilled)) ((methods s).items apart items)
  | [] => reads_nothing
  | .region r :: rest => by
      have hapart : Writes (Reads false true) (if apart then newline else nothing) :=
        writes_ite writes_newline reads_nothing
      have hitems := reads_append (reads_append hapart (reads_region r)) (reads_items true rest)
      simpa only [MethodForms.items, Region.methodsOf, not_isEmpty_append, List.all_append,
        Bool.false_or, Bool.true_and] using hitems
  | .method m :: rest => by
      have hapart : Writes (Reads false true) (if apart then newline else nothing) :=
        writes_ite writes_newline reads_nothing
      have hitems := reads_append (reads_append hapart (reads_method s m)) (reads_items true rest)
      simpa only [MethodForms.items, Region.methodsOf, List.isEmpty_cons, List.all_cons,
        Bool.or_true, Bool.true_or, Bool.not_false, Bool.true_and] using hitems

end

/-- The regions of a class are written with a line of code when there are methods in them. -/
theorem reads_regions (rs : List Region) :
    Writes (Reads (!(rs.flatMap Region.methods).isEmpty)
      ((rs.flatMap Region.methods).all isMethodFilled)) ((methods s).regions rs) := by
  rw [← Region.flatMap_methods_inhabited, MethodForms.regions]
  generalize MethodForms.inhabited rs = rs
  induction rs with
  | nil => exact reads_nothing
  | cons r rest ih =>
      cases rest with
      | nil => simpa [separated] using reads_region s r
      | cons r' rest' =>
          have hregions := reads_append (reads_append (reads_region s r) writes_newline) ih
          simpa only [List.map_cons, separated, List.flatMap_cons, not_isEmpty_append,
            List.all_append, Bool.or_false, Bool.and_true] using hregions

/-- Whether the heading of a class has a line of code below it: documentation, a method, or `pass`
when no region has members. -/
def isClassFilled (c : TestClass) : Bool :=
  !c.documentation.isEmpty || (MethodForms.inhabited c.regions).isEmpty ||
    !(c.regions.flatMap Region.methods).isEmpty

theorem isHeading_class (c : TestClass) : Writes IsHeading (say ("class " ++ c.id.name) ++
    match c.superclass with
    | some superclass => say "(" ++ .ok ((methods s).dialect.className superclass) ++ line "):"
    | none => line ":") := by
  have hopening : Writes OpensHeading (say ("class " ++ c.id.name)) :=
    writes_ok (opensHeading_word "class " (by decide) _)
  cases c.superclass with
  | none => exact isHeading_append_line hopening ":" rfl
  | some superclass =>
      dsimp only
      rw [← append_assoc]
      exact isHeading_append_line (opensHeading_append hopening (continues_append (continues_say _)
        (continues_of_isCode (isCode_className s superclass)))) "):" rfl

/-- A class is written as lines of code. -/
theorem reads_testClass (c : TestClass) :
    Writes (Reads true (isClassFilled c && (c.regions.flatMap Region.methods).all isMethodFilled))
      (testClass (methods s) c) := by
  have hregions := reads_regions s c.regions
  refine reads_heading (isHeading_class s c) ?_
  have hintro : Writes
      (Reads (!c.documentation.isEmpty || (MethodForms.inhabited c.regions).isEmpty) true)
      (if !c.documentation.isEmpty then
        .ok (docstring c.documentation) ++
          (if !(MethodForms.inhabited c.regions).isEmpty then newline else nothing)
      else if !(MethodForms.inhabited c.regions).isEmpty then nothing
      else line "pass") := by
    cases c.documentation.isEmpty with
    | false =>
        have hlines := reads_append (writes_ok (reads_docstring c.documentation))
          (writes_ite (c := (!(MethodForms.inhabited c.regions).isEmpty) = true)
            writes_newline reads_nothing)
        exact hlines
    | true =>
        cases (MethodForms.inhabited c.regions).isEmpty with
        | false => exact reads_nothing
        | true => exact reads_line rfl rfl
  have hclass := reads_append hintro hregions
  rwa [Bool.true_and] at hclass

theorem reads_gap (d : Doc) : Reads false true (gap d) := by
  unfold gap
  split
  · exact reads_nil
  · exact reads_newline.append reads_newline

theorem isCode_importLine {text : String} {imports : List Import}
    (h : text ∈ importLines imports) : IsCode [.text .plain text] := by
  have himport (rest : String) : IsCode [.text .plain ("import " ++ rest)] :=
    isCode_words (by simp [startsCode, unindented])
      (by simp [startsHeading, unindented, headingWords, List.isPrefixOf])
  have hfrom (rest : String) : IsCode [.text .plain ("from " ++ rest)] :=
    isCode_words (by simp [startsCode, unindented])
      (by simp [startsHeading, unindented, headingWords, List.isPrefixOf])
  rcases List.mem_append.mp h with h | h
  · obtain ⟨i, -, hi⟩ := List.mem_filterMap.mp h
    cases i with
    | member owner name => cases hi
    | regular path binding =>
        cases hi
        split
        · exact himport _
        · rw [String.append_assoc, String.append_assoc]
          exact himport _
  · obtain ⟨⟨owner, names⟩, -, rfl⟩ := List.mem_map.mp h
    dsimp only
    rw [String.append_assoc, String.append_assoc]
    exact hfrom _

theorem reads_imports (f : SourceFile) : ∃ code, Reads code true (importsDoc f) :=
  exists_reads_flatMap fun _ htext => (isCode_importLine htext).reads

theorem reads_statics (f : SourceFile) :
    ∃ code, Writes (Reads code (f.testClass.statics.methods.all isMethodFilled))
      (staticsDoc s f) := by
  unfold staticsDoc
  split
  · next h => 
    rw [f.testClass.statics.methods_eq_nil h]
    exact ⟨_, reads_nothing⟩
  · have hstatics := reads_append (writes_ok (reads_gap (importsDoc f)))
      (reads_region s f.testClass.statics)
    rw [Bool.true_and] at hstatics
    exact ⟨_, hstatics⟩

/-- A file is written as lines of code. -/
theorem reads_file (f : SourceFile) :
    Writes (Reads true (isClassFilled f.testClass && f.testClass.methods.all isMethodFilled))
      (file s f) := by
  intro d hd
  cases hstatics : staticsDoc s f with
  | error e =>
      rw [file_eq_of_error hstatics] at hd
      cases hd
  | ok x =>
      obtain ⟨code, himports⟩ := reads_imports f
      obtain ⟨code', hx⟩ := reads_statics s f
      have hfile := reads_append (writes_ok ((himports.append (hx x hstatics)).append
        (reads_gap (importsDoc f ++ x)))) (reads_testClass s f.testClass)
      rw [file_eq_of_ok hstatics] at hd
      have hread := hfile d hd
      have hfilled : (true && f.testClass.statics.methods.all isMethodFilled && true &&
          (isClassFilled f.testClass &&
            (f.testClass.regions.flatMap Region.methods).all isMethodFilled)) =
          (isClassFilled f.testClass && f.testClass.methods.all isMethodFilled) := by
        rw [TestClass.methods, List.all_append, Bool.true_and, Bool.and_true, Bool.and_left_comm,
          Bool.and_comm (List.all _ _)]
      rwa [Bool.or_true, hfilled] at hread

/-- In a file that is written, each heading comes to its end and has a deeper line of code below it
exactly when the class has one below its heading, and every method and suite in it.  The pieces of
the document are read: the text of a comment is one piece, also where it holds line ends, and not
the lines that it would be in the file. -/
theorem suites_have_bodies_iff {settings : Settings} {f : SourceFile} {d : Doc}
    (hlanguage : settings.language = .python) (h : fileDoc settings f = .ok d) :
    SuitesFilled d ↔
      isClassFilled f.testClass = true ∧ ∀ m ∈ f.testClass.methods, isMethodFilled m = true := by
  have hfile : fileDoc settings f = file (.ofFile settings f) f := by rw [fileDoc, hlanguage]; rfl
  rw [hfile] at h
  rw [suitesFilled_iff (reads_file _ f d h), Bool.and_eq_true, List.all_eq_true]

/-- A test with a condition, in which there is only a switch without cases. -/
def bareSwitchFile : SourceFile :=
  let body : List Stmt :=
    [.branch (.literal (.bool true)) [.switch (.literal (.int 1)) [] []] []]
  let m : Method := ⟨"test_put", .errorReport ⟨.global "Store", "put", [], .void, .staticMethod⟩,
    [], .void, [], body, false⟩
  ⟨none, [], ⟨.global "StoreTest", .test, [], [], none, [], [.mk none [] [.method m]], .empty⟩⟩

/-- The switch writes nothing, so that the condition is left without a line below its heading. -/
theorem suites_have_bodies_iff_bareSwitch :
    ∃ d, fileDoc (.forLanguage .python) bareSwitchFile = .ok d ∧ ¬SuitesFilled d := by
  obtain ⟨d, hd⟩ : ∃ d, fileDoc (.forLanguage .python) bareSwitchFile = .ok d := ⟨_, rfl⟩
  exact ⟨d, hd, (not_congr (suites_have_bodies_iff rfl hd)).mpr (by decide)⟩

end TestWriter.Target.Python
