import TestWriter.Proofs.Enclosure
import TestWriter.Proofs.ImportCoverage

/-!
# The text of comments

A generated text is made of passages: code, which holds no text that is meant for a comment, and
remarks.  Main statement: a remark of a generated text is enclosed in its comment if and only if its
texts fit, so a line end in a text behind a mark, and an end of a comment in a text between slashes
with stars, are what lets the text of a comment out.
-/

namespace TestWriter

open Layout

/-! ## Passages -/

namespace Target

/-- A stretch of a document. -/
inductive Passage
  | code (steps : Doc)
  | comment (r : Remark)

namespace Passage

variable {l : Language}

/-- How a passage is written. -/
def doc : Passage → Doc
  | .code steps => steps
  | .comment r => r.doc

/-- Code holds no text that is meant for a comment, and a comment is a remark of the language. -/
def IsOf (l : Language) : Passage → Prop
  | .code steps => ∀ s, .text .remark s ∉ steps
  | .comment r => r.IsOf l

/-- A document is made of passages. -/
def Makes (l : Language) (d : Doc) : Prop :=
  ∃ ps : List Passage, d = ps.flatMap doc ∧ ∀ p ∈ ps, p.IsOf l

theorem Makes.single {p : Passage} (h : p.IsOf l) : Makes l p.doc :=
  ⟨[p], by simp, by simpa using h⟩

theorem makes_of_role {role : Role} (s : String) (h : role ≠ .remark) : Makes l [.text role s] := by
  refine Makes.single (p := .code [.text role s]) fun text hmem => ?_
  cases List.mem_singleton.mp hmem
  exact h rfl

/-- The demand that a document is made of passages. -/
def made (l : Language) : Demand where
  meets := Makes l
  nil := ⟨[], rfl, by simp⟩
  append := by
    rintro _ _ ⟨ps, rfl, hps⟩ ⟨qs, rfl, hqs⟩
    refine ⟨ps ++ qs, by simp, ?_⟩
    exact List.forall_mem_append.mpr ⟨hps, hqs⟩
  space step hstep := by
    refine Makes.single (p := .code [step]) fun text hmem => ?_
    exact hstep _ _ (List.mem_singleton.mp hmem).symm
  plain s := makes_of_role s (by simp)
  identifier name s := makes_of_role s (by simp)
  lines role s hrole _ part _ := makes_of_role _ hrole

theorem holds_made {role : Role} (s : String) (h : role ≠ .remark) : (made l).holds role s :=
  makes_of_role s h

theorem takesRemarks_made (l : Language) : (made l).TakesRemarks l :=
  fun r hr => Makes.single (p := .comment r) hr

/-! ## Files are made of passages -/

variable {s : Surroundings}

theorem jvmNames_made (l : Language) (implicitPackage : String) :
    JvmNames (made l) (fun _ => True) s l implicitPackage where
  remarks := takesRemarks_made l
  className _ := holds_made _ (by simp)
  staticMember _ _ _ _ := holds_made _ (by simp)
  assertion _ _ := holds_made _ (by simp)
  mocking _ _ _ := holds_made _ (by simp)
  helper _ _ _ := holds_made _ (by simp)

theorem scriptNames_made {className : ClassName → Doc}
    (hclass : ∀ c, Doc.Obeys (made l) (className c)) :
    ScriptNames (made l) (fun _ => True) l className where
  remarks := takesRemarks_made l
  ofClass c _ := hclass c
  function _ _ _ _ := holds_made _ (by simp)
  helper _ _ _ := holds_made _ (by simp)

theorem obeys_className_of_python (c : ClassName) :
    Doc.Obeys (made l) (Python.className s c) := by
  have hclass : Doc.Obeys (made l) [.text (.ofClass c) c.name] := holds_made _ (by simp)
  simp only [Python.className]
  split
  · exact hclass
  · split
    · exact Doc.obeys_cons (holds_made _ (by simp))
        (Doc.obeys_cons (Doc.obeys_plain _) (Doc.obeys_plain _))
    · exact hclass

theorem goNames_made : Go.Names (made .go) (fun _ => True) s where
  remarks := takesRemarks_made .go
  ofClass _ _ := holds_made _ (by simp)
  function _ _ _ := holds_made _ (by simp)
  staticMember _ _ _ := holds_made _ (by simp)
  helper _ _ _ := holds_made _ (by simp)
  qualifier c _ := by
    simp only [Go.qualifier]
    split
    · exact Doc.obeys_nil
    · exact Doc.obeys_cons (holds_made _ (by simp)) (Doc.obeys_plain _)
  math _ := holds_made _ (by simp)
  assert _ _ := holds_made _ (by simp)
  testing := holds_made _ (by simp)

end Passage

/-- A file is made of passages. -/
theorem fileDoc_made {settings : Settings} {f : SourceFile}
    (hfinite : ∀ m ∈ f.testClass.methods,
      ∀ l ∈ Stmt.bareLiteralsOf m.body, l.isNonFinite = false) :
    (fileDoc settings f).Obeys (Passage.made settings.language) := by
  cases hlanguage : settings.language with
  | java =>
      simp only [fileDoc, hlanguage]
      exact Java.obeys_file (Passage.jvmNames_made _ _) (fun _ _ => trivial) fun _ _ _ _ => trivial
  | kotlin =>
      simp only [fileDoc, hlanguage]
      exact Kotlin.obeys_file (Passage.jvmNames_made _ _)
        (fun _ _ _ _ => Passage.holds_made _ (by simp)) (fun _ _ => trivial) fun _ _ _ _ => trivial
  | javascript =>
      simp only [fileDoc, hlanguage]
      exact JavaScript.obeys_file
        (Passage.scriptNames_made fun c => Passage.holds_made _ (by simp))
        (Passage.holds_made _ (by simp)) fun _ _ _ _ => trivial
  | python =>
      simp only [fileDoc, hlanguage]
      exact Python.obeys_file (Passage.scriptNames_made Passage.obeys_className_of_python)
        (fun _ => Passage.holds_made _ (by simp)) (fun _ => Passage.holds_made _ (by simp))
        (fun superclass _ => Passage.obeys_className_of_python superclass) fun _ _ _ _ => trivial
  | go =>
      simp only [fileDoc, hlanguage]
      exact Go.obeys_file Passage.goNames_made (fun _ _ _ _ => trivial) hfinite

/-! ## Texts of passages -/

/-- The indentation of each language is blank. -/
theorem isBlank_tab (s : Surroundings) :
    ∀ ch ∈ s.methodForms.dialect.tab.toList, Text.isBlank ch = true := by
  have htab : s.methodForms.dialect.tab = "    " ∨ s.methodForms.dialect.tab = "\t" := by
    simp only [Surroundings.methodForms]
    cases s.settings.language with
    | go => exact Or.inr rfl
    | _ => exact Or.inl rfl
  rcases htab with h | h <;> simp [h, Text.isBlank]

namespace Passage

/-- Some passages, each with the text that it adds behind those before it. -/
def written (tab : String) (c : Cursor) : List Passage → List (Passage × String)
  | [] => []
  | p :: rest => (p, c.added tab p.doc) :: written tab (c.run tab p.doc) rest

/-- The passages of a file with the texts that they add. -/
def inFile (s : Surroundings) (ps : List Passage) : List (Passage × String) :=
  written s.methodForms.dialect.tab .start ps

variable {tab : String}

/-- The text of a document is what its passages add. -/
theorem text_run_flatMap (c : Cursor) (ps : List Passage) :
    (c.run tab (ps.flatMap doc)).text =
      c.text ++ String.join ((written tab c ps).map Prod.snd) := by
  induction ps generalizing c with
  | nil => simp [Cursor.run, written]
  | cons p rest ih =>
      rw [List.flatMap_cons, Cursor.run_append, ih, Cursor.text_run, written, List.map_cons,
        String.join_cons, String.append_assoc]

theorem exists_mem_written {c : Cursor} {ps : List Passage} {p : Passage} (h : p ∈ ps) :
    ∃ added, (p, added) ∈ written tab c ps := by
  induction ps generalizing c with
  | nil => cases h
  | cons q rest ih =>
      rcases List.mem_cons.mp h with rfl | h
      · exact ⟨_, List.mem_cons_self⟩
      · obtain ⟨added, hadded⟩ := ih (c := c.run tab q.doc) h
        exact ⟨added, List.mem_cons_of_mem _ hadded⟩

/-- A text that is meant for a comment stands in a remark. -/
theorem exists_comment_of_mem {l : Language} {ps : List Passage} (hps : ∀ p ∈ ps, p.IsOf l)
    {s : String} (h : .text .remark s ∈ ps.flatMap doc) :
    ∃ r, .comment r ∈ ps ∧ .text .remark s ∈ r.doc := by
  obtain ⟨p, hp, hs⟩ := List.mem_flatMap.mp h
  cases p with
  | code steps => exact absurd hs (hps _ hp s)
  | comment r => exact ⟨r, hp, hs⟩

/-- Each comment of some passages is enclosed if and only if its texts fit. -/
theorem isEnclosed_iff_of_mem_written {l : Language}
    (htab : ∀ ch ∈ tab.toList, Text.isBlank ch = true) {c : Cursor} {ps : List Passage}
    (hps : ∀ p ∈ ps, p.IsOf l) {r : Remark} {added : String}
    (h : (.comment r, added) ∈ written tab c ps) : r.IsEnclosed l added ↔ r.Fits l := by
  induction ps generalizing c with
  | nil => cases h
  | cons p rest ih =>
      rcases List.mem_cons.mp h with h | h
      · cases h
        exact Remark.isEnclosed_iff_fits htab (hps _ List.mem_cons_self) c
      · exact ih (fun q hq => hps q (List.mem_cons_of_mem _ hq)) h

end Passage

end Target

/-! ## Generated texts -/

/-- A generated text is made of code, which holds no text meant for a comment, and of comments, and
a comment ends where its text ends if and only if its texts fit. -/
theorem comment_is_enclosed_iff_texts_fit {cut : ClassName} {config : Config} {gen : Generator}
    {sets : List TestSet} {className : Option String} {out : GeneratedTests}
    (hnew : Generator.new cut config = .ok gen) (hout : gen.generate sets className = .ok out) :
    ∃ c d ps, (gen.base.derive className true).construct sets = .ok c ∧
      Target.fileDoc c.generation.settings c.file = .ok d ∧
      d = ps.flatMap Target.Passage.doc ∧ (∀ p ∈ ps, p.IsOf config.language) ∧
      out.code = String.join ((Target.Passage.inFile (.ofFile c.generation.settings c.file)
        ps).map Prod.snd) ∧
      ∀ r added, (.comment r, added) ∈
          Target.Passage.inFile (.ofFile c.generation.settings c.file) ps →
        (r.IsEnclosed config.language added ↔ r.Fits config.language) := by
  obtain ⟨c, d, hconstruct, hfollows, hdoc, hcode⟩ := Generator.exists_doc_of_generate_ok hout
  obtain ⟨rfl, -⟩ := Generator.eq_of_new_ok hnew
  have hlanguage : c.generation.settings.language = config.language := hfollows.language_eq
  obtain ⟨ps, hps, hof⟩ : Target.Passage.Makes config.language d := by
    rw [← hlanguage]
    exact Target.fileDoc_made (fun m hm => (hfollows.methods m hm).finite) d hdoc
  subst hps
  refine ⟨c, _, ps, hconstruct, hdoc, rfl, hof, ?_, ?_⟩
  · rw [hcode, Doc.toText, Target.Passage.text_run_flatMap, Cursor.start, String.empty_append]
    rfl
  · intro r added h
    exact Target.Passage.isEnclosed_iff_of_mem_written (Target.isBlank_tab _) hof h

/-- Kotlin and TestNG with helpers in a class of their own. -/
def testngWithHelperClass : Config :=
  { Config.forLanguage .kotlin with separateHelperClass := true, framework := .testng }

/-- A run that crashes, for a reason of two lines. -/
def brokenReason : List TestSet :=
  [⟨⟨⟨"", "calc"⟩, "run", [], .void, .function⟩, [.ofArguments [] (.crash "exit code 3\nhalt()")],
    [], .empty⟩]

/-- The comment on the crash ends with the first line of the reason. -/
theorem comment_is_enclosed_iff_texts_fit_brokenReason :
    ∃ gen out, Generator.new ⟨"", "calc"⟩ testngWithHelperClass = .ok gen ∧
      gen.generate brokenReason none = .ok out ∧
      ∃ c ps r added, (gen.base.derive none true).construct brokenReason = .ok c ∧
        out.code = String.join ((Target.Passage.inFile (.ofFile c.generation.settings c.file)
          ps).map Prod.snd) ∧
        (.comment r, added) ∈ Target.Passage.inFile (.ofFile c.generation.settings c.file) ps ∧
        .text .remark
          "This invocation possibly crashes the test process: exit code 3\nhalt()" ∈ r.doc ∧
        ¬r.IsEnclosed .kotlin added := by
  have hnew : Generator.new ⟨"", "calc"⟩ testngWithHelperClass =
      .ok ⟨.new ⟨"", "calc"⟩ testngWithHelperClass⟩ := rfl
  have hok : ((⟨.new ⟨"", "calc"⟩ testngWithHelperClass⟩ : Generator).generate brokenReason
      none).isOk = true := by decide +kernel
  obtain ⟨out, hout⟩ := exists_of_isOk hok
  obtain ⟨c, d, ps, hc, hd, rfl, hof, hcode, hiff⟩ := comment_is_enclosed_iff_texts_fit hnew hout
  have hrun : (((Generation.new ⟨"", "calc"⟩ testngWithHelperClass).derive none
      true).construct brokenReason).toOption.any (fun c =>
        (Target.fileDoc c.generation.settings c.file).toOption.any fun d =>
          .text .remark
            "This invocation possibly crashes the test process: exit code 3\nhalt()" ∈ d ∧
          .text .plain "/*" ∉ d ∧ .text .plain "/**" ∉ d) = true := by
    decide +kernel
  obtain ⟨c', d, hc', hd', hcheck⟩ := Generation.exists_doc_of_check hrun
  obtain rfl : c = c' := Except.ok.inj (hc.symm.trans hc')
  obtain rfl : _ = d := Except.ok.inj (hd.symm.trans hd')
  obtain ⟨hreason, hstar, hstars⟩ := of_decide_eq_true hcheck
  obtain ⟨r, hr, htext⟩ := Target.Passage.exists_comment_of_mem hof hreason
  obtain ⟨added, hadded⟩ := Target.Passage.exists_mem_written hr
  refine ⟨_, out, hnew, hout, c, ps, r, added, hc, hcode, hadded, htext, ?_⟩
  refine mt (hiff r added hadded).mp ?_
  have hdoc : ∀ step ∈ r.doc, step ∈ ps.flatMap Target.Passage.doc :=
    fun step hstep => List.mem_flatMap.mpr ⟨_, hr, hstep⟩
  cases r with
  | marked mark text =>
      intro hfits
      have hmem : '\n' ∈ text.toList := by
        obtain rfl : _ = text := by simpa [Target.Remark.doc] using htext
        simp
      exact absurd (hfits _ hmem) (by decide)
  | starred documents texts =>
      cases documents with
      | true => exact absurd (hdoc _ List.mem_cons_self) hstars
      | false => exact absurd (hdoc _ List.mem_cons_self) hstar
  | quoted texts => cases hof _ hr

end TestWriter
