import TestWriter.Proofs.Indentation
import TestWriter.Target.Render

/-!
# Files come back to their level

A method opens a level and closes it again, and what stands in between is level.  Main statements:
the forms of the five dialects are level when their parts are, and every expression, statement,
method, region and file that is written leaves the level as it was, ends its last line and takes no
level away at level zero.
-/

namespace TestWriter.Target

open Layout Rendering

variable {rs : List Rendering}

/-! ## Comments -/

theorem moves_marked (mark : String) (lines : List String) :
    Doc.Moves 0 0 (lines.flatMap fun text =>
      if text.isEmpty then [.text .plain mark, .newline]
      else [.text .plain mark, .text .plain " ", .text .remark text, .newline]) := by
  refine Doc.moves_flatMap fun text _ => ?_
  split
  · exact Doc.moves_line _ _
  · exact Doc.Level.moves (d := [.text .plain mark, .text .plain " ", .text .remark text])
      fun _ => rfl

theorem moves_starComment (opening : String) (lines : List String) :
    (starComment opening lines).Moves 0 0 := by
  refine ((Doc.moves_line _ _).append (Doc.moves_flatMap fun text _ => ?_)).append
    (Doc.moves_line _ _)
  split
  · exact Doc.moves_line _ _
  · exact Doc.Level.moves (d := [.text .plain " * ", .text .remark text]) fun _ => rfl

@[grind ←] theorem lines_bracedBranch {f : Block → Rendering} {lead : Rendering} {b b' : Block}
    (hlead : lead.Level) (hb : (f b).Level) (hb' : (f b').Level) :
    (bracedBranch f lead b b').Lines := by
  refine lines_append_line (level_append (level_append hlead hb) ?_) _
  exact level_ite level_nothing (level_append (level_line _) hb')

theorem lines_lines (texts : List String) : (concat (texts.map line)).Lines :=
  lines_concat_map fun text _ => lines_line text

/-! ## Methods and regions -/

section Methods

variable {d : Dialect} {opening closing : Method → Rendering} {m : Method}

/-- A method whose head opens the level that its end closes consists of lines. -/
theorem lines_documentedAbove (hd : d.IsLevel) (hopening : (opening m).Moves 0 1)
    (hclosing : (closing m).Moves 1 0) : (documentedAbove d opening closing m).Lines := by
  have hdocumentation : Lines (if m.documentation.isEmpty then nothing
      else .ok (d.documentation m.documentation)) :=
    lines_ite lines_nothing (lines_ok (hd.documentation _))
  exact ((Moves.append hdocumentation hopening).append ((d.lines_stmts hd m.body).deeper 1)).append
    hclosing

/-- The dialect of a target is level, and its methods consist of lines. -/
structure MethodForms.IsLevel (f : MethodForms) : Prop where
  dialect : f.dialect.IsLevel
  helper : ∀ h, (f.helper h).Lines
  whole : ∀ m, (f.whole m).Lines

namespace MethodForms

variable {f : MethodForms}

theorem lines_method (hf : f.IsLevel) (m : Method) : (f.method m).Lines := by
  unfold method
  split
  · exact hf.helper _
  · exact hf.whole m

theorem lines_regionHeader (header : Option String) : (f.regionHeader header).Lines := by
  cases header with
  | none => exact lines_nothing
  | some text =>
      exact lines_append_newline (level_append (level_append (level_say _) (level_say _))
        (level_piece _ _))

theorem lines_regionDocumentation (hf : f.IsLevel) (lines : List String) :
    (f.regionDocumentation lines).Lines :=
  lines_ite lines_nothing (lines_ok (hf.dialect.comments lines))

theorem lines_regionFooter (header : Option String) : (f.regionFooter header).Lines := by
  cases header with
  | none => exact lines_nothing
  | some text => exact lines_line _

mutual

/-- A region consists of lines. -/
theorem lines_region (hf : f.IsLevel) : ∀ r : Region, (f.region r).Lines
  | .mk header documentation items =>
      (((lines_regionHeader header).append (lines_regionDocumentation hf documentation)).append
        (lines_items hf header.isSome items)).append (lines_regionFooter header)

theorem lines_items (hf : f.IsLevel) (apart : Bool) :
    ∀ items : List RegionItem, (f.items apart items).Lines
  | [] => lines_nothing
  | .region r :: rest =>
      ((lines_ite lines_newline lines_nothing).append (lines_region hf r)).append
        (lines_items hf true rest)
  | .method m :: rest =>
      ((lines_ite lines_newline lines_nothing).append (lines_method hf m)).append
        (lines_items hf true rest)

end

theorem lines_regions (hf : f.IsLevel) (rs : List Region) : (f.regions rs).Lines := by
  refine lines_separated lines_newline fun r hr => ?_
  obtain ⟨region, -, rfl⟩ := List.mem_map.mp hr
  exact lines_region hf region

end MethodForms

end Methods

/-! ## Java -/

theorem lines_jvmAnnotations {d : Dialect} (hd : d.IsLevel) (hclass : ∀ c, (d.className c).Level)
    (suffix : String) (annotations : List AnnotationUse) :
    (jvmAnnotations d suffix annotations).Lines := by
  refine lines_concat_map fun a _ => ?_
  refine lines_append_newline (level_append (level_append (level_say _) (level_ok (hclass _))) ?_)
  refine level_ite level_nothing ?_
  refine level_append (level_append (level_say _) (level_commas_map ?_)) (level_say _)
  rintro ⟨name, e⟩ -
  cases name
  case' some name => refine level_append (level_say _) ?_
  all_goals
    dsimp only
    split
    · exact level_append (level_ok (hclass _)) (level_say _)
    · exact d.level_expr hd _

@[grind ←] theorem lines_importGroup (lines : List String) : (Java.importGroup lines).Lines :=
  lines_ite lines_nothing ((lines_lines lines).append lines_newline)

namespace Java

@[grind ←] theorem level_className (s : Surroundings) (c : ClassName) : (className s c).Level :=
  Doc.level_text _ _

@[grind ←] theorem level_typeName (s : Surroundings) (t : DataType) : (typeName s t).Level := by
  induction t with
  | array element ih => exact ih.append (Doc.level_text _ _)
  | _ => exact Doc.level_text _ _

@[grind ←] theorem level_assertion (s : Surroundings) (name : String) : (assertion s name).Level :=
  level_piece _ _

@[grind ←] theorem level_mockMember (name : String) : (mockMember name).Level := level_piece _ _

@[grind ←] theorem level_call (method : String) (h : ∀ r ∈ rs, r.Level) :
    (call method rs).Level :=
  level_append (level_append (level_say _) (level_commas h)) (level_say _)

@[grind ←] theorem level_callStatic (s : Surroundings) (owner : ClassName) (method : String)
    (h : ∀ r ∈ rs, r.Level) : (callStatic s owner method rs).Level := by
  unfold callStatic
  split <;> grind

@[grind ←] theorem level_lambda {names : Rendering} {b : Block} (arrow : String)
    (hnames : names.Level) (hb : b.Lines) : (lambda names arrow b).Level := by
  unfold lambda
  split
  · next e hsole =>
    have he := hb.sole e hsole
    grind
  · grind

/-- The forms of Java are level. -/
theorem dialect_isLevel (s : Surroundings) : (dialect s).IsLevel where
  literal l := Doc.level_text _ _
  comments := moves_starComment _
  documentation := moves_starComment _
  construct owner rs hrs := by simp only [dialect]; grind
  callOn receiver r method rs hr hrs := by simp only [dialect]; grind
  callStatic owner method rs hrs := by simp only [dialect]; grind
  callModule module method rs hrs := by simp only [dialect]; grind
  staticField owner name := by simp only [dialect]; grind
  allocate element size := by simp only [dialect]; grind
  arrayOf element onLines rs hrs := by simp only [dialect]; grind
  lambda ps b hb := by simp only [dialect]; grind
  equal r e r' hr hr' := by simp only [dialect]; grind
  cast type r hr := by simp only [dialect]; grind
  notNull r _ := by simp only [dialect]; grind
  classOf owner := by simp only [dialect]; grind
  length r hr := by simp only [dialect]; grind
  mock owner := by simp only [dialect]; grind
  declare name type isMutable initial hinitial := by simp only [dialect]; grind
  branch r b b' hr hb hb' := by simp only [dialect]; grind
  switch r cases b hr hcases hb := by
    have hlabelled : ∀ c ∈ cases, Rendering.Level (say "case " ++ say (literal c.1) ++ line ":" ++
        nest (c.2.content ++ line "break;")) := by
      intro c hc
      have hcontent := (hcases c hc).content
      grind
    simp only [dialect]
    grind
  throw r hr := by simp only [dialect]; grind
  mockedStatic handle owner forms r hforms hr := by
    have hstubbing : ∀ form ∈ forms, Rendering.Level (piece (.identifier handle) handle ++
        say ".when(() -> " ++ .ok (className s owner) ++ say "." ++
          call form.method form.arguments ++ say ").thenReturn(" ++ form.returns ++ say ")" ++
          line words.ending) := by
      intro form hform
      have hparts := hforms form hform
      grind
    simp only [dialect]
    grind
  stub r form hr hform := by simp only [dialect]; grind
  assertEquals r r' delta deep hr hr' := by simp only [dialect, equalityArguments]; grind
  assertTrue r hr := by simp only [dialect]; grind
  assertNull r hr := by simp only [dialect]; grind
  assertThrows r b hr hb := by simp only [dialect]; grind
  fail message := by simp only [dialect]; grind

/-- A parameter list is level. -/
theorem level_parameters {d : Dialect} (htype : ∀ t, (d.typeName t).Level) (ps : List Parameter) :
    (commas (ps.map (parameter d))).Level :=
  level_commas_map fun p _ =>
    level_append (level_append (htype p.type) (level_say _)) (d.level_reference p.name)

theorem moves_closing (m : Method) : (closing m).Moves 1 0 :=
  Moves.append (moves_ok Doc.moves_dedent) (lines_line _)

theorem moves_opening (s : Surroundings) (m : Method) : (opening s (dialect s) m).Moves 0 1 := by
  have hannotations := lines_jvmAnnotations (dialect_isLevel s) (level_className s) ".class"
    (methodAnnotations s.settings.framework m)
  have htype : ∀ t, ((dialect s).typeName t).Level := fun t => level_ok (level_typeName s t)
  have hparameters := level_parameters htype m.parameters
  have hlines : ∀ start, Rendering.Level start → Rendering.Lines (start ++ (say (m.name ++ "(") ++
      commas (m.parameters.map (parameter (dialect s))) ++ line r") throws Throwable {")) := by
    intro start hstart
    rw [← append_assoc]
    exact lines_append_line (level_append hstart (level_append (level_say _) hparameters)) _
  refine Moves.append (hannotations.append ?_) (moves_ok Doc.moves_indent)
  split
  · exact hlines _ (level_append (level_append (level_say _) (htype _)) (level_say _))
  · exact hlines _ (level_say _)

/-- The methods of Java consist of lines. -/
theorem methods_isLevel (s : Surroundings) : (methods s).IsLevel where
  dialect := dialect_isLevel s
  helper _ := lines_lines _
  whole m := lines_documentedAbove (dialect_isLevel s) (moves_opening s m) (moves_closing m)

/-- A file in Java consists of lines. -/
theorem lines_file (s : Surroundings) (f : SourceFile) : (file s f).Lines := by
  have hforms := methods_isLevel s
  have hdocumentation := lines_ok (hforms.dialect.documentation f.testClass.documentation)
  have hannotations := lines_jvmAnnotations hforms.dialect (level_className s) ".class"
    f.testClass.annotations
  have hregions := (methods s).lines_regions hforms (f.testClass.regions ++ [f.testClass.statics])
  have hclass : ∀ c, Rendering.Level (.ok ((methods s).dialect.className c)) :=
    fun c => level_ok (level_className s c)
  refine lines_append_line (level_append (level_append (level_append (level_append (level_append
    (level_append (level_append (level_append (level_append ?package (lines_importGroup _).level)
      (lines_importGroup _).level) ?documentation) hannotations.level)
      (level_say _)) ?superclass) ?interfaces) (level_line _)) (level_nest hregions.level)) _
  case package => grind
  case documentation => exact level_ite level_nothing hdocumentation.level
  case superclass => grind
  case interfaces => grind

end Java

/-! ## Kotlin -/

namespace Kotlin

@[grind ←] theorem level_className (s : Surroundings) (c : ClassName) : (className s c).Level :=
  Doc.level_text _ _

@[grind ←] theorem level_nullMark (t : DataType) : (nullMark t).Level := by
  unfold nullMark
  split
  · exact Doc.level_text _ _
  · exact Doc.level_nil

@[grind ←] theorem level_unmarkedType (s : Surroundings) (t : DataType) :
    (unmarkedType s t).Level := by
  induction t with
  | array element ih =>
      have hmarked := (((Doc.level_text .plain "Array<").append ih).append
        (level_nullMark element)).append (Doc.level_text .plain ">")
      cases element with
      | primitive p => exact (Doc.level_text _ _).append (Doc.level_text _ _)
      | _ => exact hmarked
  | _ => exact Doc.level_text _ _

@[grind ←] theorem level_typeName (s : Surroundings) (t : DataType) : (typeName s t).Level :=
  (level_unmarkedType s t).append (level_nullMark t)

@[grind ←] theorem level_call (method : String) (h : ∀ r ∈ rs, r.Level) :
    (call method rs).Level :=
  level_append (level_append (level_append (level_say _) (level_say _)) (level_commas h))
    (level_say _)

/-- The forms of Kotlin are level. -/
theorem dialect_isLevel (s : Surroundings) : (dialect s).IsLevel where
  literal l := Doc.level_text _ _
  comments := moves_starComment _
  documentation := moves_starComment _
  construct owner rs hrs := by simp only [dialect]; grind
  callOn receiver r method rs hr hrs := by simp only [dialect]; grind
  callStatic owner method rs hrs := by simp only [dialect]; grind
  callModule module method rs hrs := by simp only [dialect]; grind
  staticField owner name := by simp only [dialect]; grind
  allocate element size := by simp only [dialect]; grind
  arrayOf element onLines rs hrs := by simp only [dialect]; grind
  lambda ps b hb := by
    simp only [dialect]
    split
    · next e hsole =>
      have he := hb.sole e hsole
      grind
    · grind
  equal r e r' hr hr' := by simp only [dialect]; grind
  cast type r hr := by simp only [dialect]; grind
  notNull r _ := by simp only [dialect]; grind
  classOf owner := by simp only [dialect]; grind
  length r hr := by simp only [dialect]; grind
  mock owner := by simp only [dialect]; grind
  declare name type isMutable initial hinitial := by simp only [dialect]; grind
  branch r b b' hr hb hb' := by simp only [dialect]; grind
  switch r cases b hr hcases hb := by
    have hlabelled : ∀ c ∈ cases, Rendering.Level (say (literal c.1) ++ line r" -> {" ++
        nest c.2.content ++ line r"}") := by
      intro c hc
      have hcontent := (hcases c hc).content
      grind
    simp only [dialect]
    grind
  throw r hr := by simp only [dialect]; grind
  mockedStatic handle owner forms r hforms hr := by
    have hstubbing : ∀ form ∈ forms, Rendering.Level (piece (.identifier handle) handle ++
        say r".`when`<Any?> { " ++ .ok (className s owner) ++ say "." ++
          call form.method form.arguments ++ say r" }.thenReturn(" ++ form.returns ++
          line ")") := by
      intro form hform
      have hparts := hforms form hform
      grind
    simp only [dialect]
    grind
  stub r form hr hform := by simp only [dialect]; grind
  assertEquals r r' delta deep hr hr' := by simp only [dialect, Java.equalityArguments]; grind
  assertTrue r hr := by simp only [dialect]; grind
  assertNull r hr := by simp only [dialect]; grind
  assertThrows r b hr hb := by simp only [dialect]; grind
  fail message := by simp only [dialect]; grind

theorem lines_onOwnLines {r : Rendering} (h : r.Level) : (onOwnLines r).Lines :=
  lines_append_newline (level_breakLines h)

theorem level_parameter (s : Surroundings) (p : Parameter) : (parameter s p).Level := by
  unfold parameter
  grind

theorem moves_opening (s : Surroundings) (m : Method) : (opening s (dialect s) m).Moves 0 1 := by
  have hannotations := lines_jvmAnnotations (dialect_isLevel s) (level_className s) "::class"
    (methodAnnotations s.settings.framework m)
  have hparameters : Rendering.Level (say (m.name ++ "(") ++
      commas (m.parameters.map (parameter s)) ++ say ")") :=
    level_append (level_append (level_say _) (level_commas_map fun p _ => level_parameter s p))
      (level_say _)
  have hhead := level_append (level_say "fun ") hparameters
  refine Moves.append (hannotations.append ?_) (moves_ok Doc.moves_indent)
  split
  · refine (lines_line _).append (lines_onOwnLines ?_)
    exact level_append (level_append (level_append hhead (level_say _))
      (level_ok (level_unmarkedType s _))) (level_say _)
  · exact lines_onOwnLines (level_append hhead (level_say _))

/-- The methods of Kotlin consist of lines. -/
theorem methods_isLevel (s : Surroundings) : (methods s).IsLevel where
  dialect := dialect_isLevel s
  helper _ := lines_lines _
  whole m := lines_documentedAbove (dialect_isLevel s) (moves_opening s m) (Java.moves_closing m)

theorem lines_body {f : MethodForms} (hf : f.IsLevel) (c : TestClass) : (body f c).Lines := by
  unfold body
  split
  · exact f.lines_regions hf _
  · have hstatics := f.lines_region hf c.statics
    refine (f.lines_regions hf _).append (lines_ite lines_nothing (lines_append_line ?_ _))
    exact level_append (level_append (level_ite level_nothing level_newline) (level_line _))
      (level_nest hstatics.level)

/-- A file in Kotlin consists of lines. -/
theorem lines_file (s : Surroundings) (f : SourceFile) : (file s f).Lines := by
  have hforms := methods_isLevel s
  have hdocumentation := lines_ok (hforms.dialect.documentation f.testClass.documentation)
  have hannotations := lines_jvmAnnotations hforms.dialect (level_className s) "::class"
    f.testClass.annotations
  have hclass : ∀ c, Rendering.Level (.ok ((methods s).dialect.className c)) :=
    fun c => level_ok (level_className s c)
  refine lines_append_line (level_append (level_append (level_append (level_append
    (level_append (level_append (level_append ?package (lines_importGroup _).level)
      ?documentation) hannotations.level) (level_say _)) ?supertypes) (level_line _))
    (level_nest (lines_body hforms f.testClass).level)) _
  case package => grind
  case documentation => exact level_ite level_nothing hdocumentation.level
  case supertypes =>
    refine level_ite level_nothing (level_append (level_say _) (level_commas fun r hr => ?_))
    rcases List.mem_append.mp hr with hr | hr
    · obtain ⟨c, -, rfl⟩ : ∃ c, f.testClass.superclass = some c ∧
          .ok ((methods s).dialect.className c) ++ say "()" = r := by simpa using hr
      exact level_append (hclass c) (level_say _)
    · obtain ⟨c, -, rfl⟩ := List.mem_map.mp hr
      exact hclass c

end Kotlin

/-! ## JavaScript -/

namespace JavaScript

@[grind ←] theorem level_className (c : ClassName) : (className c).Level := Doc.level_text _ _

@[grind ←] theorem level_assertMember (name : String) : (assertMember name).Level :=
  level_append (level_piece _ _) (level_say _)

@[grind ←] theorem level_call (method : String) (h : ∀ r ∈ rs, r.Level) :
    (call method rs).Level :=
  level_append (level_append (level_say _) (level_commas h)) (level_say _)

/-- The forms of JavaScript are level. -/
theorem dialect_isLevel : dialect.IsLevel where
  literal l := Doc.level_text _ _
  comments := moves_starComment _
  documentation := moves_starComment _
  construct owner rs hrs := by simp only [dialect]; grind
  callOn receiver r method rs hr hrs := by simp only [dialect]; grind
  callStatic owner method rs hrs := by simp only [dialect]; grind
  callModule module method rs hrs := by simp only [dialect]; grind
  staticField owner name := by simp only [dialect]; grind
  allocate element size := by simp only [dialect]; grind
  arrayOf element onLines rs hrs := by simp only [dialect]; grind
  lambda ps b hb := by
    simp only [dialect]
    split
    · next e hsole =>
      have he := hb.sole e hsole
      grind
    · grind
  equal r e r' hr hr' := by simp only [dialect]; grind
  cast type r hr := hr
  notNull r _ := level_refuse _ _
  classOf owner := by simp only [dialect]; grind
  length r hr := by simp only [dialect]; grind
  mock owner := level_refuse _ _
  declare name type isMutable initial hinitial := by simp only [dialect]; grind
  branch r b b' hr hb hb' := by simp only [dialect]; grind
  switch r cases b hr hcases hb := by
    have hlabelled : ∀ c ∈ cases, Rendering.Level (say "case " ++ say (literal c.1) ++ line ":" ++
        nest (c.2.content ++ line "break;")) := by
      intro c hc
      have hcontent := (hcases c hc).content
      grind
    exact lines_append_line (level_append (by grind) (level_nest (level_append (level_append
      (level_concat_map hlabelled) (level_line _)) (level_nest hb.content.level)))) _
  throw r hr := by simp only [dialect]; grind
  mockedStatic handle owner forms r _ _ := lines_refuse _ _
  stub r form _ _ := lines_refuse _ _
  assertEquals r r' delta deep hr hr' := by
    simp only [dialect]
    split
    · exact lines_append_line (by grind) _
    · grind
  assertTrue r hr := by simp only [dialect]; grind
  assertNull r hr := by simp only [dialect]; grind
  assertThrows r b hr hb := by simp only [dialect]; grind
  fail message := by simp only [dialect]; grind

theorem moves_register (function title : String) : (register function title).Moves 0 1 :=
  Moves.append (lines_line _) (moves_ok Doc.moves_indent)

theorem moves_opening (m : Method) : (opening m).Moves 0 1 := by
  have hcomment (text : String) := lines_ok (dialect.moves_comment text)
  unfold opening
  split
  · next info =>
    refine Moves.append (b := 1) ?_ ?_
    · split
      · exact Moves.append (hcomment _) (moves_register _ _)
      · exact moves_register _ _
    · split
      · exact (lines_line _).deeper 1
      · exact lines_nothing.deeper 1
  · exact moves_register _ _
  · exact moves_refuse _ _
  all_goals
    refine Moves.append (lines_append_line (level_append (level_say _) ?_) _)
      (moves_ok Doc.moves_indent)
    exact level_commas_map fun p _ => dialect.level_reference p.name

theorem moves_closing (m : Method) : (closing m).Moves 1 0 := by
  refine Moves.append (moves_ok Doc.moves_dedent) ?_
  split <;> exact lines_line _

/-- The methods of JavaScript consist of lines. -/
theorem methods_isLevel (s : Surroundings) : (methods s).IsLevel where
  dialect := dialect_isLevel
  helper _ := lines_refuse _ _
  whole m := lines_documentedAbove dialect_isLevel (moves_opening m) (moves_closing m)

/-- A file in JavaScript consists of lines. -/
theorem lines_file (s : Surroundings) (f : SourceFile) : (file s f).Lines := by
  have hdocumentation := lines_ok (dialect_isLevel.documentation f.testClass.documentation)
  have hregions := (methods s).lines_regions (methods_isLevel s)
    (f.testClass.regions ++ [f.testClass.statics])
  refine lines_append_line (level_append (level_append (level_append ?required ?documentation)
    (level_line _)) (level_nest hregions.level)) _
  case required =>
    exact level_ite level_nothing (level_append (lines_lines _).level level_newline)
  case documentation => exact level_ite level_nothing hdocumentation.level

end JavaScript

/-! ## Go -/

namespace Go

@[grind ←] theorem level_qualifier (s : Surroundings) (package : String) :
    (qualifier s package).Level := by
  unfold qualifier
  split
  · exact Doc.level_nil
  · exact (Doc.level_text _ _).append (Doc.level_text _ _)

@[grind ←] theorem level_className (s : Surroundings) (c : ClassName) : (className s c).Level :=
  (level_qualifier s c.package).append (Doc.level_text _ _)

@[grind ←] theorem level_typeName (s : Surroundings) (t : DataType) : (typeName s t).Level := by
  fun_induction typeName s t <;> grind

theorem level_literal (l : Literal) : (literal l).Level := by
  have hspecial : ∀ x, (special x).Level := fun _ _ => rfl
  cases l with
  | float x =>
      refine ((Doc.level_text _ _).append ?_).append (Doc.level_text _ _)
      split
      · exact hspecial _
      · exact Doc.level_text _ _
  | double x =>
      simp only [literal, double]
      split
      · exact hspecial _
      · exact Doc.level_text _ _
  | _ => exact Doc.level_text _ _

@[grind ←] theorem level_call (method : String) (h : ∀ r ∈ rs, r.Level) :
    (call method rs).Level :=
  level_append (level_append (level_say _) (level_commas h)) (level_say _)

theorem lines_assertion (member : String) (h : ∀ r ∈ rs, r.Level) : (assertion member rs).Lines :=
  lines_append_newline (level_append (level_append (level_append (level_piece _ _) (level_say _))
    (level_commas h)) (level_say _))

/-- The forms of Go are level. -/
theorem dialect_isLevel (s : Surroundings) : (dialect s).IsLevel where
  literal := level_literal
  comments := moves_marked "//"
  documentation := moves_marked "//"
  construct owner rs hrs := by simp only [dialect]; grind
  callOn receiver r method rs hr hrs := by simp only [dialect]; grind
  callStatic owner method rs hrs := by simp only [dialect]; grind
  callModule module method rs hrs := by simp only [dialect]; grind
  staticField owner name := by simp only [dialect]; grind
  allocate element size := by simp only [dialect]; grind
  arrayOf element onLines rs hrs := by simp only [dialect]; grind
  lambda ps b hb := by simp only [dialect]; grind
  equal r e r' hr hr' := by simp only [dialect]; grind
  cast type r hr := by simp only [dialect]; grind
  notNull r _ := level_refuse _ _
  classOf owner := level_refuse _ _
  length r hr := by simp only [dialect]; grind
  mock owner := level_refuse _ _
  declare name type isMutable initial hinitial := by simp only [dialect]; grind
  branch r b b' hr hb hb' := by simp only [dialect]; grind
  switch r cases b hr hcases hb := by
    have hlabelled : ∀ c ∈ cases, Rendering.Level (say "case " ++ .ok (literal c.1) ++ line ":" ++
        nest c.2.content) := by
      intro c hc
      have hcontent := (hcases c hc).content
      have hliteral := level_ok (level_literal c.1)
      grind
    simp only [dialect]
    grind
  throw r hr := by simp only [dialect]; grind
  mockedStatic handle owner forms r _ _ := lines_refuse _ _
  stub r form _ _ := lines_refuse _ _
  assertEquals r r' delta deep hr hr' := by
    cases delta with
    | none => exact lines_assertion _ (by simp [hr, hr'])
    | some l => exact lines_assertion _ (by simp [hr, hr', level_ok (level_literal l)])
  assertTrue r hr := lines_assertion _ (by simpa using hr)
  assertNull r hr := lines_assertion _ (by simpa using hr)
  assertThrows r b hr hb := by simp only [dialect]; grind
  fail message := lines_line _

theorem moves_testHead (name : String) : (testHead name).Moves 0 1 :=
  Moves.append (lines_append_line (level_append (level_say _) (level_piece _ _)) _)
    (moves_ok Doc.moves_indent)

theorem moves_opening (s : Surroundings) (m : Method) : (opening (dialect s) m).Moves 0 1 := by
  have hcomment (text : String) := lines_ok ((dialect s).moves_comment text)
  unfold opening
  split
  · next info =>
    refine Moves.append (Moves.append (moves_testHead _) (Lines.deeper ?_ 1)) (Lines.deeper ?_ 1)
    · split
      · exact lines_line _
      · exact lines_nothing
    · split
      · exact hcomment _
      · exact lines_nothing
  · exact moves_testHead _
  all_goals exact moves_refuse _ _

theorem moves_closing (m : Method) : (closing m).Moves 1 0 :=
  Moves.append (moves_ok Doc.moves_dedent) (lines_line _)

/-- The methods of Go consist of lines. -/
theorem methods_isLevel (s : Surroundings) : (methods s).IsLevel where
  dialect := dialect_isLevel s
  helper _ := lines_refuse _ _
  whole m := lines_documentedAbove (dialect_isLevel s) (moves_opening s m) (moves_closing m)

/-- A file in Go consists of lines. -/
theorem lines_file (s : Surroundings) (f : SourceFile) : (file s f).Lines := by
  have hforms := methods_isLevel s
  have hcomments := lines_ok (hforms.dialect.comments f.testClass.documentation)
  have himports : (importBlock f.imports).Lines := by
    refine lines_ite lines_nothing (lines_append_line (level_append (level_append level_newline
      (level_line _)) (level_nest ?_)) _)
    exact level_concat_map fun i _ => level_line _
  simp only [file]
  split
  · exact lines_refuse _ _
  · refine (((lines_ite lines_nothing hcomments).append (lines_line _)).append himports).append ?_
    exact lines_concat_map fun r _ => lines_newline.append ((methods s).lines_region hforms r)

end Go

/-! ## Python -/

namespace Python

@[grind ←] theorem level_className (s : Surroundings) (c : ClassName) : (className s c).Level := by
  unfold className
  split
  · exact Doc.level_text _ _
  · split <;> exact fun _ => rfl

theorem moves_docstring (lines : List String) : (docstring lines).Moves 0 0 := by
  simp only [docstring]
  split
  · exact Doc.Level.moves (d := [.text .plain _, .text .remark _, .text .plain _]) fun _ => rfl
  · exact ((Doc.moves_line _ _).append (Doc.moves_flatMap fun text _ => Doc.moves_line _ _)).append
      (Doc.moves_line _ _)

theorem lines_suite {b : Block} (hb : b.content.Lines) : (suite b).Lines :=
  hb.append (lines_ite (lines_freshLine.append (lines_line _)) lines_nothing)

@[grind ←] theorem level_call (method : String) (h : ∀ r ∈ rs, r.Level) :
    (call method rs).Level :=
  level_append (level_append (level_say _) (level_commas h)) (level_say _)

@[grind ←] theorem level_pytest (member : String) : (pytest member).Level :=
  level_append (level_piece _ _) (level_say _)

theorem lines_chain {block : Block → Rendering} {r : Rendering} (hr : r.Level) (word : String)
    {labelled : List (Literal × Block)} (h : ∀ c ∈ labelled, (block c.2).Lines) :
    (chain block r word labelled).Lines := by
  induction labelled generalizing word with
  | nil => exact lines_nothing
  | cons c rest ih =>
      obtain ⟨hc, hrest⟩ := List.forall_mem_cons.mp h
      refine Lines.append (Lines.append (lines_append_line ?_ _) hc) (ih _ hrest)
      grind

/-- The forms of Python are level. -/
theorem dialect_isLevel (s : Surroundings) : (dialect s).IsLevel where
  literal l := Doc.level_text _ _
  comments := moves_marked "#"
  documentation := moves_docstring
  construct owner rs hrs := by simp only [dialect]; grind
  callOn receiver r method rs hr hrs := by simp only [dialect]; grind
  callStatic owner method rs hrs := by simp only [dialect]; grind
  callModule module method rs hrs := by simp only [dialect]; grind
  staticField owner name := by simp only [dialect]; grind
  allocate element size := by simp only [dialect]; grind
  arrayOf element onLines rs hrs := by simp only [dialect]; grind
  lambda ps b hb := by
    simp only [dialect]
    split
    · exact level_refuse _ _
    · next e hsole =>
      have he := hb.sole e hsole
      grind
  equal r e r' hr hr' := by simp only [dialect]; grind
  cast type r hr := hr
  notNull r hr := hr
  classOf owner := by simp only [dialect]; grind
  length r hr := by simp only [dialect]; grind
  mock owner := level_refuse _ _
  declare name type isMutable initial hinitial := by
    cases initial with
    | none => exact lines_append_newline (by grind)
    | some e =>
        have he := hinitial e rfl
        exact lines_append_newline (level_append (by grind) he)
  branch r b b' hr hb hb' := by
    refine ((lines_append_line (level_append (level_say _) hr) _).append
      (lines_nest (lines_suite hb.content))).append ?_
    exact lines_ite lines_nothing ((lines_line _).append (lines_nest (lines_suite hb'.content)))
  switch r cases b hr hcases hb := by
    refine lines_ite hb.content (Lines.append ?_ ?_)
    · exact lines_chain hr _ fun c hc => lines_nest (lines_suite (hcases c hc).content)
    · exact lines_ite lines_nothing ((lines_line _).append (lines_nest (lines_suite hb.content)))
  throw r hr := by simp only [dialect]; grind
  mockedStatic handle owner forms r _ _ := lines_refuse _ _
  stub r form _ _ := lines_refuse _ _
  assertEquals r r' delta deep hr hr' := by simp only [dialect]; grind
  assertTrue r hr := by simp only [dialect]; grind
  assertNull r hr := by simp only [dialect]; grind
  assertThrows r b hr hb := by
    refine Lines.append (lines_append_line (level_append ?_ hr) _)
      (lines_nest (lines_suite hb.content))
    grind
  fail message := by simp only [dialect]; grind

theorem lines_decorators (s : Surroundings) (m : Method) :
    (decorators s (dialect s) m).Lines := by
  have hcomment (text : String) := lines_ok ((dialect s).moves_comment text)
  unfold decorators
  split
  · refine Lines.append ?_ ?_
    · split
      · unfold skipDecorator
        grind
      · exact lines_nothing
    · split
      · unfold timeoutDecorator
        split
        · grind
        · exact hcomment _
      · exact lines_nothing
  · split
    · grind
    · exact lines_refuse _ _
  all_goals exact lines_nothing

theorem moves_opening (s : Surroundings) (m : Method) : (opening s (dialect s) m).Moves 0 1 := by
  have hnames : Rendering.Level (commas ((if m.isStatic then [] else [say "self"]) ++
      m.parameters.map fun p => (dialect s).reference p.name)) := by
    refine level_commas (List.forall_mem_append.mpr ⟨?_, List.forall_mem_map.mpr fun p _ => ?_⟩)
    · split <;> simp [level_say]
    · exact (dialect s).level_reference p.name
  have hhead : Rendering.Lines (decorators s (dialect s) m ++ say ("def " ++ m.name ++ "(") ++
      commas ((if m.isStatic then [] else [say "self"]) ++
        m.parameters.map fun p => (dialect s).reference p.name) ++ line "):") :=
    lines_append_line (level_append (level_append (lines_decorators s m).level (level_say _))
      hnames) _
  exact Moves.append hhead (moves_ok Doc.moves_indent)

theorem moves_closing (m : Method) : (closing m).Moves 1 0 :=
  Moves.append (lines_freshLine.deeper 1) (moves_ok Doc.moves_dedent)

/-- The methods of Python consist of lines. -/
theorem methods_isLevel (s : Surroundings) : (methods s).IsLevel where
  dialect := dialect_isLevel s
  helper h := by
    simp only [methods]
    split
    · exact lines_lines _
    · exact lines_refuse _ _
  whole m := by
    have hbody : Rendering.Lines (if m.documentation.isEmpty then suite ((dialect s).blockOf m.body)
        else .ok (docstring m.documentation) ++ (dialect s).stmts m.body) :=
      lines_ite (lines_suite ((dialect s).lines_blockOf (dialect_isLevel s) m.body).content)
        ((lines_ok (moves_docstring _)).append ((dialect s).lines_stmts (dialect_isLevel s) m.body))
    exact (Moves.append (moves_opening s m) (hbody.deeper 1)).append (moves_closing m)

theorem lines_testClass (s : Surroundings) (c : TestClass) :
    (testClass (methods s) c).Lines := by
  have hregions := (methods s).lines_regions (methods_isLevel s) c.regions
  refine Lines.append ?_ (lines_nest (Lines.append ?_ hregions))
  · cases c.superclass with
    | none => exact lines_append_line (level_say _) _
    | some superclass =>
        have hclass : Rendering.Level (.ok ((methods s).dialect.className superclass)) :=
          level_ok (level_className s superclass)
        dsimp only
        rw [← append_assoc]
        exact lines_append_line (level_append (level_say _) (level_append (level_say _) hclass)) _
  · exact lines_ite ((lines_ok (moves_docstring _)).append (lines_ite lines_newline lines_nothing))
      (lines_ite lines_nothing (lines_line _))

theorem moves_gap (d : Doc) : (gap d).Moves 0 0 := by
  unfold gap
  split
  · exact Doc.moves_nil
  · exact Doc.Level.moves (d := [.newline]) fun _ => rfl

/-- A file in Python consists of lines. -/
theorem lines_file (s : Surroundings) (f : SourceFile) : (file s f).Lines := by
  have himports : Doc.Moves 0 0 ((importLines f.imports).flatMap fun text =>
      [.text .plain text, .newline]) := Doc.moves_flatMap fun text _ => Doc.moves_line _ _
  simp only [file]
  split
  · next e _ =>
    intro d hd
    cases hd
  · next statics hstatics =>
    have hmoves : statics.Moves 0 0 := by
      refine lines_ite (p := f.testClass.statics.isEmpty = true) lines_nothing ?_ statics hstatics
      exact (lines_ok (moves_gap _)).append ((methods s).lines_region (methods_isLevel s) _)
    exact (lines_ok ((himports.append hmoves).append (moves_gap _))).append (lines_testClass s _)

end Python

/-! ## All languages -/

/-- The methods of every language consist of lines. -/
theorem Surroundings.methodForms_isLevel (s : Surroundings) : s.methodForms.IsLevel := by
  unfold Surroundings.methodForms
  cases s.settings.language with
  | java => exact Java.methods_isLevel s
  | kotlin => exact Kotlin.methods_isLevel s
  | javascript => exact JavaScript.methods_isLevel s
  | python => exact Python.methods_isLevel s
  | go => exact Go.methods_isLevel s

/-- A file in any language consists of lines. -/
theorem lines_fileDoc (settings : Settings) (f : SourceFile) : (fileDoc settings f).Lines := by
  unfold fileDoc
  cases settings.language with
  | java => exact Java.lines_file _ f
  | kotlin => exact Kotlin.lines_file _ f
  | javascript => exact JavaScript.lines_file _ f
  | python => exact Python.lines_file _ f
  | go => exact Go.lines_file _ f

/-- Whatever a language writes is balanced: carried out from any cursor, an expression, a statement,
a method, a region and a file come back to the level of the cursor without a step that takes a level
away at level zero, and all but the expression take the start of a line to the start of a line. -/
theorem layout_is_balanced (s : Surroundings) :
    (∀ e d, s.methodForms.dialect.expr e = .ok d → d.Balanced) ∧
    (∀ x d, s.methodForms.dialect.stmt x = .ok d → d.Balanced ∧ d.KeepsLineStart) ∧
    (∀ m d, s.methodForms.method m = .ok d → d.Balanced ∧ d.KeepsLineStart) ∧
    (∀ r d, s.methodForms.region r = .ok d → d.Balanced ∧ d.KeepsLineStart) ∧
    ∀ f d, fileDoc s.settings f = .ok d → d.Balanced ∧ d.KeepsLineStart := by
  have hforms := s.methodForms_isLevel
  have hlines : ∀ r : Rendering, r.Lines → ∀ d, r = .ok d → d.Balanced ∧ d.KeepsLineStart :=
    fun r h d hd => ⟨Doc.Level.balanced (h d hd).leads, (h d hd).start⟩
  refine ⟨fun e d hd => ?_, fun x => hlines _ ?_, fun m => hlines _ ?_, fun r => hlines _ ?_,
    fun f => hlines _ ?_⟩
  · exact (s.methodForms.dialect.level_expr hforms.dialect e d hd).balanced
  · exact s.methodForms.dialect.lines_stmt hforms.dialect x
  · exact s.methodForms.lines_method hforms m
  · exact s.methodForms.lines_region hforms r
  · exact lines_fileDoc s.settings f

/-- Arrays in an array, each on a line of its own. -/
def nestedArrays : Expr :=
  .arrayOf (.array (.primitive .int))
    [.arrayOf (.primitive .int) [.literal (.int 1)], .arrayOf (.primitive .int) []]

/-- A test that fails with nested arrays in a condition in a condition, in a region in a region. -/
def nestedFile : SourceFile :=
  let fails : Stmt := .branch (.equal nestedArrays .null) [.fail "absent"] []
  let m : Method := ⟨"testNested", .errorReport ⟨.global "Nested", "nest", [], .void, .staticMethod⟩,
    [], .void, [], [.branch (.ref "deep") [fails] []], false⟩
  ⟨none, [], ⟨.global "NestedTest", .test, [], [], none, [],
    [.mk (some "outer") [] [.region (.mk (some "inner") [] [.method m])]], .empty⟩⟩

/-- Java ends the nested arrays, and the file with them, at the level where they began. -/
theorem layout_is_balanced_nested :
    let s := Surroundings.bare (.forLanguage .java)
    (∃ d, s.methodForms.dialect.expr nestedArrays = .ok d ∧ d.Balanced) ∧
      ∃ d, fileDoc s.settings nestedFile = .ok d ∧ d.Balanced ∧ d.KeepsLineStart := by
  intro s
  obtain ⟨e, he⟩ : ∃ d, s.methodForms.dialect.expr nestedArrays = .ok d := ⟨_, rfl⟩
  obtain ⟨f, hf⟩ : ∃ d, fileDoc s.settings nestedFile = .ok d := ⟨_, rfl⟩
  obtain ⟨hexpr, -, -, -, hfile⟩ := layout_is_balanced s
  exact ⟨⟨e, he, hexpr _ e he⟩, ⟨f, hf, hfile _ f hf⟩⟩

end TestWriter.Target
