import TestWriter.Proofs.WrittenForms

/-!
# Languages that write built code

Main statements: each of the five dialects writes the forms of built statements, Go with arrays
whose element types it can name and the others with arrays of any element type.
-/

namespace TestWriter.Target

open Layout Rendering

variable {config : Config}

/-! ## Dialects -/

theorem Java.succeeds_callStatic (s : Surroundings) (owner : ClassName) (method : String)
    {rs : List Rendering} (hrs : ∀ r ∈ rs, r.Succeeds) :
    (callStatic s owner method rs).Succeeds := by
  simp only [callStatic, call]
  split <;> simpa using hrs

theorem Java.dialect_writes (s : Surroundings) (hlanguage : config.language = .java) :
    (Java.dialect s).Writes config fun _ => True where
  language_eq := hlanguage.symm
  staticField owner name := by simp [dialect]
  construct owner rs hrs _ := by simpa [dialect] using hrs
  callOn receiver r method rs hr hrs := by
    simp only [dialect, call]
    split <;> simpa [hr] using hrs
  callStatic owner method rs hrs := succeeds_callStatic s owner method hrs
  callModule module method rs hrs := succeeds_callStatic s module method hrs
  arrayOf element onLines rs _ hrs := by simpa [dialect] using hrs
  equal r e r' hr hr' := by simp [dialect, hr, hr']
  cast type r _ hr := by simp [dialect, hr]
  classOf owner _ := by simp [dialect]
  mock owner _ := by simp [dialect, mockMember]
  declare name type r hr := by simp [dialect, hr]
  branch r b b' hr hb hb' := by
    simp only [dialect, bracedBranch]
    split <;> simp [hr, hb.content, hb'.content]
  stub r form _ hr hform := by
    simpa [dialect, mockMember, call, hr, hform.returns] using hform.arguments
  mockedStatic handle owner forms r _ hforms hr := by
    have hall : ∀ f ∈ forms, (∀ x ∈ f.arguments, x.Succeeds) ∧ f.returns.Succeeds :=
      fun f hf => ⟨(hforms f hf).arguments, (hforms f hf).returns⟩
    simpa [dialect, mockMember, call, hr] using hall
  assertEquals r r' delta deep hr hr' := by
    simp only [dialect, assertion, equalityArguments]
    split <;> cases delta <;> simp [hr, hr']
  assertTrue r hr := by simp [dialect, assertion, hr]
  assertNull r hr := by simp [dialect, assertion, hr]
  assertThrows r b hr hb := by
    have hexception := hr (by simp [hlanguage])
    simp only [dialect, assertion, lambda]
    split
    · next e hsole => simp [hexception, hb.sole e hsole]
    · simp [hexception, hb.content]
  rows _ _ := trivial

theorem Kotlin.dialect_writes (s : Surroundings) (hlanguage : config.language = .kotlin) :
    (Kotlin.dialect s).Writes config fun _ => True where
  language_eq := hlanguage.symm
  staticField owner name := by simp [dialect]
  construct owner rs hrs _ := by simpa [dialect] using hrs
  callOn receiver r method rs hr hrs := by
    simp only [dialect, call]
    split <;> simpa [hr] using hrs
  callStatic owner method rs hrs := by
    simp only [dialect, call]
    split <;> simpa using hrs
  callModule module method rs hrs := by simpa [dialect] using hrs
  arrayOf element onLines rs _ hrs := by
    simp only [dialect]
    cases element <;> simpa using hrs
  equal r e r' hr hr' := by simp [dialect, hr, hr']
  cast type r _ hr := by simp [dialect, hr]
  classOf owner _ := by simp [dialect]
  mock owner _ := by simp [dialect, Java.mockMember]
  declare name type r hr := by simp [dialect, hr]
  branch r b b' hr hb hb' := by
    simp only [dialect, bracedBranch]
    split <;> simp [hr, hb.content, hb'.content]
  stub r form _ hr hform := by
    simpa [dialect, call, hr, hform.returns] using hform.arguments
  mockedStatic handle owner forms r _ hforms hr := by
    have hall : ∀ f ∈ forms, (∀ x ∈ f.arguments, x.Succeeds) ∧ f.returns.Succeeds :=
      fun f hf => ⟨(hforms f hf).arguments, (hforms f hf).returns⟩
    simpa [dialect, Java.mockMember, call, hr] using hall
  assertEquals r r' delta deep hr hr' := by
    simp only [dialect, Java.assertion, Java.equalityArguments]
    split <;> cases delta <;> simp [hr, hr']
  assertTrue r hr := by simp [dialect, Java.assertion, hr]
  assertNull r hr := by simp [dialect, Java.assertion, hr]
  assertThrows r b hr hb := by
    have hexception := hr (by simp [hlanguage])
    simp [dialect, Java.assertion, hexception, hb.content]
  rows _ _ := trivial

theorem JavaScript.dialect_writes (hlanguage : config.language = .javascript) :
    JavaScript.dialect.Writes config fun _ => True where
  language_eq := hlanguage.symm
  staticField owner name := by simp [dialect]
  construct owner rs hrs _ := by simpa [dialect] using hrs
  callOn receiver r method rs hr hrs := by
    simp only [dialect, call]
    split <;> simpa [hr] using hrs
  callStatic owner method rs hrs := by simpa [dialect, call] using hrs
  callModule module method rs hrs := by simpa [dialect] using hrs
  arrayOf element onLines rs _ hrs := by simpa [dialect] using hrs
  equal r e r' hr hr' := by simp [dialect, hr, hr']
  cast type r _ hr := hr
  classOf owner _ := by simp [dialect]
  mock owner hmocks := by simp [hlanguage, Language.supportsMocking, Language.isJvm] at hmocks
  declare name type r hr := by simp [dialect, hr]
  branch r b b' hr hb hb' := by
    simp only [dialect, bracedBranch]
    split <;> simp [hr, hb.content, hb'.content]
  stub r form hmocks _ _ := by
    simp [hlanguage, Language.supportsMocking, Language.isJvm] at hmocks
  mockedStatic handle owner forms r hmocks _ _ := by
    simp [hlanguage, Language.supportsMocking, Language.isJvm] at hmocks
  assertEquals r r' delta deep hr hr' := by
    cases delta <;> simp [dialect, assertMember, hr, hr']
  assertTrue r hr := by simp [dialect, assertMember, hr]
  assertNull r hr := by simp [dialect, assertMember, hr]
  assertThrows r b hr hb := by
    have hexception := hr (by simp [hlanguage])
    simp [dialect, assertMember, hexception, hb.content]
  rows _ _ := trivial

namespace Python

theorem succeeds_suite {b : Block} (hb : b.content.Succeeds) : (suite b).Succeeds := by
  simp only [suite, succeeds_append_iff]
  exact ⟨hb, succeeds_ite (by simp) succeeds_nothing⟩

theorem succeeds_pytest (member : String) : (pytest member).Succeeds := by simp [pytest]

theorem dialect_writes (s : Surroundings) (hlanguage : config.language = .python) :
    (dialect s).Writes config fun _ => True where
  language_eq := hlanguage.symm
  staticField owner name := by simp [dialect]
  construct owner rs hrs _ := by simpa [dialect] using hrs
  callOn receiver r method rs hr hrs := by simpa [dialect, call, hr] using hrs
  callStatic owner method rs hrs := by simpa [dialect, call] using hrs
  callModule module method rs hrs := by simpa [dialect] using hrs
  arrayOf element onLines rs _ hrs := by simpa [dialect] using hrs
  equal r e r' hr hr' := by
    simp only [dialect]
    split <;> simp [hr, hr']
  cast type r _ hr := hr
  classOf owner _ := by simp [dialect]
  mock owner hmocks := by simp [hlanguage, Language.supportsMocking, Language.isJvm] at hmocks
  declare name type r hr := by simp [dialect, hr]
  branch r b b' hr hb hb' := by
    have hthen := succeeds_suite hb.content
    have helse := succeeds_suite hb'.content
    simp only [dialect]
    split <;> simp [hr, hthen, helse]
  stub r form hmocks _ _ := by
    simp [hlanguage, Language.supportsMocking, Language.isJvm] at hmocks
  mockedStatic handle owner forms r hmocks _ _ := by
    simp [hlanguage, Language.supportsMocking, Language.isJvm] at hmocks
  assertEquals r r' delta deep hr hr' := by
    simp only [dialect]
    split <;> cases delta <;> simp [hr, hr', succeeds_pytest]
  assertTrue r hr := by
    simp only [dialect]
    split <;> simp [hr]
  assertNull r hr := by
    simp only [dialect]
    split <;> simp [hr]
  assertThrows r b hr hb := by
    have hexception := hr (by simp [hlanguage])
    have hbody := succeeds_suite hb.content
    simp only [dialect]
    split <;> simp [hexception, hbody, succeeds_pytest]
  rows _ _ := trivial

end Python

namespace Go

/-- Whether Go has a name for a type. -/
def IsNamed : DataType → Prop
  | .void | .errorClass => False
  | .array element => IsNamed element
  | .primitive _ | .str | .ofClass _ | .any => True

theorem succeeds_typeName_iff (s : Surroundings) (t : DataType) :
    (typeName s t).Succeeds ↔ IsNamed t := by
  induction t with
  | array element ih => simp [typeName, IsNamed, ih]
  | _ => simp [typeName, IsNamed]

theorem succeeds_call_iff (method : String) {rs : List Rendering} :
    (call method rs).Succeeds ↔ ∀ r ∈ rs, r.Succeeds := by
  simp [call]

theorem succeeds_assertion_iff (member : String) {rs : List Rendering} :
    (assertion member rs).Succeeds ↔ ∀ r ∈ rs, r.Succeeds := by
  simp [assertion]

theorem succeeds_arrayOf_iff (s : Surroundings) (element : DataType) (onLines : Bool)
    {rs : List Rendering} : ((dialect s).arrayOf element onLines rs).Succeeds ↔
      IsNamed element ∧ ∀ r ∈ rs, r.Succeeds := by
  simp only [dialect, succeeds_append_iff, succeeds_say, true_and, and_true, succeeds_typeName_iff]
  apply and_congr_right
  intro _
  cases onLines <;> simp

theorem succeeds_declare_iff (s : Surroundings) (name : String) (type : DataType) {r : Rendering} :
    ((dialect s).declare name type false (some r)).Succeeds ↔ r.Succeeds := by
  simp [dialect]

theorem dialect_writes (s : Surroundings) (hlanguage : config.language = .go) :
    (dialect s).Writes config IsNamed where
  language_eq := hlanguage.symm
  staticField owner name := by simp [dialect]
  construct owner rs _ hgo := by simp [dialect, hgo hlanguage]
  callOn receiver r method rs hr hrs := by
    simpa [dialect, hr, succeeds_call_iff] using hrs
  callStatic owner method rs hrs := by simpa [dialect, succeeds_call_iff] using hrs
  callModule module method rs hrs := by simpa [dialect] using hrs
  arrayOf element onLines rs helement hrs :=
    (succeeds_arrayOf_iff s element onLines).mpr ⟨helement, hrs⟩
  equal r e r' hr hr' := by simp [dialect, hr, hr']
  cast type r hgo := absurd hlanguage hgo
  classOf owner hgo := absurd hlanguage hgo
  mock owner hmocks := by simp [hlanguage, Language.supportsMocking, Language.isJvm] at hmocks
  declare name type r hr := (succeeds_declare_iff s name type).mpr hr
  branch r b b' hr hb hb' := by
    simp only [dialect, bracedBranch]
    split <;> simp [hr, hb.content, hb'.content]
  stub r form hmocks _ _ := by
    simp [hlanguage, Language.supportsMocking, Language.isJvm] at hmocks
  mockedStatic handle owner forms r hmocks _ _ := by
    simp [hlanguage, Language.supportsMocking, Language.isJvm] at hmocks
  assertEquals r r' delta deep hr hr' := by
    cases delta <;> simp [dialect, succeeds_assertion_iff, hr, hr']
  assertTrue r hr := by simp [dialect, succeeds_assertion_iff, hr]
  assertNull r hr := by simp [dialect, succeeds_assertion_iff, hr]
  assertThrows r b _ hb := by simp [dialect, hb.content]
  rows hgo := absurd hlanguage hgo

end Go

end TestWriter.Target
