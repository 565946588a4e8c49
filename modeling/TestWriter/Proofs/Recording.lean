import TestWriter.Proofs.Inversion
import TestWriter.Suite.Mention

/-!
# What a build keeps on record

A generation records which helpers its code calls and whether its code creates mock objects.  A
build writes such a record beside the code and not from it, so the two have to be kept in step.
Main statements: what a successful build adds to the record is what the statements use that it adds
to the body, and the language has each helper among it.
-/

namespace TestWriter

/-! ## Features of code -/

/-- A feature of code that a generation keeps on record. -/
inductive Feature
  | helper (h : Helper)
  /-- Mock objects or mocked static methods. -/
  | mocks

/-- The feature that a mention is the use of, if there is one. -/
def Mention.feature? : Mention → Option Feature
  | .helper h => some (.helper h)
  | .mocking member => if member = "mock" then some .mocks else none
  | .staticMocks => some .mocks
  | .ofClass _ | .typeClass _ | .function _ _ | .assertion _ | .nonFinite => none

/-- One of some mentions is the use of a feature. -/
def Mention.Uses (mentions : List Mention) (f : Feature) : Prop :=
  ∃ x ∈ mentions, x.feature? = some f

/-- An expression that uses no feature. -/
def Expr.Silent (e : Expr) : Prop := ∀ f, ¬Mention.Uses e.mentions f

/-- Some statements use a feature. -/
def Stmt.Uses (body : List Stmt) (f : Feature) : Prop := Mention.Uses (Stmt.mentionsOf body) f

/-- Some statements call a helper. -/
def Stmt.Call (body : List Stmt) (h : Helper) : Prop := Mention.helper h ∈ Stmt.mentionsOf body

/-- A feature is on record. -/
def Usage.Has (u : Usage) : Feature → Prop
  | .helper h => h ∈ u.required
  | .mocks => u.mocks = true

namespace Mention

variable {f : Feature} {x : Mention} {xs ys : List Mention}

@[simp] theorem not_uses_nil : ¬Uses [] f := by
  simp [Uses]

@[simp] theorem uses_cons : Uses (x :: xs) f ↔ x.feature? = some f ∨ Uses xs f := by
  simp [Uses]

@[simp] theorem uses_append : Uses (xs ++ ys) f ↔ Uses xs f ∨ Uses ys f := by
  simp only [Uses, List.mem_append, or_and_right, exists_or]

theorem feature?_eq_helper_iff {h : Helper} : x.feature? = some (.helper h) ↔ x = .helper h := by
  cases x <;> simp [feature?]

theorem uses_helper_iff {h : Helper} : Uses xs (.helper h) ↔ .helper h ∈ xs := by
  simp [Uses, feature?_eq_helper_iff]

end Mention

theorem DataType.not_uses_mentions (t : DataType) (f : Feature) : ¬Mention.Uses t.mentions f := by
  induction t with
  | array element ih => exact ih
  | ofClass c => simp [mentions, Mention.feature?]
  | _ => simp [mentions]

section

attribute [local simp] Mention.feature? Expr.mentions Expr.mentionsOf Stmt.mentions Stmt.mentionsOf

theorem Expr.mem_mentionsOf_iff {es : List Expr} {x : Mention} :
    x ∈ mentionsOf es ↔ ∃ e ∈ es, x ∈ e.mentions := by
  induction es with
  | nil => simp
  | cons e rest ih => simp [ih]

theorem Expr.not_uses_mentionsOf {es : List Expr} (hes : ∀ e ∈ es, e.Silent) (f : Feature) :
    ¬Mention.Uses (mentionsOf es) f := by
  rintro ⟨x, hx, hf⟩
  obtain ⟨e, he, hmem⟩ := mem_mentionsOf_iff.mp hx
  exact hes e he f ⟨x, hmem, hf⟩

theorem Stmt.mem_mentionsOf_iff {body : List Stmt} {x : Mention} :
    x ∈ mentionsOf body ↔ ∃ s ∈ body, x ∈ s.mentions := by
  induction body with
  | nil => simp
  | cons s rest ih => simp [ih]

namespace Stmt

variable {f : Feature}

theorem mentionsOf_append (body more : List Stmt) :
    mentionsOf (body ++ more) = mentionsOf body ++ mentionsOf more := by
  induction body with
  | nil => simp
  | cons s rest ih => simp [ih]

theorem uses_append {body more : List Stmt} :
    Uses (body ++ more) f ↔ Uses body f ∨ Uses more f := by
  rw [Uses, mentionsOf_append, Mention.uses_append]
  rfl

theorem not_uses_nil : ¬Uses [] f := by
  simp [Uses]

theorem uses_singleton {s : Stmt} : Uses [s] f ↔ Mention.Uses s.mentions f := by
  simp [Uses]

theorem uses_helper_iff {body : List Stmt} {h : Helper} : Uses body (.helper h) ↔ Call body h :=
  Mention.uses_helper_iff

theorem call_append {body more : List Stmt} {h : Helper} :
    Call (body ++ more) h ↔ Call body h ∨ Call more h := by
  simp only [← uses_helper_iff, uses_append]

theorem not_call_nil {h : Helper} : ¬Call [] h := by
  simp [Call]

theorem call_singleton {s : Stmt} {h : Helper} : Call [s] h ↔ Mention.helper h ∈ s.mentions := by
  simp [Call]

theorem uses_apart {before after : List Stmt} :
    Uses (apart before after) f ↔ Uses before f ∨ Uses after f := by
  simp only [apart]
  split
  · next hempty =>
    have hnil : before = [] := by simpa using hempty
    simp [hnil, not_uses_nil]
  · rw [uses_append]
    simp [Uses]

/-- A scope of mocked static methods is the use of mocks. -/
theorem uses_enclose {scopes : List StaticScope}
    (hscopes : ∀ scope ∈ scopes, ¬Mention.Uses (Stubbing.mentionsOf scope.stubbings) f)
    {body : List Stmt} :
    Uses (StaticScope.enclose scopes body) f ↔ (scopes ≠ [] ∧ f = .mocks) ∨ Uses body f := by
  induction scopes with
  | nil => simp [StaticScope.enclose]
  | cons scope rest ih =>
      have hscope := hscopes scope List.mem_cons_self
      have hrest := ih fun s hs => hscopes s (List.mem_cons_of_mem _ hs)
      change Uses [.mockedStatic _ _ _ (StaticScope.enclose rest body)] f ↔ _
      rw [uses_singleton]
      simp only [mentions, Mention.uses_append]
      rw [← Uses, hrest]
      by_cases hf : f = .mocks
      · simp [hf]
      · simp [hf, Ne.symm hf, hscope]

end Stmt

theorem Expr.silent_literal (l : Literal) : (literal l).Silent := by
  intro f
  simp only [mentions]
  split <;> simp

theorem Expr.silent_ref (name : String) : (ref name).Silent := by
  intro f
  simp

theorem Expr.silent_staticField (owner : ClassName) (name : String) :
    (staticField owner name).Silent := by
  intro f
  simp

theorem Expr.silent_null : null.Silent := silent_literal _

theorem Expr.silent_classOf (owner : ClassName) : (classOf owner).Silent := by
  intro f
  simp

theorem Expr.silent_arrayOf (element : DataType) {es : List Expr} (hes : ∀ e ∈ es, e.Silent) :
    (arrayOf element es).Silent := by
  intro f
  have helement := element.not_uses_mentions f
  have hvalues := not_uses_mentionsOf hes f
  simp [helement, hvalues]

theorem Executable.silent_call {e : Executable} {receiver : Expr} {arguments : List Expr}
    (hreceiver : receiver.Silent) (harguments : ∀ a ∈ arguments, a.Silent) :
    (e.call receiver arguments).Silent := by
  intro f
  have hr := hreceiver f
  have ha := Expr.not_uses_mentionsOf harguments f
  simp only [Executable.call]
  cases e.kind <;> simp [hr, ha]

end

/-! ## What a build adds -/

/-- Record that a feature is used. -/
def Draft.record : Feature → Build Draft Unit
  | .helper h => require h
  | .mocks => markMocks

namespace Draft

/-- From one draft to another, the features that come on record are those that the added statements
use, and the language has each helper among them. -/
def Accounts (language : Language) (d d' : Draft) : Prop :=
  ∃ added, d'.statements = d.statements ++ added ∧
    (∀ f, d'.generation.usage.Has f ↔ d.generation.usage.Has f ∨ Stmt.Uses added f) ∧
    ∀ h, Stmt.Call added h → h.supported language = true

variable {language : Language} {d d' d'' : Draft}

theorem Accounts.refl (d : Draft) : Accounts language d d :=
  ⟨[], by simp, fun _ => by simp [Stmt.not_uses_nil], fun _ h => absurd h Stmt.not_call_nil⟩

theorem Accounts.trans (h : Accounts language d d') (h' : Accounts language d' d'') :
    Accounts language d d'' := by
  obtain ⟨added, hstatements, hrecord, hsupported⟩ := h
  obtain ⟨more, hstatements', hrecord', hsupported'⟩ := h'
  refine ⟨added ++ more, ?_, ?_, ?_⟩
  · rw [hstatements', hstatements, List.append_assoc]
  · intro f
    rw [hrecord', hrecord, Stmt.uses_append, or_assoc]
  · intro h hcall
    rcases Stmt.call_append.mp hcall with hcall | hcall
    · exact hsupported h hcall
    · exact hsupported' h hcall

/-- A successful build accounts for the features that it uses, and its result satisfies a
property. -/
def Accounting {α : Type} (language : Language) (m : Build Draft α) (result : α → Prop) : Prop :=
  ∀ d a d', m d = .ok a d' → Accounts language d d' ∧ result a

section

variable {α β : Type} {m : Build Draft α} {k : α → Build Draft β} {P : α → Prop} {Q : β → Prop}

theorem Accounting.pure {a : α} (ha : P a) : Accounting language (Pure.pure a) P := by
  intro d b d' h
  obtain ⟨rfl, rfl⟩ := Build.pure_eq_ok.mp h
  exact ⟨Accounts.refl d, ha⟩

theorem Accounting.refuse (cause : BuildFailure) :
    Accounting language (Build.refuse cause : Build Draft α) P := by
  intro d b d' h
  exact absurd h Build.refuse_ne_ok

theorem Accounting.bind (hm : Accounting language m P)
    (hk : ∀ a, P a → Accounting language (k a) Q) : Accounting language (m >>= k) Q := by
  intro d b d'' h
  obtain ⟨a, d', hma, hka⟩ := Build.bind_eq_ok.mp h
  obtain ⟨h₁, ha⟩ := hm d a d' hma
  obtain ⟨h₂, hb⟩ := hk a ha d' b d'' hka
  exact ⟨h₁.trans h₂, hb⟩

end

theorem has_of_record {f : Feature} {u : Unit} (h : record f d = .ok u d') :
    d'.statements = d.statements ∧
      ∀ k, d'.generation.usage.Has k ↔ d.generation.usage.Has k ∨ k = f := by
  cases f with
  | helper h =>
      cases h
      refine ⟨rfl, ?_⟩
      intro k
      cases k with
      | helper k =>
          have hk : Feature.helper k = .helper h ↔ k = h := by simp
          rw [hk]
          exact mem_insertLast
      | mocks => simp [Usage.Has, Generation.require, Usage.require]
  | mocks =>
      cases h
      refine ⟨rfl, ?_⟩
      intro k
      cases k <;> simp [Usage.Has, Generation.markMocks]

/-- A feature is put on record, and after further statements one is added that uses it. -/
theorem Accounts.use {f : Feature} {s : Stmt} {u : Unit} (hrecord : record f d = .ok u d')
    (hlanguage : ∀ h, f = .helper h → h.supported language = true)
    (hs : ∀ k, Mention.Uses s.mentions k ↔ k = f) (hrest : Accounts language d' d'') :
    Accounts language d { d'' with statements := d''.statements ++ [s] } := by
  obtain ⟨hkept, hfirst⟩ := has_of_record hrecord
  obtain ⟨added, hstatements, hthen, hsupported⟩ := hrest
  refine ⟨added ++ [s], ?_, ?_, ?_⟩
  · dsimp only at hstatements ⊢
    rw [hstatements, hkept, List.append_assoc]
  · intro k
    rw [Stmt.uses_append, Stmt.uses_singleton, hs]
    refine (hthen k).trans ?_
    rw [hfirst, or_assoc, or_comm (a := k = f)]
  · intro h hcall
    rcases Stmt.call_append.mp hcall with hcall | hcall
    · exact hsupported h hcall
    · have huse := Stmt.uses_singleton.mp (Stmt.uses_helper_iff.mpr hcall)
      exact hlanguage h ((hs _).mp huse).symm

section

variable {α β : Type} {m : Build Draft α} {k : α → Build Draft β} {P : α → Prop} {Q : β → Prop}
  {f : Feature}

/-- A feature is put on record, a build follows, and a statement is added that uses the feature. -/
theorem Accounting.use {s : α → Stmt}
    (hlanguage : ∀ h, f = .helper h → h.supported language = true)
    (hm : Accounting language m P)
    (hs : ∀ a, P a → ∀ k, Mention.Uses (s a).mentions k ↔ k = f)
    (hk : ∀ a, P a → Accounting language (k a) Q) :
    Accounting language
      (record f >>= fun _ => m >>= fun a => push (s a) >>= fun _ => k a) Q := by
  intro d b d'' hd
  obtain ⟨_, d₁, hrecord, hd⟩ := Build.bind_eq_ok.mp hd
  obtain ⟨a, d₂, hma, hd⟩ := Build.bind_eq_ok.mp hd
  obtain ⟨_, d₃, hpush, hd⟩ := Build.bind_eq_ok.mp hd
  cases hpush
  obtain ⟨hrest, ha⟩ := hm _ a d₂ hma
  obtain ⟨hmore, hb⟩ := hk a ha _ b d'' hd
  exact ⟨(Accounts.use hrecord hlanguage (hs a ha) hrest).trans hmore, hb⟩

/-- A feature is put on record, and a statement is added that uses it. -/
theorem Accounting.useNow {s : Stmt} (hlanguage : ∀ h, f = .helper h → h.supported language = true)
    (hs : ∀ k, Mention.Uses s.mentions k ↔ k = f) :
    Accounting language (record f >>= fun _ => push s) fun _ => True := by
  intro d u d' hd
  obtain ⟨_, d₁, hrecord, hpush⟩ := Build.bind_eq_ok.mp hd
  cases hpush
  exact ⟨Accounts.use hrecord hlanguage hs (Accounts.refl _), trivial⟩

end

theorem push_accounting {s : Stmt} (hs : ∀ f, ¬Mention.Uses s.mentions f) :
    Accounting language (push s) fun _ => True := by
  intro d u d' h
  cases h
  refine ⟨⟨[s], rfl, ?_, ?_⟩, trivial⟩
  · intro f
    simp only [Stmt.uses_singleton, hs f, or_false]
  · intro h hcall
    exact absurd (Stmt.uses_singleton.mp (Stmt.uses_helper_iff.mpr hcall)) (hs _)

theorem freshVariable_accounting (base : String) :
    Accounting language (freshVariable base) fun _ => True := by
  intro d name d' h
  cases h
  exact ⟨Accounts.refl d, trivial⟩

theorem takeVariables_accounting (language : Language) (names : List String) :
    Accounting language (takeVariables names) fun _ => True := by
  induction names with
  | nil => exact .pure trivial
  | cons base rest ih => exact (freshVariable_accounting base).bind fun _ _ => ih

section

attribute [local simp] Mention.feature? Stmt.mentions Expr.mentions Expr.mentionsOf

theorem declare_accounting (base : String) (type : DataType) {initial : Expr}
    (hinitial : initial.Silent) : Accounting language (declare base type initial) Expr.Silent := by
  refine (freshVariable_accounting base).bind fun name _ => ?_
  refine (push_accounting ?_).bind fun _ _ => .pure (Expr.silent_ref name)
  intro f
  have htype := type.not_uses_mentions f
  have hexpr := hinitial f
  simp [htype, hexpr]

/-- A feature is put on record, and a variable is declared whose value uses it. -/
theorem Accounting.declare {f : Feature} (base : String) (owner : ClassName) {initial : Expr}
    (hlanguage : ∀ h, f = .helper h → h.supported language = true)
    (hinitial : ∀ k, Mention.Uses initial.mentions k ↔ k = f) :
    Accounting language (record f >>= fun _ => Draft.declare base (.ofClass owner) initial)
      Expr.Silent := by
  refine Accounting.use hlanguage (freshVariable_accounting base) ?_ ?_
  · intro name _ k
    simp [hinitial, DataType.mentions]
  · intro name _
    exact .pure (Expr.silent_ref name)

theorem allocate_accounting (base : String) (owner : ClassName) :
    Accounting language (allocate language base owner) Expr.Silent := by
  simp only [allocate]
  split
  · next hjvm =>
    have hcreate : Helper.createInstance.supported language = true := by
      cases language <;> first | rfl | cases hjvm
    refine Accounting.declare (f := .helper .createInstance) base owner ?_ ?_
    · rintro h ⟨⟩
      exact hcreate
    · intro k
      cases language <;>
        simp_all [allocation, DataType.mentions, Expr.str, Literal.isNonFinite, Language.isJvm,
          eq_comm (b := k)]
  · next hjvm =>
    refine declare_accounting base _ ?_
    intro f
    cases language <;> simp_all [allocation, Language.isJvm]

mutual

theorem express_accounting (language : Language) (base : String) :
    ∀ v : Value, Accounting language (express language base v) Expr.Silent
  | .literal l => .pure (Expr.silent_literal l)
  | .enumConstant owner name => .pure (Expr.silent_staticField owner name)
  | .array element values => by
      refine (expressEach_accounting language _ 0 values).bind fun es hes => ?_
      exact declare_accounting base _ (Expr.silent_arrayOf element hes)
  | .composite owner arguments fields => by
      simp only [express]
      split
      · exact .refuse _
      · refine (expressEach_accounting language _ 0 arguments).bind fun es hes => ?_
        have hnew : (Expr.construct owner es).Silent := by
          intro f
          have hvalues := Expr.not_uses_mentionsOf hes f
          simp [hvalues]
        refine (declare_accounting base _ hnew).bind fun object hobject => ?_
        refine (writeFields_accounting language _ hobject ?_ fields).bind fun _ _ => .pure hobject
        intro h
        cases h
  | .reflective owner fields => by
      refine (allocate_accounting base owner).bind fun object hobject => ?_
      refine (writeFields_accounting language _ hobject ?_ fields).bind fun _ _ => .pure hobject
      intro h
      cases language <;> first | rfl | cases h
  | .mock owner stubs => by
      simp only [express]
      split
      · rw [← bind_assoc]
        refine (Accounting.declare (f := .mocks) base owner ?_ ?_).bind fun object hobject => ?_
        · intro h hh
          cases hh
        · intro k
          simp [eq_comm]
        · exact (addStubs_accounting language hobject stubs).bind fun _ _ => .pure hobject
      · exact .refuse _

theorem expressEach_accounting (language : Language) (base : Nat → String) (index : Nat) :
    ∀ vs : List Value, Accounting language (expressEach language base index vs)
      fun es => ∀ e ∈ es, e.Silent
  | [] => .pure (by simp)
  | v :: rest => by
      refine (express_accounting language (base index) v).bind fun e he => ?_
      refine (expressEach_accounting language base (index + 1) rest).bind fun es hes => ?_
      exact .pure (by simpa using ⟨he, hes⟩)

theorem writeFields_accounting (language : Language) (way : FieldWriting) {object : Expr}
    (hobject : object.Silent)
    (hway : way = .helper → Helper.setField.supported language = true) :
    ∀ fields : List Field,
      Accounting language (writeFields language way object fields) fun _ => True
  | [] => .pure trivial
  | .mk name v :: rest => by
      have hvalue := express_accounting language name v
      have hrest := writeFields_accounting language way hobject hway rest
      simp only [writeFields]
      cases way with
      | assignment =>
          refine Accounting.bind (P := fun _ => True) (.pure trivial) fun _ _ => ?_
          refine hvalue.bind fun e he => ?_
          refine (push_accounting ?_).bind fun _ _ => hrest
          intro f
          simp [FieldWriting.statement, hobject f, he f]
      | helper =>
          refine Accounting.use (f := .helper .setField) ?_ hvalue ?_ fun _ _ => hrest
          · rintro h ⟨⟩
            exact hway rfl
          · intro e he k
            simp [FieldWriting.statement, Expr.str, Literal.isNonFinite, hobject k, he k,
              eq_comm (b := k)]
      | setattr =>
          refine Accounting.bind (P := fun _ => True) (.pure trivial) fun _ _ => ?_
          refine hvalue.bind fun e he => ?_
          refine (push_accounting ?_).bind fun _ _ => hrest
          intro f
          simp [FieldWriting.statement, Expr.str, Literal.isNonFinite, hobject f, he f]

theorem addStubs_accounting (language : Language) {object : Expr} (hobject : object.Silent) :
    ∀ stubs : List Stub,
      Accounting language (addStubs language object stubs) fun _ => True
  | [] => .pure trivial
  | .mk method arguments returns :: rest => by
      simp only [addStubs]
      refine (expressEach_accounting language _ 0 arguments).bind fun es hes => ?_
      refine (express_accounting language (method ++ "Result") returns).bind fun e he => ?_
      refine (push_accounting ?_).bind fun _ _ => addStubs_accounting language hobject rest
      intro f
      have hvalues := Expr.not_uses_mentionsOf hes f
      simp [Stubbing.mentions, hobject f, hvalues, he f]

end

theorem checkCount_accounting (e : Executable) (run : Execution) :
    Accounting language (checkCount e run) fun _ => True := by
  simp only [checkCount]
  split
  · exact .pure trivial
  · exact .refuse _

theorem targetOfRun_accounting (e : Executable) (run : Execution) :
    Accounting language (targetOfRun language e run) Expr.Silent := by
  simp only [targetOfRun]
  cases e.kind with
  | method =>
      cases run.receiver with
      | some v => exact express_accounting language _ v
      | none => exact .refuse _
  | constructor =>
      dsimp only
      split
      · exact .refuse _
      · exact .pure Expr.silent_null
  | staticMethod => exact .pure Expr.silent_null
  | function => exact .pure Expr.silent_null

theorem callOfRun_accounting (e : Executable) (names : List String) (run : Execution) :
    Accounting language (callOfRun language e names run) Expr.Silent := by
  refine (checkCount_accounting e run).bind fun _ _ => ?_
  refine (targetOfRun_accounting e run).bind fun target htarget => ?_
  refine (expressEach_accounting language _ 0 run.arguments).bind fun arguments harguments => ?_
  exact .pure (Executable.silent_call htarget harguments)

theorem staticStubbings_accounting (stubs : List StaticStub) :
    Accounting language (staticStubbings language stubs)
      fun stubbings => ∀ f, ¬Mention.Uses (Stubbing.mentionsOf stubbings) f := by
  induction stubs with
  | nil => exact .pure (by simp [Stubbing.mentionsOf])
  | cons s rest ih =>
      refine (express_accounting language _ s.returns).bind fun e he => ?_
      refine ih.bind fun stubbings hstubbings => .pure ?_
      intro f
      simp [Stubbing.mentionsOf, Stubbing.mentions, he f, hstubbings f]

theorem staticScopes_accounting (groups : List (ClassName × List StaticStub)) :
    Accounting language (staticScopes language groups) fun scopes =>
      (∀ scope ∈ scopes, ∀ f, ¬Mention.Uses (Stubbing.mentionsOf scope.stubbings) f) ∧
        (scopes ≠ [] ↔ groups ≠ []) := by
  induction groups with
  | nil => exact .pure (by simp)
  | cons group rest ih =>
      refine (staticStubbings_accounting group.2).bind fun stubbings hstubbings => ?_
      refine (freshVariable_accounting _).bind fun handle _ => ih.bind fun scopes hscopes => ?_
      refine .pure ⟨?_, by simp⟩
      intro scope hscope
      rcases List.mem_cons.mp hscope with rfl | hscope
      · exact hstubbings
      · exact hscopes.1 scope hscope

theorem declareActual_accounting (e : Executable) {call : Expr} (hcall : call.Silent) :
    Accounting language (declareActual e call) Expr.Silent := by
  refine (declare_accounting _ _ hcall).bind fun actual hactual => ?_
  refine (push_accounting ?_).bind fun _ _ => .pure hactual
  intro f
  simp

/-- The languages whose assertions leave a comparison to the helper have it. -/
theorem supported_of_comparedByHelper {v : Value} (h : v.comparedByHelper language = true) :
    Helper.deepEquals.supported language = true := by
  cases language <;> first | rfl | cases h

theorem DataType.supported_of_comparedByHelper {t : DataType}
    (h : t.comparedByHelper language = true) : Helper.deepEquals.supported language = true := by
  cases language <;> first | rfl | (cases t <;> cases h)

/-- The assertion that the helper for comparisons makes. -/
theorem deepEquals_accounting (hlanguage : Helper.deepEquals.supported language = true)
    {expected actual : Expr} (hexpected : expected.Silent) (hactual : actual.Silent) :
    Accounting language
      (require .deepEquals >>= fun _ =>
        push (.assertTrue (.callHelper .deepEquals [expected, actual]))) fun _ => True := by
  refine Accounting.useNow (f := .helper .deepEquals) ?_ ?_
  · rintro h ⟨⟩
    exact hlanguage
  · intro k
    simp [hactual k, hexpected k, eq_comm (b := k)]

theorem assertEqual_accounting (v : Value) {actual : Expr} (hactual : actual.Silent) :
    Accounting language (assertEqual language v actual) fun _ => True := by
  refine (express_accounting language _ v).bind fun expected hexpected => ?_
  split
  · next hcompared =>
    exact deepEquals_accounting (supported_of_comparedByHelper hcompared) hexpected hactual
  · refine push_accounting ?_
    intro f
    simp [hactual f, hexpected f]

theorem checkResult_accounting (e : Executable) {call : Expr} (hcall : call.Silent)
    (check : ResultCheck) : Accounting language (checkResult language e call check)
      fun _ => True := by
  cases check with
  | ignored =>
      refine push_accounting ?_
      intro f
      simp [hcall f]
  | isNull =>
      refine (declareActual_accounting e hcall).bind fun actual hactual => push_accounting ?_
      intro f
      simp [hactual f]
  | isNaN =>
      refine (declareActual_accounting e hcall).bind fun actual hactual => push_accounting ?_
      intro f
      simp [hactual f]
  | equals v =>
      refine (declareActual_accounting e hcall).bind fun actual hactual => ?_
      exact assertEqual_accounting v hactual

theorem checkOutcome_accounting (config : Config) (e : Executable) (run : Execution) {call : Expr}
    (hcall : call.Silent) :
    Accounting config.language (checkOutcome config e run call) fun _ => True := by
  have heval : Accounting config.language (push (.eval call)) fun _ => True := by
    refine push_accounting ?_
    intro f
    simp [hcall f]
  have hcomment : ∀ text, Accounting config.language (push (.comment text)) fun _ => True := by
    intro text
    refine push_accounting ?_
    intro f
    simp
  simp only [checkOutcome]
  cases run.outcome with
  | success value => exact checkResult_accounting e hcall _
  | runtimeFailure exception message kind =>
      dsimp only
      split
      · refine push_accounting ?_
        intro f
        simp [Stmt.mentionsOf, hcall f]
      · exact (hcomment _).bind fun _ _ => heval
  | timeout limit =>
      dsimp only
      split
      · exact (hcomment _).bind fun _ _ => heval
      · exact heval
  | crash reason => exact (hcomment _).bind fun _ _ => heval

theorem cellExpr_accounting (e : Executable) (run : Execution) (c : Column) :
    Accounting language (cellExpr language e run c) Expr.Silent := by
  simp only [cellExpr]
  cases run.cell c.role with
  | value v => exact express_accounting language _ v
  | exception owner => exact .pure (Expr.silent_classOf owner)
  | absent =>
      dsimp only
      split
      · exact .refuse _
      · exact .pure Expr.silent_null

theorem cellExprs_accounting (e : Executable) (run : Execution) (columns : List Column) :
    Accounting language (cellExprs language e run columns) fun es => ∀ x ∈ es, x.Silent := by
  induction columns with
  | nil => exact .pure (by simp)
  | cons c rest ih =>
      refine (cellExpr_accounting e run c).bind fun x hx => ih.bind fun xs hxs => ?_
      exact .pure (by simpa using ⟨hx, hxs⟩)

theorem tableRows_accounting (e : Executable) (columns : List Column) (rows : List Execution) :
    Accounting language (tableRows language e columns rows) fun es => ∀ x ∈ es, x.Silent := by
  induction rows with
  | nil => exact .pure (by simp)
  | cons run rest ih =>
      refine (checkCount_accounting e run).bind fun _ _ => ?_
      refine (cellExprs_accounting e run columns).bind fun xs hxs => ih.bind fun rows hrows => ?_
      have hrow := Expr.silent_arrayOf .any hxs
      exact .pure (by simpa using ⟨hrow, hrows⟩)

theorem assertExpected_accounting (returnType : DataType) {expected actual : Expr}
    (hexpected : expected.Silent) (hactual : actual.Silent) :
    Accounting language (assertExpected language returnType expected actual) fun _ => True := by
  simp only [assertExpected]
  split
  · next hcompared =>
    exact deepEquals_accounting (DataType.supported_of_comparedByHelper hcompared) hexpected
      hactual
  · split
    · next p _ =>
      refine push_accounting ?_
      intro f
      cases p <;>
        simp [Primitive.isFloating, DataType.mentions, hactual f, hexpected f]
    all_goals
      refine push_accounting ?_
      intro f
      simp [hactual f, hexpected f]

end

end Draft

theorem Column.silent_of_reference? {columns : List Column} {role : ColumnRole} {x : Expr}
    (h : reference? columns role = some x) : x.Silent := by
  obtain ⟨c, -, rfl⟩ := Option.map_eq_some_iff.mp h
  exact Expr.silent_ref _

theorem Column.silent_receiver (columns : List Column) :
    ((reference? columns .receiver).getD .null).Silent := by
  cases h : reference? columns .receiver with
  | none => exact Expr.silent_null
  | some x => exact silent_of_reference? h

theorem Column.silent_argumentRefs {columns : List Column} :
    ∀ x ∈ argumentRefs columns, x.Silent := by
  intro x hx
  obtain ⟨c, -, hc⟩ := List.mem_filterMap.mp hx
  split at hc
  · cases hc
    exact Expr.silent_ref _
  · cases hc

theorem Draft.silent_callOfRow (e : Executable) (columns : List Column) :
    (callOfRow e columns).Silent :=
  Executable.silent_call (Column.silent_receiver columns) Column.silent_argumentRefs

section

attribute [local simp] Mention.feature? Stmt.mentions Stmt.mentionsOf Expr.mentions

theorem Draft.checkRow_accounting {language : Language} (e : Executable) (columns : List Column) :
    Accounting language (checkRow language e columns) fun _ => True := by
  have hcall := silent_callOfRow e columns
  simp only [checkRow]
  split
  · next expected hexpected =>
    refine (declareActual_accounting e hcall).bind fun actual hactual => ?_
    exact assertExpected_accounting _ (Column.silent_of_reference? hexpected) hactual
  · refine push_accounting ?_
    intro f
    simp [hcall f]

theorem Draft.uses_branchOnError {e : Executable} {columns : List Column} {success : List Stmt}
    {f : Feature} : Stmt.Uses (branchOnError e columns success) f ↔ Stmt.Uses success f := by
  have hcall := silent_callOfRow e columns f
  simp only [branchOnError]
  split
  · next error herror =>
    have hsilent := Column.silent_of_reference? herror f
    have hnull := Expr.silent_null f
    simp [Stmt.Uses, hsilent, hnull, hcall]
  · exact Iff.rfl

end

/-! ## Records of finished bodies -/

namespace Draft

/-- What a generation records while a body is built is what the body uses. -/
def Records (language : Language) (g : Generation) (d : Draft) (body : List Stmt) : Prop :=
  (∀ f, d.generation.usage.Has f ↔ g.usage.Has f ∨ Stmt.Uses body f) ∧
    ∀ h, Stmt.Call body h → h.supported language = true

variable {language : Language} {g : Generation} {d d' : Draft} {body body' : List Stmt}

theorem Records.start (language : Language) (g : Generation) :
    Records language g (Draft.start g) [] := by
  refine ⟨fun f => ?_, fun h hcall => absurd hcall Stmt.not_call_nil⟩
  exact (or_iff_left Stmt.not_uses_nil).symm

theorem Records.congr (h : Records language g d body)
    (hbody : ∀ f, Stmt.Uses body' f ↔ Stmt.Uses body f) : Records language g d body' := by
  constructor
  · intro f
    rw [hbody]
    exact h.1 f
  · intro k hk
    exact h.2 k (Stmt.uses_helper_iff.mp ((hbody _).mp (Stmt.uses_helper_iff.mpr hk)))

/-- The statements so far are taken away, and a build goes on. -/
theorem Records.goOn (h : Records language g d body)
    (hmore : Accounts language { d with statements := [] } d') :
    Records language g d' (body ++ d'.statements) := by
  obtain ⟨added, hstatements, hrecord, hsupported⟩ := hmore
  rw [List.nil_append] at hstatements
  constructor
  · intro f
    rw [hstatements, Stmt.uses_append, ← or_assoc, ← h.1 f]
    exact hrecord f
  · intro k hk
    rw [hstatements] at hk
    rcases Stmt.call_append.mp hk with hk | hk
    · exact h.2 k hk
    · exact hsupported k hk

theorem has_of_markStatics {stubs : List (ClassName × List StaticStub)} {u : Unit}
    (h : markStatics stubs d = .ok u d') :
    d'.statements = d.statements ∧
      ∀ f, d'.generation.usage.Has f ↔
        d.generation.usage.Has f ∨ (stubs ≠ [] ∧ f = .mocks) := by
  simp only [markStatics] at h
  split at h
  · next hempty =>
    obtain ⟨-, rfl⟩ := Build.pure_eq_ok.mp h
    simp_all
  · next hempty =>
    obtain ⟨hstatements, hrecord⟩ := has_of_record (f := .mocks) h
    refine ⟨hstatements, ?_⟩
    intro f
    rw [hrecord]
    simp_all

/-- Scopes of mocked static methods go around a later part of the body than the one that is written
when they are put on record. -/
theorem Records.enclose {d₁ d₂ d₃ : Draft} {scopes : List StaticScope}
    (hcall : Accounts language (Draft.start g) d₁) (hkept : d₂.statements = d₁.statements)
    (hmark : ∀ f, d₂.generation.usage.Has f ↔
      d₁.generation.usage.Has f ∨ (scopes ≠ [] ∧ f = .mocks))
    (hscopes : Accounts language d₂ d₃)
    (hsilent : ∀ scope ∈ scopes, ∀ f, ¬Mention.Uses (Stubbing.mentionsOf scope.stubbings) f)
    (hact : Accounts language { d₃ with statements := [] } d') :
    Records language g d' (apart d₃.statements (StaticScope.enclose scopes d'.statements)) := by
  obtain ⟨first, hfirst, hrecord₁, hsupported₁⟩ := hcall
  obtain ⟨stubs, hstubs, hrecord₃, hsupported₃⟩ := hscopes
  obtain ⟨act, hact, hrecord, hsupported⟩ := hact
  have hbody : ∀ f, Stmt.Uses (apart d₃.statements (StaticScope.enclose scopes d'.statements)) f ↔
      (Stmt.Uses first f ∨ Stmt.Uses stubs f) ∨ (scopes ≠ [] ∧ f = .mocks) ∨ Stmt.Uses act f := by
    intro f
    rw [Stmt.uses_apart, Stmt.uses_enclose fun scope hscope => hsilent scope hscope f, hstubs,
      hkept, hfirst, hact, Stmt.uses_append, List.nil_append]
    rfl
  constructor
  · intro f
    rw [hbody, hrecord]
    change (d₃.generation.usage.Has f ∨ _) ↔ _
    rw [hrecord₃, hmark, hrecord₁]
    change (((g.usage.Has f ∨ _) ∨ _) ∨ _) ∨ _ ↔ _
    grind
  · intro h hcall
    rcases (hbody _).mp (Stmt.uses_helper_iff.mpr hcall) with (hh | hh) | ⟨-, hh⟩ | hh
    · exact hsupported₁ h (Stmt.uses_helper_iff.mp hh)
    · exact hsupported₃ h (Stmt.uses_helper_iff.mp hh)
    · cases hh
    · exact hsupported h (Stmt.uses_helper_iff.mp hh)

theorem bodyOfRun_records {config : Config} {e : Executable} {run : Execution}
    (h : bodyOfRun config e run (start g) = .ok body d) : Records config.language g d body := by
  obtain ⟨call, d₁, d₂, scopes, d₃, d₅, hcall, hmark, hscopes, houtcome, rfl, rfl⟩ :=
    exists_drafts_of_bodyOfRun_ok h
  obtain ⟨h₁, hsilent⟩ := callOfRun_accounting e _ run _ _ _ hcall
  obtain ⟨hkept, hmarked⟩ := has_of_markStatics hmark
  obtain ⟨h₃, hstubs, hempty⟩ := staticScopes_accounting _ _ _ _ hscopes
  obtain ⟨h₅, -⟩ := checkOutcome_accounting config e run hsilent _ _ _ houtcome
  simp only [← hempty] at hmarked
  exact Records.enclose h₁ hkept hmarked h₃ hstubs h₅

theorem providerBody_records {e : Executable} {columns : List Column} {rows : List Execution}
    (h : providerBody language e columns rows (start g) = .ok body d) :
    Records language g d body := by
  obtain ⟨exprs, d₁, hrows, rfl, rfl⟩ := exists_rows_of_providerBody_ok h
  obtain ⟨haccounts, hsilent⟩ := tableRows_accounting e columns rows _ _ _ hrows
  refine ((Records.start language g).goOn haccounts).congr ?_
  intro f
  have hvalues := Expr.silent_arrayOf (.array .any) hsilent f
  rw [Stmt.uses_apart, Stmt.uses_singleton, List.nil_append]
  simp [Stmt.mentions, hvalues]

theorem tableBody_records {e : Executable} {columns : List Column}
    (h : tableBody language e columns (start g) = .ok body d) : Records language g d body := by
  obtain ⟨d₁, d₂, hnames, hcheck, rfl, rfl⟩ := exists_drafts_of_tableBody_ok h
  obtain ⟨h₁, -⟩ := takeVariables_accounting language _ _ _ _ hnames
  obtain ⟨h₂, -⟩ := checkRow_accounting e columns _ _ _ hcheck
  refine ((Records.start language g).goOn (h₁.trans h₂)).congr ?_
  intro f
  rw [List.nil_append]
  exact uses_branchOnError

end Draft

end TestWriter
