import TestWriter.Proofs.CharLiterals
import TestWriter.Proofs.Expressible
import TestWriter.Proofs.PrintedNames
import TestWriter.Proofs.ShownNames

/-!
# Literals that tests show

A value is written by statements and an expression, and its literals are scattered over them.  Main
statements: a built test shows every literal of its evidence, however deep in a value; the literal
of a character is read back in a language of the JVM exactly when the character is a single code
unit, and a test with any other character is written all the same.
-/

namespace TestWriter

open Layout Target Layout.Rendering

/-! ## Dialects -/

namespace Target

/-- Some literal in a value is written with a step. -/
def Dialect.WritesIn (d : Dialect) (step : Step) (v : Value) : Prop :=
  ∃ l, Value.Occurs (.literal l) v ∧ step ∈ d.literal l

/-- Kotlin shows what its parts show. -/
theorem Kotlin.showsParts (s : Surroundings) : (dialect s).ShowsNames fun _ _ => False where
  nonFinite step h := h
  helper h step hstep := hstep.elim
  construct owner rs step h := by
    obtain ⟨r, hr, hshows⟩ := h.resolve_left id
    exact shows_left (shows_right (shows_commas hr hshows))
  callOn e r method rs step h := by
    refine h.elim (fun h => shows_left (shows_left ?_)) fun ⟨r, hr, h⟩ => shows_right ?_
    · split
      · exact shows_left (shows_right h)
      · exact h
    · exact shows_left (shows_right (shows_commas hr h))
  callStatic owner method rs step h := by
    obtain ⟨r, hr, hshows⟩ := h.resolve_left id
    have harguments := shows_commas hr hshows
    dsimp only [dialect]
    split
    · exact shows_left (shows_right harguments)
    · exact shows_right (shows_left (shows_right harguments))
  callModule module name rs step h := by
    obtain ⟨r, hr, hshows⟩ := h.resolve_left id
    exact shows_left (shows_right (shows_commas hr hshows))
  staticField owner name step h := h.elim
  arrayOf t onLines rs step h := by
    have helements := shows_elements onLines (h.resolve_left fun ⟨x, _, hx⟩ => hx)
    exact shows_left (shows_right helements)
  equal r e r' step h := h.elim (fun h => shows_left (shows_left h)) shows_right
  cast t r step h := by
    have hoperand := h.resolve_left fun ⟨x, _, hx⟩ => hx
    iterate 3 apply shows_left
    exact shows_right hoperand
  classOf owner step h := h.elim
  mock owner step h := (h.elim id id).elim
  declare name t r step h :=
    shows_left (shows_right (h.resolve_left fun ⟨x, _, hx⟩ => hx))
  branch r b b' step hb' h := by
    refine shows_bracedBranch (fun b h => shows_nest h) hb' (h.imp_left fun h => ?_)
    exact shows_left (shows_right h)
  stub r f step h := by
    rcases h.resolve_left id with h | ⟨r, hr, h⟩ | h
    · iterate 5 apply shows_left
      exact shows_right h
    · iterate 3 apply shows_left
      exact shows_right (shows_left (shows_right (shows_commas hr h)))
    · exact shows_left (shows_right h)
  mockedStatic handle owner fs r step h := by
    rcases h with h | ⟨f, hf, h⟩ | h
    · exact (h.elim id fun h => h.elim id id).elim
    · refine shows_left (shows_right (shows_nest (shows_left ?_)))
      refine shows_concat (List.mem_map_of_mem hf) ?_
      rcases h with ⟨r, hr, h⟩ | h
      · iterate 3 apply shows_left
        exact shows_right (shows_left (shows_right (shows_commas hr h)))
      · exact shows_left (shows_right h)
    · exact shows_left (shows_right (shows_nest (shows_right h)))
  assertEquals r r' delta deep step h := by
    iterate 2 apply shows_left
    exact shows_right (Java.shows_equalityArguments (h.resolve_left id))
  assertTrue r step h := shows_left (shows_right (h.resolve_left id))
  assertNull r step h := shows_left (shows_right (h.resolve_left id))
  assertThrows r b step h := by
    rcases h.resolve_left id with h | h
    · iterate 3 apply shows_left
      exact shows_right h
    · exact shows_left (shows_right (shows_nest h.1))

theorem Dialect.mem_stubForms {d : Dialect} {b : Stubbing} {bs : List Stubbing} (hb : b ∈ bs) :
    d.stubForm b ∈ d.stubForms bs := by
  induction bs with
  | nil => cases hb
  | cons first rest ih =>
      rcases List.mem_cons.mp hb with rfl | hb
      · exact List.mem_cons_self
      · exact List.mem_cons_of_mem _ (ih hb)

/-- Some of the statements shows a step. -/
def Dialect.ShowsIn (d : Dialect) (step : Step) (body : List Stmt) : Prop :=
  ∃ s ∈ body, (d.stmt s).Shows step

end Target

/-! ## Builds that show what they are given -/

namespace Draft

section

variable {α β : Type} {d : Dialect} {step : Step} {m : Build Draft α} {f : α → Build Draft β}
  {P Q : Prop} {R : α → Prop} {S : β → Prop}

/-- What is given to a build, or shown by the statements before it, is shown by the statements after
it or by its result. -/
def Brings (d : Dialect) (step : Step) (m : Build Draft α) (given : Prop) (result : α → Prop) :
    Prop :=
  ∀ before a after, m before = .ok a after → given ∨ d.ShowsIn step before.statements →
    d.ShowsIn step after.statements ∨ result a

theorem Brings.pure {a : α} (h : P → R a) : Brings d step (Pure.pure a) P R := by
  intro before b after hb hgiven
  obtain ⟨rfl, rfl⟩ := Build.pure_eq_ok.mp hb
  exact hgiven.symm.imp_right h

theorem Brings.refuse (cause : BuildFailure) :
    Brings d step (Build.refuse cause : Build Draft α) P R :=
  fun _ _ _ h => absurd h Build.refuse_ne_ok

theorem Brings.weaken (hm : Brings d step m P R) (h : Q → P) : Brings d step m Q R :=
  fun before a after hma hgiven => hm before a after hma (hgiven.imp_left h)

/-- What shows nothing may be thought to show anything. -/
theorem Brings.of_false (hm : Brings d step m P fun _ => False) : Brings d step m P R :=
  fun before a after hma hgiven => (hm before a after hma hgiven).imp_right False.elim

/-- The first part takes up some of what is given, and the rest takes up the other and the result of
the first part. -/
theorem Brings.bind (hm : Brings d step m P R) (hf : ∀ a, Brings d step (f a) (R a ∨ Q) S) :
    Brings d step (m >>= f) (P ∨ Q) S := by
  intro before b after h hgiven
  obtain ⟨a, middle, hma, hfa⟩ := Build.bind_eq_ok.mp h
  refine hf a middle b after hfa ?_
  rcases hgiven with (hfirst | hlater) | hshown
  · exact (hm before a middle hma (Or.inl hfirst)).symm.imp_left Or.inl
  · exact Or.inl (Or.inr hlater)
  · exact (hm before a middle hma (Or.inr hshown)).symm.imp_left Or.inl

/-- All that is given is shown by the first part, or goes on as its result. -/
theorem Brings.andThen (hm : Brings d step m P R) (hf : ∀ a, Brings d step (f a) (R a) S) :
    Brings d step (m >>= f) P S :=
  (hm.bind (Q := False) fun a => (hf a).weaken fun h => h.resolve_right id).weaken Or.inl

/-- The result of the first part shows nothing. -/
theorem Brings.both (hm : Brings d step m P fun _ => False) (hf : ∀ a, Brings d step (f a) Q S) :
    Brings d step (m >>= f) (P ∨ Q) S :=
  hm.bind fun a => (hf a).weaken fun h => h.resolve_left id

/-- A part to which nothing is given may come first. -/
theorem Brings.after (hm : Brings d step m False fun _ => False)
    (hf : ∀ a, Brings d step (f a) P S) : Brings d step (m >>= f) P S :=
  (hm.both hf).weaken Or.inr

/-- A step that takes no statement away. -/
theorem Brings.silent
    (h : ∀ before a after, m before = .ok a after → after.statements = before.statements) :
    Brings d step m False fun _ => False := by
  intro before a after hma hgiven
  rw [h before a after hma]
  exact Or.inl (hgiven.resolve_left id)

end

section

variable {d : Dialect} {step : Step}

theorem push_brings (s : Stmt) :
    Brings d step (push s) ((d.stmt s).Shows step) fun _ => False := by
  intro before u after h hgiven
  cases h
  refine Or.inl (hgiven.elim (fun h => ?_) fun ⟨t, ht, hshows⟩ => ?_)
  · exact ⟨s, List.mem_append_right _ (List.mem_singleton_self _), h⟩
  · exact ⟨t, List.mem_append_left _ ht, hshows⟩

theorem freshVariable_brings (base : String) :
    Brings d step (freshVariable base) False fun _ => False := by
  refine .silent fun before name after h => ?_
  cases h
  rfl

theorem require_brings (h : Helper) : Brings d step (require h) False fun _ => False := by
  refine .silent fun before u after hok => ?_
  cases hok
  rfl

theorem markMocks_brings : Brings d step markMocks False fun _ => False := by
  refine .silent fun before u after h => ?_
  cases h
  rfl

theorem announce_brings (way : FieldWriting) :
    Brings d step way.announce False fun _ => False := by
  cases way with
  | helper => exact require_brings _
  | assignment => exact .pure id
  | setattr => exact .pure id

theorem checkCount_brings (e : Executable) (run : Execution) :
    Brings d step (checkCount e run) False fun _ => False := by
  simp only [checkCount]
  split
  · exact .pure id
  · exact .refuse _

theorem markStatics_brings (stubs : List (ClassName × List StaticStub)) :
    Brings d step (markStatics stubs) False fun _ => False := by
  simp only [markStatics]
  split
  · exact .pure id
  · exact markMocks_brings

end

/-! ### Values -/

section

variable {d : Dialect} {step : Step} {wanted : Mention → Step → Prop} (hd : d.ShowsNames wanted)

include hd

/-- A declaration shows its value, and its variable nothing. -/
theorem declare_brings (base : String) (type : DataType) (initial : Expr) :
    Brings d step (declare base type initial) ((d.expr initial).Shows step) fun _ => False := by
  refine (freshVariable_brings base).after fun name => ?_
  refine ((push_brings _).weaken fun h => ?_).andThen fun _ => .pure False.elim
  exact shows_right (hd.declare name type _ _ (Or.inr h))

theorem shows_statement (way : FieldWriting) {object value : Expr} (name : String)
    (h : (d.expr value).Shows step) : (d.stmt (way.statement object name value)).Shows step := by
  have hlast : ∃ r ∈ d.exprs [object, .str name, value], r.Shows step :=
    ⟨_, Dialect.mem_exprs (by simp), h⟩
  cases way with
  | assignment => exact shows_left (shows_right h)
  | helper => exact shows_left (shows_right (Dialect.shows_callHelper (Or.inr hlast)))
  | setattr => exact shows_left (shows_right (hd.callModule _ _ _ _ (Or.inr hlast)))

theorem allocate_brings (language : Language) (base : String) (owner : ClassName) :
    Brings d step (allocate language base owner) False fun _ => False := by
  have hdeclare : Brings d step (declare base (.ofClass owner) (allocation language owner)) False
      fun _ => False :=
    (declare_brings hd base _ _).weaken False.elim
  simp only [allocate]
  split
  · exact (require_brings _).after fun _ => hdeclare
  · exact hdeclare

/-- A variable for an object shows what its constructor is given. -/
theorem newObject_brings (base : String) (owner : ClassName) (es : List Expr) :
    Brings d step (declare base (.ofClass owner) (.construct owner es))
      (∃ e ∈ es, (d.expr e).Shows step) fun _ => False :=
  (declare_brings hd base _ _).weaken fun ⟨_, he, hshows⟩ =>
    hd.construct owner _ _ (Or.inr ⟨_, Dialect.mem_exprs he, hshows⟩)

theorem newArray_brings (base : String) (element : DataType) (es : List Expr) :
    Brings d step (declare base (.array element) (.arrayOf element es))
      (∃ e ∈ es, (d.expr e).Shows step) fun _ => False :=
  (declare_brings hd base _ _).weaken fun ⟨_, he, hshows⟩ =>
    hd.arrayOf element _ _ _ (Or.inr ⟨_, Dialect.mem_exprs he, hshows⟩)

/-- The stubbing of a method shows its arguments and its result. -/
theorem stub_brings (object : Expr) (method : String) (es : List Expr) (returns : Expr) :
    Brings d step (push (.stub object (.mk method es returns)))
      ((d.expr returns).Shows step ∨ ∃ e ∈ es, (d.expr e).Shows step) fun _ => False := by
  refine (push_brings _).weaken fun h => shows_right (hd.stub _ _ _ (Or.inr (Or.inr ?_)))
  exact h.symm.imp_left fun ⟨_, he, hshows⟩ => ⟨_, Dialect.mem_exprs he, hshows⟩

end

section

variable {d : Dialect} {step : Step} {wanted : Mention → Step → Prop}

mutual

/-- The literals of a value are shown by its statements or by its expression. -/
theorem express_brings (hd : d.ShowsNames wanted) (language : Language) (base : String) :
    ∀ v : Value, Brings d step (express language base v) (d.WritesIn step v)
      fun x => (d.expr x).Shows step
  | .literal l => .pure fun ⟨l', hoccurs, hstep⟩ => by
      cases hoccurs
      exact shows_ok hstep
  | .enumConstant owner name => .pure fun ⟨l, hoccurs, _⟩ => by cases hoccurs
  | .array element values => by
      have hvalues := expressEach_brings hd language (fun _ => base ++ "Element") 0 values
      refine (hvalues.andThen fun es => (newArray_brings hd base element es).of_false).weaken
        fun ⟨l, hoccurs, hstep⟩ => ?_
      cases hoccurs with
      | element hv hoccurs => exact ⟨_, hv, l, hoccurs, hstep⟩
  | .composite owner arguments fields => by
      simp only [express]
      split
      · exact .refuse _
      · have harguments :=
          expressEach_brings hd language (fun i => base ++ "Arg" ++ toString i) 0 arguments
        have hfields := fun object => writeFields_brings hd language .assignment object fields
        refine (harguments.bind fun es => (newObject_brings hd base owner es).both
          fun object => (hfields object).andThen fun _ => .pure False.elim).weaken
            fun ⟨l, hoccurs, hstep⟩ => ?_
        cases hoccurs with
        | argument hv hoccurs => exact Or.inl ⟨_, hv, l, hoccurs, hstep⟩
        | field hv hoccurs => exact Or.inr ⟨_, _, hv, l, hoccurs, hstep⟩
  | .reflective owner fields => by
      have hfields := fun object =>
        writeFields_brings hd language (.withoutConstructor language) object fields
      refine ((allocate_brings hd language base owner).after fun object =>
        (hfields object).andThen fun _ => .pure False.elim).weaken
          fun ⟨l, hoccurs, hstep⟩ => ?_
      cases hoccurs with
      | reflectiveField hv hoccurs => exact ⟨_, _, hv, l, hoccurs, hstep⟩
  | .mock owner stubs => by
      simp only [express]
      split
      · have hobject : Brings d step (declare base (.ofClass owner) (.mock owner)) False
            fun _ => False :=
          (declare_brings hd base _ _).weaken False.elim
        have hstubs := fun object => addStubs_brings hd language object stubs
        refine (markMocks_brings.after fun _ => hobject.after fun object =>
          (hstubs object).andThen fun _ => .pure False.elim).weaken
            fun ⟨l, hoccurs, hstep⟩ => ?_
        cases hoccurs with
        | stubArgument hs hv hoccurs => exact ⟨_, _, _, hs, Or.inl ⟨_, hv, l, hoccurs, hstep⟩⟩
        | stubResult hs hoccurs => exact ⟨_, _, _, hs, Or.inr ⟨l, hoccurs, hstep⟩⟩
      · exact .refuse _

theorem expressEach_brings (hd : d.ShowsNames wanted) (language : Language) (base : Nat → String)
    (index : Nat) :
    ∀ vs : List Value, Brings d step (expressEach language base index vs)
      (∃ v ∈ vs, d.WritesIn step v) fun es => ∃ e ∈ es, (d.expr e).Shows step
  | [] => .pure fun ⟨v, hv, _⟩ => absurd hv List.not_mem_nil
  | v :: rest => by
      have hrest := expressEach_brings hd language base (index + 1) rest
      refine ((express_brings hd language (base index) v).bind fun e =>
        (hrest.bind fun es => .pure fun h => ?_).weaken Or.symm).weaken fun ⟨w, hw, h⟩ => ?_
      · rcases h with ⟨x, hx, h⟩ | h
        · exact ⟨x, List.mem_cons_of_mem _ hx, h⟩
        · exact ⟨e, List.mem_cons_self, h⟩
      · rcases List.mem_cons.mp hw with rfl | hw
        · exact Or.inl h
        · exact Or.inr ⟨w, hw, h⟩

theorem writeFields_brings (hd : d.ShowsNames wanted) (language : Language) (way : FieldWriting)
    (object : Expr) :
    ∀ fields : List Field, Brings d step (writeFields language way object fields)
      (∃ name v, .mk name v ∈ fields ∧ d.WritesIn step v) fun _ => False
  | [] => .pure fun ⟨name, v, hv, _⟩ => absurd hv List.not_mem_nil
  | .mk name v :: rest => by
      simp only [writeFields]
      have hpush : ∀ e, Brings d step (push (way.statement object name e))
          ((d.expr e).Shows step) fun _ => False :=
        fun e => (push_brings _).weaken (shows_statement hd way name)
      have hrest := writeFields_brings hd language way object rest
      refine ((announce_brings way).after fun _ => (express_brings hd language name v).bind
        fun e => (hpush e).both fun _ => hrest).weaken fun ⟨name', w, hw, h⟩ => ?_
      rcases List.mem_cons.mp hw with heq | hw
      · cases heq
        exact Or.inl h
      · exact Or.inr ⟨name', w, hw, h⟩

theorem addStubs_brings (hd : d.ShowsNames wanted) (language : Language) (object : Expr) :
    ∀ stubs : List Stub, Brings d step (addStubs language object stubs)
      (∃ method arguments returns, .mk method arguments returns ∈ stubs ∧
        ((∃ v ∈ arguments, d.WritesIn step v) ∨ d.WritesIn step returns)) fun _ => False
  | [] => .pure fun ⟨method, arguments, returns, hs, _⟩ => absurd hs List.not_mem_nil
  | .mk method arguments returns :: rest => by
      simp only [addStubs]
      have harguments :=
        expressEach_brings hd language (fun i => method ++ "Arg" ++ toString i) 0 arguments
      have hreturns := express_brings hd language (method ++ "Result") returns
      have hrest := addStubs_brings hd language object rest
      refine (harguments.bind fun es => (hreturns.bind fun e =>
        ((stub_brings hd object method es e).both fun _ => hrest).weaken or_assoc.mpr).weaken
          or_left_comm.mp).weaken fun ⟨method', arguments', returns', hs, h⟩ => ?_
      rcases List.mem_cons.mp hs with heq | hs
      · cases heq
        exact h.imp_right Or.inl
      · exact Or.inr (Or.inr ⟨method', arguments', returns', hs, h⟩)

end

end

section

variable {d : Dialect} {step : Step} {wanted : Mention → Step → Prop} (hd : d.ShowsNames wanted)

include hd

/-! ### Tests of runs -/

variable {language : Language} {config : Config} {e : Executable} {run : Execution}

/-- A call shows its arguments, and that of a method its receiver. -/
theorem shows_call {target : Expr} {es : List Expr}
    (h : e.kind = .method ∧ (d.expr target).Shows step ∨ ∃ x ∈ es, (d.expr x).Shows step) :
    (d.expr (e.call target es)).Shows step := by
  have hall : (∃ x ∈ es, (d.expr x).Shows step) → ∃ r ∈ d.exprs es, r.Shows step :=
    fun ⟨x, hx, hshows⟩ => ⟨_, Dialect.mem_exprs hx, hshows⟩
  simp only [Executable.call]
  cases hkind : e.kind with
  | method => exact hd.callOn _ _ _ _ _ (h.imp And.right hall)
  | staticMethod | function | constructor =>
      have harguments := hall (h.resolve_left fun hmethod => by simp [hkind] at hmethod)
      first
      | exact hd.callStatic _ _ _ _ (Or.inr harguments)
      | exact hd.callModule _ _ _ _ (Or.inr harguments)
      | exact hd.construct _ _ _ (Or.inr harguments)

theorem targetOfRun_brings :
    Brings d step (targetOfRun language e run)
      (e.kind = .method ∧ ∃ v, run.receiver = some v ∧ d.WritesIn step v)
      fun x => e.kind = .method ∧ (d.expr x).Shows step := by
  simp only [targetOfRun]
  cases e.kind with
  | method =>
      cases run.receiver with
      | none => exact .refuse _
      | some v =>
          have hvalue : Brings d step (express language e.receiverName v) (d.WritesIn step v)
              fun x => (d.expr x).Shows step := express_brings hd language _ v
          refine fun before x after hx hgiven => ?_
          refine (hvalue before x after hx (hgiven.imp_left ?_)).imp_right fun h => ⟨rfl, h⟩
          rintro ⟨-, w, hw, h⟩
          exact Option.some.inj hw ▸ h
  | constructor =>
      dsimp only
      split
      · exact .refuse _
      · exact .pure fun h => by cases h.1
  | staticMethod => exact .pure fun h => by cases h.1
  | function => exact .pure fun h => by cases h.1

theorem callOfRun_brings (names : List String) :
    Brings d step (callOfRun language e names run)
      ((e.kind = .method ∧ ∃ v, run.receiver = some v ∧ d.WritesIn step v) ∨
        ∃ v ∈ run.arguments, d.WritesIn step v)
      fun call => (d.expr call).Shows step := by
  refine (checkCount_brings e run).after fun _ => (targetOfRun_brings hd).bind fun target => ?_
  refine ((expressEach_brings hd language _ 0 run.arguments).bind fun es => ?_).weaken Or.symm
  exact .pure fun h => shows_call hd h.symm

theorem staticStubbings_brings (stubs : List StaticStub) :
    Brings d step (staticStubbings language stubs) (∃ s ∈ stubs, d.WritesIn step s.returns)
      fun bs => ∃ b ∈ bs, (d.stubForm b).Shows step := by
  induction stubs with
  | nil => exact .pure fun ⟨s, hs, _⟩ => absurd hs List.not_mem_nil
  | cons s rest ih =>
      refine ((express_brings hd language (s.method ++ "Result") s.returns).bind fun x =>
        (ih.bind fun bs => .pure fun h => ?_).weaken Or.symm).weaken fun ⟨t, ht, h⟩ => ?_
      · rcases h with ⟨b, hb, h⟩ | h
        · exact ⟨b, List.mem_cons_of_mem _ hb, h⟩
        · exact ⟨_, List.mem_cons_self, Or.inr h⟩
      · rcases List.mem_cons.mp ht with rfl | ht
        · exact Or.inl h
        · exact Or.inr ⟨t, ht, h⟩

/-- The stubbings of a scope show a step. -/
def ScopeShows (d : Dialect) (step : Step) (scope : StaticScope) : Prop :=
  ∃ b ∈ scope.stubbings, (d.stubForm b).Shows step

theorem staticScopes_brings (groups : List (ClassName × List StaticStub)) :
    Brings d step (staticScopes language groups)
      (∃ group ∈ groups, ∃ s ∈ group.2, d.WritesIn step s.returns)
      fun scopes => ∃ scope ∈ scopes, ScopeShows d step scope := by
  induction groups with
  | nil => exact .pure fun ⟨s, hs, _⟩ => absurd hs List.not_mem_nil
  | cons group rest ih =>
      obtain ⟨owner, stubs⟩ := group
      refine ((staticStubbings_brings hd stubs).bind fun bs =>
        (freshVariable_brings "mockedStatic").after fun handle =>
          (ih.bind fun scopes => .pure fun h => ?_).weaken Or.symm).weaken
            fun ⟨group, hgroup, h⟩ => ?_
      · rcases h with ⟨scope, hscope, h⟩ | h
        · exact ⟨scope, List.mem_cons_of_mem _ hscope, h⟩
        · exact ⟨_, List.mem_cons_self, h⟩
      · rcases List.mem_cons.mp hgroup with rfl | hgroup
        · exact Or.inl h
        · exact Or.inr ⟨group, hgroup, h⟩

/-- Scopes show their stubbings and the statements inside. -/
theorem showsIn_enclose {scopes : List StaticScope} {body : List Stmt}
    (h : (∃ scope ∈ scopes, ScopeShows d step scope) ∨ d.ShowsIn step body) :
    d.ShowsIn step (StaticScope.enclose scopes body) := by
  induction scopes with
  | nil => exact h.resolve_left fun ⟨scope, hscope, _⟩ => absurd hscope List.not_mem_nil
  | cons scope rest ih =>
      refine ⟨_, List.mem_singleton_self _, shows_right (hd.mockedStatic _ _ _ _ _ ?_)⟩
      have hinner : ∀ {t : List Stmt}, d.ShowsIn step t → (d.stmts t).Shows step :=
        fun ⟨s, hs, hshows⟩ => Dialect.shows_stmts hs hshows
      rcases h with ⟨shown, hshown, b, hb, h⟩ | h
      · rcases List.mem_cons.mp hshown with rfl | hrest
        · exact Or.inr (Or.inl ⟨_, Dialect.mem_stubForms hb, h⟩)
        · exact Or.inr (Or.inr (hinner (ih (Or.inl ⟨shown, hrest, b, hb, h⟩))))
      · exact Or.inr (Or.inr (hinner (ih (Or.inr h))))

omit hd in
theorem showsIn_apart {before after : List Stmt}
    (h : d.ShowsIn step before ∨ d.ShowsIn step after) : d.ShowsIn step (apart before after) := by
  simp only [apart]
  split
  · next hempty =>
    refine h.resolve_left ?_
    rintro ⟨s, hs, -⟩
    rw [List.isEmpty_iff.mp hempty] at hs
    cases hs
  · rcases h with ⟨s, hs, h⟩ | ⟨s, hs, h⟩
    · exact ⟨s, List.mem_append_left _ hs, h⟩
    · exact ⟨s, List.mem_append_right _ (List.mem_cons_of_mem _ hs), h⟩

theorem declareActual_brings (call : Expr) :
    Brings d step (declareActual e call) ((d.expr call).Shows step) fun _ => False := by
  refine (declare_brings hd "actual" e.returnType call).andThen fun actual => ?_
  have hblank : Brings d step (push .blank) False fun _ => False :=
    (push_brings _).weaken False.elim
  exact hblank.after fun _ => .pure id

theorem assertEqual_brings (v : Value) (actual : Expr) :
    Brings d step (assertEqual language v actual) (d.WritesIn step v) fun _ => False := by
  refine (express_brings hd language "expected" v).andThen fun expected => ?_
  split
  · refine (require_brings _).after fun _ => (push_brings _).weaken fun h => shows_right ?_
    refine hd.assertTrue _ _ (Or.inr (Dialect.shows_callHelper (Or.inr ?_)))
    exact ⟨_, Dialect.mem_exprs List.mem_cons_self, h⟩
  · refine (push_brings _).weaken fun h => shows_right ?_
    exact hd.assertEquals _ _ _ _ _ (Or.inr (Or.inl h))

omit hd in
theorem eval_brings (call : Expr) :
    Brings d step (push (.eval call)) ((d.expr call).Shows step) fun _ => False :=
  (push_brings _).weaken fun h => shows_left (shows_right h)

theorem checkResult_brings (call : Expr) (check : ResultCheck) :
    Brings d step (checkResult language e call check)
      ((d.expr call).Shows step ∨ ∃ v, check = .equals v ∧ d.WritesIn step v) fun _ => False := by
  have hactual : Brings d step (declareActual e call) ((d.expr call).Shows step) fun _ => False :=
    declareActual_brings hd call
  have hassert : ∀ s : Stmt, Brings d step (push s) False fun _ => False :=
    fun s => (push_brings s).weaken False.elim
  cases check with
  | ignored =>
      exact (eval_brings call).weaken fun h => h.resolve_right fun ⟨v, hv, _⟩ => by cases hv
  | isNull =>
      refine (hactual.both fun actual => hassert _).weaken fun h => h.imp_right ?_
      rintro ⟨v, hv, -⟩
      cases hv
  | isNaN =>
      refine (hactual.both fun actual => hassert _).weaken fun h => h.imp_right ?_
      rintro ⟨v, hv, -⟩
      cases hv
  | equals v =>
      refine (hactual.both fun actual => assertEqual_brings hd v actual).weaken
        fun h => h.imp_right ?_
      rintro ⟨w, hw, h⟩
      cases hw
      exact h

omit hd in
/-- A result that is copied is compared with. -/
theorem ofResult_eq_equals {result : Option Value} {v : Value} (hresult : result = some v)
    (hnull : v.isNull = false) (hnan : ¬(v.isNaN = true ∧ language.isJvm = false)) :
    ResultCheck.ofResult language result = .equals v := by
  subst hresult
  simp only [ResultCheck.ofResult, hnull, Bool.false_eq_true, if_false]
  refine if_neg fun h => hnan ?_
  simpa using h

/-- The check of the outcome of a run writes the value that it compares with. -/
theorem checkOutcome_brings (call : Expr) :
    Brings d step (checkOutcome config e run call)
      ((d.expr call).Shows step ∨ ∃ v, (run.outcome = .success (some v) ∧
        e.returnType.isVoid = false ∧ v.isNull = false ∧
          ¬(v.isNaN = true ∧ config.language.isJvm = false)) ∧ d.WritesIn step v)
      fun _ => False := by
  have heval : Brings d step (push (.eval call)) ((d.expr call).Shows step) fun _ => False :=
    eval_brings call
  have hcomment : ∀ text, Brings d step (push (.comment text)) False fun _ => False :=
    fun text => (push_brings _).weaken False.elim
  simp only [checkOutcome]
  cases houtcome : run.outcome with
  | success value =>
      refine (checkResult_brings hd call _).weaken fun h => h.imp_right ?_
      rintro ⟨v, ⟨hvalue, hvoid, hnull, hnan⟩, hwrites⟩
      cases hvalue
      have hresult : run.result? e = some v := by
        simp [Execution.result?, hvoid, houtcome]
      exact ⟨v, ofResult_eq_equals hresult hnull hnan, hwrites⟩
  | runtimeFailure exception message kind =>
      refine Brings.weaken (P := (d.expr call).Shows step) ?_ fun h =>
        h.resolve_right (by rintro ⟨v, ⟨hv, -⟩, -⟩; cases hv)
      dsimp only
      split
      · refine (push_brings _).weaken fun h => shows_right (hd.assertThrows _ _ _ ?_)
        exact Or.inr (Or.inr (Dialect.shows_blockOf_eval h))
      · exact (hcomment _).after fun _ => heval
  | timeout limit =>
      refine Brings.weaken (P := (d.expr call).Shows step) ?_ fun h =>
        h.resolve_right (by rintro ⟨v, ⟨hv, -⟩, -⟩; cases hv)
      dsimp only
      split
      · exact (hcomment _).after fun _ => heval
      · exact heval
  | crash reason =>
      refine Brings.weaken (P := (d.expr call).Shows step) ?_ fun h =>
        h.resolve_right (by rintro ⟨v, ⟨hv, -⟩, -⟩; cases hv)
      exact (hcomment _).after fun _ => heval

/-- The test of a run shows the literals of the values that it writes. -/
theorem showsIn_bodyOfRun {g : Generation} {after : Draft} {body : List Stmt}
    (h : bodyOfRun config e run (.start g) = .ok body after) {v : Value}
    (hv : run.Reproduces config e v) (hstep : d.WritesIn step v) : d.ShowsIn step body := by
  obtain ⟨call, d₁, d₂, scopes, d₃, d₄, hcall, hmark, hscopes, hcheck, rfl, -⟩ :=
    exists_drafts_of_bodyOfRun_ok h
  have hact : d.ShowsIn step d₄.statements →
      d.ShowsIn step (apart d₃.statements (StaticScope.enclose scopes d₄.statements)) :=
    fun h => showsIn_apart (Or.inr (showsIn_enclose hd (Or.inr h)))
  have hopened : (∃ group ∈ run.writtenStubs config, ∃ s ∈ group.2, d.WritesIn step s.returns) ∨
      d.ShowsIn step d₂.statements →
        d.ShowsIn step (apart d₃.statements (StaticScope.enclose scopes d₄.statements)) := by
    intro h
    rcases staticScopes_brings hd _ _ _ _ hscopes h with h | h
    · exact showsIn_apart (Or.inl h)
    · exact showsIn_apart (Or.inr (showsIn_enclose hd (Or.inl h)))
  have hchecked : (d.expr call).Shows step ∨ (∃ v, (run.outcome = .success (some v) ∧
      e.returnType.isVoid = false ∧ v.isNull = false ∧
        ¬(v.isNaN = true ∧ config.language.isJvm = false)) ∧ d.WritesIn step v) →
      d.ShowsIn step (apart d₃.statements (StaticScope.enclose scopes d₄.statements)) :=
    fun h => hact ((checkOutcome_brings hd call _ _ _ hcheck (Or.inl h)).resolve_right id)
  have hcalled : (e.kind = .method ∧ ∃ v, run.receiver = some v ∧ d.WritesIn step v) ∨
      (∃ v ∈ run.arguments, d.WritesIn step v) →
        d.ShowsIn step (apart d₃.statements (StaticScope.enclose scopes d₄.statements)) := by
    intro h
    rcases callOfRun_brings hd _ _ _ _ hcall (Or.inl h) with h | h
    · exact hopened (Or.inr ((markStatics_brings _ _ _ _ hmark (Or.inr h)).resolve_right id))
    · exact hchecked (Or.inl h)
  rcases hv with ⟨hkind, hreceiver⟩ | hargument | ⟨hmocking, s, hs, rfl⟩ | hresult
  · exact hcalled (Or.inl ⟨hkind, v, hreceiver, hstep⟩)
  · exact hcalled (Or.inr ⟨v, hargument, hstep⟩)
  · obtain ⟨group, hgroup, hs⟩ := List.mem_flatMap.mp ((run.mem_stubsByClass_iff).mpr hs)
    refine hopened (Or.inl ⟨group, ?_, s, hs, hstep⟩)
    rw [Execution.writtenStubs, if_neg (by simp [hmocking])]
    exact hgroup
  · exact hchecked (Or.inr ⟨v, hresult, hstep⟩)

/-! ### Tables -/

variable {columns : List Column}

theorem cellExpr_brings (c : Column) :
    Brings d step (cellExpr language e run c)
      (∃ v, run.cell c.role = .value v ∧ d.WritesIn step v) fun x => (d.expr x).Shows step := by
  simp only [cellExpr]
  cases run.cell c.role with
  | value v =>
      refine (express_brings hd language c.parameter.name v).weaken ?_
      rintro ⟨w, hw, h⟩
      exact Cell.value.inj hw ▸ h
  | exception owner =>
      refine .pure ?_
      rintro ⟨v, hv, -⟩
      cases hv
  | absent =>
      dsimp only
      split
      · exact .refuse _
      · refine .pure ?_
        rintro ⟨v, hv, -⟩
        cases hv

theorem cellExprs_brings (columns : List Column) :
    Brings d step (cellExprs language e run columns)
      (∃ c ∈ columns, ∃ v, run.cell c.role = .value v ∧ d.WritesIn step v)
      fun xs => ∃ x ∈ xs, (d.expr x).Shows step := by
  induction columns with
  | nil => exact .pure fun ⟨c, hc, _⟩ => absurd hc List.not_mem_nil
  | cons c rest ih =>
      refine ((cellExpr_brings hd c).bind fun x =>
        (ih.bind fun xs => .pure fun h => ?_).weaken Or.symm).weaken fun ⟨c', hc, h⟩ => ?_
      · rcases h with ⟨y, hy, h⟩ | h
        · exact ⟨y, List.mem_cons_of_mem _ hy, h⟩
        · exact ⟨x, List.mem_cons_self, h⟩
      · rcases List.mem_cons.mp hc with rfl | hc
        · exact Or.inl h
        · exact Or.inr ⟨c', hc, h⟩

theorem tableRows_brings (rows : List Execution) :
    Brings d step (tableRows language e columns rows)
      (∃ run ∈ rows, ∃ c ∈ columns, ∃ v, run.cell c.role = .value v ∧ d.WritesIn step v)
      fun xs => ∃ x ∈ xs, (d.expr x).Shows step := by
  induction rows with
  | nil => exact .pure fun ⟨run, hrun, _⟩ => absurd hrun List.not_mem_nil
  | cons run rest ih =>
      refine ((checkCount_brings e run).after fun _ => (cellExprs_brings hd columns).bind fun xs =>
        (ih.bind fun more => .pure fun h => ?_).weaken Or.symm).weaken fun ⟨run', hrun, h⟩ => ?_
      · rcases h with ⟨y, hy, h⟩ | ⟨x, hx, h⟩
        · exact ⟨y, List.mem_cons_of_mem _ hy, h⟩
        · exact ⟨_, List.mem_cons_self, hd.arrayOf _ _ _ _ (Or.inr ⟨_, Dialect.mem_exprs hx, h⟩)⟩
      · rcases List.mem_cons.mp hrun with rfl | hrun
        · exact Or.inl h
        · exact Or.inr ⟨run', hrun, h⟩

/-- The data provider of a table shows the literals of the values in the cells. -/
theorem showsIn_providerBody {rows : List Execution} {g : Generation} {after : Draft}
    {body : List Stmt} (h : providerBody language e columns rows (.start g) = .ok body after)
    {run : Execution} (hrun : run ∈ rows) {c : Column} (hc : c ∈ columns) {v : Value}
    (hv : run.cell c.role = .value v) (hstep : d.WritesIn step v) : d.ShowsIn step body := by
  obtain ⟨xs, d₁, hrows, rfl, -⟩ := exists_rows_of_providerBody_ok h
  refine showsIn_apart ((tableRows_brings hd rows _ _ _ hrows
    (Or.inl ⟨run, hrun, c, hc, v, hv, hstep⟩)).imp_right fun ⟨x, hx, h⟩ => ?_)
  refine ⟨_, List.mem_singleton_self _, shows_left (shows_right ?_)⟩
  exact hd.arrayOf _ _ _ _ (Or.inr ⟨_, Dialect.mem_exprs hx, h⟩)

end

end Draft

/-! ## Characters of the JVM -/

/-- A method writes a value of the evidence that it is built from: in the test of a run, or in a
cell of a table. -/
inductive Method.Copies (config : Config) (v : Value) : Method → Prop
  | test {run : Execution} {e : Executable} {g g' : Generation} {m : Method}
    (hconfig : g.config = config) (hm : run.toTest e g = .ok m g')
    (hv : run.Reproduces config e v) : Copies config v m
  | cell {set : TestSet} {g g' : Generation} {t : ParameterizedTest} {run : Execution} {c : Column}
    (hconfig : g.config = config) (ht : set.toTable g = .ok t g') (hrun : run ∈ set.rows)
    (hc : c ∈ Column.ofRuns config set.executable set.rows) (hv : run.cell c.role = .value v) :
    Copies config v t.provider

/-- A method shows the literals of the values that it copies. -/
theorem Method.Copies.showsIn {config : Config} {v : Value} {m : Method} (h : m.Copies config v)
    {d : Dialect} {step : Step} {wanted : Mention → Step → Prop} (hd : d.ShowsNames wanted)
    (hstep : d.WritesIn step v) : d.ShowsIn step m.body := by
  cases h with
  | test hconfig hm hv =>
      obtain ⟨body, after, name, names, hbody, rfl, -⟩ := Execution.eq_of_toTest_ok hm
      subst hconfig
      exact Draft.showsIn_bodyOfRun hd hbody hv hstep
  | cell hconfig ht hrun hc hv =>
      obtain ⟨names, body, after, testBody, after', providerName, testName, names', hbody, -, rfl,
        -⟩ := TestSet.eq_of_toTable_ok ht
      subst hconfig
      exact Draft.showsIn_providerBody hd hbody hrun hc hv hstep

theorem Method.Copies.isBuilt {config : Config} {v : Value} {m : Method} (h : m.Copies config v) :
    m.IsBuilt config ∧ ∀ k, m.kind ≠ .helper k := by
  cases h with
  | test hconfig hm hv =>
      subst hconfig
      refine ⟨Execution.isBuilt_of_toTest_ok hm, fun k hk => ?_⟩
      obtain ⟨body, after, name, names, hbody, rfl, -⟩ := Execution.eq_of_toTest_ok hm
      cases hk
  | cell hconfig ht hrun hc hv =>
      subst hconfig
      refine ⟨(TestSet.isBuilt_of_toTable_ok ht).2.1, fun k hk => ?_⟩
      obtain ⟨names, body, after, testBody, after', providerName, testName, names', hbody, -, rfl,
        -⟩ := TestSet.eq_of_toTable_ok ht
      cases hk

namespace Target.Surroundings

variable {s : Surroundings} {config : Config}

/-- A language of the JVM shows what its parts show. -/
theorem exists_showsNames (hjvm : s.settings.language.isJvm = true) :
    ∃ wanted, s.methodForms.dialect.ShowsNames wanted := by
  unfold methodForms
  cases hlanguage : s.settings.language with
  | java => exact ⟨_, Java.showsNames s⟩
  | kotlin => exact ⟨_, Kotlin.showsParts s⟩
  | javascript | python | go => simp [hlanguage, Language.isJvm] at hjvm

/-- A language of the JVM writes every built method. -/
theorem exists_doc_of_isJvm (hlanguage : s.settings.language = config.language)
    (hjvm : config.language.isJvm = true) {m : Method} (hm : m.IsBuilt config) :
    ∃ doc, s.methodForms.method m = .ok doc := by
  have hmocks : config.staticMocking ≠ .off → config.language.supportsMocking = true :=
    fun _ => hjvm
  unfold methodForms
  cases hconfig : config.language with
  | java =>
      rw [hlanguage, hconfig]
      exact Java.succeeds_method s hmocks hm hconfig
  | kotlin =>
      rw [hlanguage, hconfig]
      exact Kotlin.succeeds_method s hmocks hm hconfig
  | javascript | python | go => simp [hconfig, Language.isJvm] at hjvm

theorem literal_char (hjvm : s.settings.language.isJvm = true) (c : Char) :
    s.methodForms.dialect.literal (.char c) = [.text .plain (Java.quoteChar c)] := by
  unfold methodForms
  cases hlanguage : s.settings.language with
  | java | kotlin => rfl
  | javascript | python | go => simp [hlanguage, Language.isJvm] at hjvm

end Target.Surroundings

/-- A test or a data provider in a language of the JVM is written whatever characters its evidence
holds, and its text has the literal of each.  That literal is read as the character exactly when the
character is a single code unit, and otherwise it is not read at all. -/
theorem Method.char_literals_read_iff {s : Surroundings} {config : Config}
    (hlanguage : s.settings.language = config.language) (hjvm : config.language.isJvm = true)
    {m : Method} {v : Value} (hm : m.Copies config v) {c : Char}
    (hc : Value.Occurs (.literal (.char c)) v) :
    ∃ doc literal, s.methodForms.method m = .ok doc ∧ .text .plain literal ∈ doc ∧
      s.methodForms.dialect.literal (.char c) = [.text .plain literal] ∧
      CharLiteral.read? config.language (Text.unitsOf literal) =
        if Text.IsSingleUnit c then some c.toNat else none := by
  have hsettings : s.settings.language.isJvm = true := hlanguage ▸ hjvm
  obtain ⟨wanted, hd⟩ := Surroundings.exists_showsNames hsettings
  obtain ⟨hbuilt, hkind⟩ := hm.isBuilt
  obtain ⟨doc, hdoc⟩ := Surroundings.exists_doc_of_isJvm hlanguage hjvm hbuilt
  have hliteral := Surroundings.literal_char hsettings c
  obtain ⟨y, hy, hshows⟩ := hm.showsIn hd ⟨.char c, hc, by rw [hliteral]; exact List.mem_cons_self⟩
  refine ⟨doc, _, hdoc, ?_, hliteral, CharLiteral.read?_quoteChar hjvm c⟩
  exact s.shows_body hkind (Dialect.shows_stmts hy hshows) doc hdoc

/-- A static method that takes a character. -/
def putsChar : Executable :=
  ⟨⟨"demo", "Text"⟩, "put", [⟨"c", .primitive .char⟩], .void, .staticMethod⟩

/-- A character outside of the basic plane. -/
def grin : Char := Char.ofNat 0x1f600

/-- For a run with a character outside of the basic plane a test is written in Java, with a literal
that is none. -/
theorem Method.char_literals_read_iff_grin :
    ∃ m g' doc, (Execution.ofArguments [.literal (.char grin)] .completed).toTest putsChar
        (.new ⟨"demo", "Text"⟩ (.forLanguage .java)) = .ok m g' ∧
      (Surroundings.bare ⟨.java, .junit5, none⟩).methodForms.method m = .ok doc ∧
      .text .plain (Java.quoteChar grin) ∈ doc ∧
      CharLiteral.read? .java (Text.unitsOf (Java.quoteChar grin)) = none := by
  let run := Execution.ofArguments [.literal (.char grin)] .completed
  let g : Generation := .new ⟨"demo", "Text"⟩ (.forLanguage .java)
  let s : Surroundings := .bare ⟨.java, .junit5, none⟩
  obtain ⟨m, g', hm⟩ : ∃ m g', run.toTest putsChar g = .ok m g' :=
    run.toTestUnder_meets g.config putsChar g
  have hcopies : m.Copies g.config (.literal (.char grin)) :=
    .test rfl hm (Or.inr (Or.inl (List.mem_singleton_self _)))
  obtain ⟨doc, literal, hdoc, hmem, hliteral, hread⟩ :=
    Method.char_literals_read_iff (s := s) rfl rfl hcopies .self
  cases hliteral
  exact ⟨m, g', doc, hm, hdoc, hmem, hread.trans (if_neg (by decide))⟩

end TestWriter
