import TestWriter.Proofs.Recording

/-!
# Forms of built statements

Out of all statements, the builders write a few forms, and wherever a value is due they put an atom:
a literal, a constant or a variable.  Main statements: every statement in the body of a built method
has one of these forms, and the arrays that the test of a run declares are those of the values that
the test writes.
-/

namespace TestWriter

/-! ## Forms -/

/-- Whether the framework of a configuration runs tables in its language. -/
def Config.HasTables (config : Config) : Prop :=
  config.language.supportsParameterized config.framework = true

theorem Config.HasTables.ne_go {config : Config} (h : config.HasTables) :
    config.language ≠ .go := by
  intro hgo
  simp only [HasTables, hgo] at h
  cases h

/-- An expression that stands for a value in place. -/
inductive Expr.IsAtom : Expr → Prop
  | literal (l : Literal) : IsAtom (.literal l)
  | ref (name : String) : IsAtom (.ref name)
  | staticField (owner : ClassName) (name : String) : IsAtom (.staticField owner name)

/-- What stands in a row of a table. -/
inductive Expr.IsCell : Expr → Prop
  | atom {e : Expr} (h : e.IsAtom) : IsCell e
  | classOf (owner : ClassName) : IsCell (.classOf owner)

/-- A row of a table. -/
inductive Expr.IsRow : Expr → Prop
  | mk {cells : List Expr} (hcells : ∀ c ∈ cells, c.IsCell) : IsRow (.arrayOf .any cells)

/-- A stubbing of a static method, for any arguments, with an atom as its result. -/
inductive Stubbing.IsAtomic : Stubbing → Prop
  | mk {returns : Expr} (method : String) (hreturns : returns.IsAtom) :
    IsAtomic (.mk method [] returns)

/-- A call of an executable with atoms; Go has no call of a constructor. -/
inductive Expr.Calls (language : Language) (e : Executable) : Expr → Prop
  | mk {receiver : Expr} {arguments : List Expr} (hreceiver : receiver.IsAtom)
    (harguments : ∀ a ∈ arguments, a.IsAtom) (hgo : language = .go → e.kind ≠ .constructor) :
    Calls language e (e.call receiver arguments)

/-- A statement that has a part in building a value. -/
inductive Stmt.Rebuilds (language : Language) : Stmt → Prop
  | array {values : List Expr} (name : String) (element : DataType)
    (hvalues : ∀ v ∈ values, v.IsAtom) :
    Rebuilds language (.declare name (.array element) false (some (.arrayOf element values)))
  | object {arguments : List Expr} (name : String) (owner : ClassName)
    (harguments : ∀ a ∈ arguments, a.IsAtom) (hgo : language = .go → arguments = []) :
    Rebuilds language (.declare name (.ofClass owner) false (some (.construct owner arguments)))
  | allocated (name : String) (owner : ClassName) :
    Rebuilds language
      (.declare name (.ofClass owner) false (some (Draft.allocation language owner)))
  | field {way : Draft.FieldWriting} {object value : Expr} (name : String)
    (hway : way = .assignment ∨ way = .withoutConstructor language) (hobject : object.IsAtom)
    (hvalue : value.IsAtom) : Rebuilds language (way.statement object name value)
  | mock (name : String) (owner : ClassName) (hmocks : language.supportsMocking = true) :
    Rebuilds language (.declare name (.ofClass owner) false (some (.mock owner)))
  | stub {object returns : Expr} {arguments : List Expr} (method : String)
    (hmocks : language.supportsMocking = true) (hobject : object.IsAtom)
    (harguments : ∀ a ∈ arguments, a.IsAtom) (hreturns : returns.IsAtom) :
    Rebuilds language (.stub object (.mk method arguments returns))

/-- A statement of a built method, which tests an executable or none. -/
inductive Stmt.Built (config : Config) (tested : Option Executable) : Stmt → Prop
  | rebuilds {s : Stmt} (h : s.Rebuilds config.language) : Built config tested s
  | run {e : Executable} {call : Expr} (he : tested = some e)
    (hcall : call.Calls config.language e) : Built config tested (.eval call)
  | result {e : Executable} {call : Expr} (name : String) (he : tested = some e)
    (hcall : call.Calls config.language e) :
    Built config tested (.declare name e.returnType false (some call))
  | isNull {actual : Expr} (hactual : actual.IsAtom) : Built config tested (.assertNull actual)
  | isNaN {actual : Expr} (hactual : actual.IsAtom) :
    Built config tested (.assertTrue (.not (.equal actual actual)))
  | deepEquals {expected actual : Expr}
    (hlanguage : Helper.deepEquals.supported config.language = true)
    (hexpected : expected.IsAtom) (hactual : actual.IsAtom) :
    Built config tested (.assertTrue (.callHelper .deepEquals [expected, actual]))
  | equals {expected actual : Expr} {delta : Option Literal} (deep : Bool)
    (hexpected : expected.IsAtom) (hactual : actual.IsAtom)
    (hdelta : ∀ l ∈ delta, ∃ p : Primitive, p.delta? = some l) :
    Built config tested (.assertEquals expected actual delta deep)
  | throws {e : Executable} {call : Expr} (exception : ClassName) (he : tested = some e)
    (hcall : call.Calls config.language e) :
    Built config tested (.assertThrows (.classOf exception) [.eval call])
  | blank : Built config tested .blank
  | comment (text : String) : Built config tested (.comment text)
  | comments (lines : List String) : Built config tested (.comments lines)
  | mocked {stubbings : List Stubbing} {body : List Stmt} (handle : String) (owner : ClassName)
    (hmocks : config.staticMocking ≠ .off)
    (hstubbings : ∀ s ∈ stubbings, s.IsAtomic)
    (hbody : ∀ s ∈ body, Built config tested s) :
    Built config tested (.mockedStatic handle owner stubbings body)
  | rows {rows : List Expr} (htables : config.HasTables)
    (hrows : ∀ row ∈ rows, row.IsRow) :
    Built config tested (.ret (some (.arrayOf (.array .any) rows)))
  | castEquals {expected actual : Expr} {delta : Option Literal} (type : DataType)
    (htables : config.HasTables) (hexpected : expected.IsAtom) (hactual : actual.IsAtom)
    (hdelta : ∀ l ∈ delta, ∃ p : Primitive, p.delta? = some l) :
    Built config tested (.assertEquals (.cast type expected) actual delta false)
  | branch {e : Executable} {error call : Expr} {success : List Stmt}
    (htables : config.HasTables) (herror : error.IsAtom)
    (hsuccess : ∀ s ∈ success, Built config tested s) (he : tested = some e)
    (hcall : call.Calls config.language e) :
    Built config tested (.branch (.equal error .null) success [.assertThrows error [.eval call]])

mutual

/-- The element types of the arrays that a statement declares, in scopes and branches too. -/
def Stmt.arrayTypes : Stmt → List DataType
  | .declare _ _ _ (some (.arrayOf element _)) => [element]
  | .mockedStatic _ _ _ body => Stmt.arrayTypesOf body
  | .branch _ thenBody elseBody => Stmt.arrayTypesOf thenBody ++ Stmt.arrayTypesOf elseBody
  | _ => []

/-- The element types of the arrays that some statements declare. -/
def Stmt.arrayTypesOf : List Stmt → List DataType
  | [] => []
  | s :: rest => s.arrayTypes ++ Stmt.arrayTypesOf rest

end

mutual

/-- The element types of the arrays in a value, in the order in which they are built. -/
def Value.arrayTypes : Value → List DataType
  | .literal _ | .enumConstant .. => []
  | .array element values => Value.arrayTypesOf values ++ [element]
  | .composite _ arguments fields => Value.arrayTypesOf arguments ++ Value.fieldArrayTypes fields
  | .reflective _ fields => Value.fieldArrayTypes fields
  | .mock _ stubs => Value.stubArrayTypes stubs

/-- The element types of the arrays in some values. -/
def Value.arrayTypesOf : List Value → List DataType
  | [] => []
  | v :: rest => v.arrayTypes ++ Value.arrayTypesOf rest

/-- The element types of the arrays in the values of some fields. -/
def Value.fieldArrayTypes : List Field → List DataType
  | [] => []
  | .mk _ v :: rest => v.arrayTypes ++ Value.fieldArrayTypes rest

/-- The element types of the arrays in some stubs. -/
def Value.stubArrayTypes : List Stub → List DataType
  | [] => []
  | .mk _ arguments returns :: rest =>
    Value.arrayTypesOf arguments ++ (returns.arrayTypes ++ Value.stubArrayTypes rest)

end

/-- The values that the test of a run writes: the receiver of a method, the arguments, the results
of stubbed static methods, and the result that it looks at. -/
def Execution.writtenValues (run : Execution) (config : Config) (e : Executable) : List Value :=
  (if e.kind = .method then run.receiver.toList else []) ++ run.arguments ++
    ((run.writtenStubs config).flatMap fun group => group.2.map StaticStub.returns) ++
      (run.result? e).toList

theorem Stmt.arrayTypesOf_append (body more : List Stmt) :
    arrayTypesOf (body ++ more) = arrayTypesOf body ++ arrayTypesOf more := by
  induction body with
  | nil => simp [arrayTypesOf]
  | cons s rest ih => simp [arrayTypesOf, ih]

theorem Stmt.mem_arrayTypesOf_iff {body : List Stmt} {t : DataType} :
    t ∈ arrayTypesOf body ↔ ∃ s ∈ body, t ∈ s.arrayTypes := by
  induction body with
  | nil => simp [arrayTypesOf]
  | cons s rest ih => simp [arrayTypesOf, ih]

theorem Value.arrayTypesOf_append (vs ws : List Value) :
    arrayTypesOf (vs ++ ws) = arrayTypesOf vs ++ arrayTypesOf ws := by
  induction vs with
  | nil => simp [arrayTypesOf]
  | cons v rest ih => simp [arrayTypesOf, ih]

theorem Value.mem_arrayTypesOf_iff {vs : List Value} {t : DataType} :
    t ∈ arrayTypesOf vs ↔ ∃ v ∈ vs, t ∈ v.arrayTypes := by
  induction vs with
  | nil => simp [arrayTypesOf]
  | cons v rest ih => simp [arrayTypesOf, ih]

theorem Value.arrayTypes_of_isNull {v : Value} (h : v.isNull = true) : v.arrayTypes = [] := by
  cases v <;> simp_all [isNull, arrayTypes]

theorem Value.arrayTypes_of_isNaN {v : Value} (h : v.isNaN = true) : v.arrayTypes = [] := by
  cases v <;> simp_all [isNaN, arrayTypes]

theorem Expr.isAtom_null : Expr.null.IsAtom := .literal _

section

variable {language : Language} {e : Executable}

/-- The result of a call is no array that is written. -/
theorem Expr.Calls.arrayTypes_declare {call : Expr} (h : call.Calls language e) (name : String)
    (type : DataType) : (Stmt.declare name type false (some call)).arrayTypes = [] := by
  cases h with
  | mk hreceiver harguments hgo =>
      simp only [Executable.call]
      cases e.kind <;> rfl

theorem Draft.arrayTypes_declare_allocation (language : Language) (name : String)
    (owner : ClassName) :
    (Stmt.declare name (.ofClass owner) false (some (allocation language owner))).arrayTypes =
      [] := by
  cases language <;> rfl

theorem Draft.FieldWriting.arrayTypes_statement (way : FieldWriting) (object value : Expr)
    (name : String) : (way.statement object name value).arrayTypes = [] := by
  cases way <;> rfl

end

/-! ## Builds that add statements of a form -/

namespace Draft

/-- From one draft to another, statements of a form are added, and the arrays that they declare have
the given element types. -/
def Laid (form : Stmt → Prop) (d d' : Draft) (types : List DataType) : Prop :=
  ∃ added, d'.statements = d.statements ++ added ∧ (∀ s ∈ added, form s) ∧
    Stmt.arrayTypesOf added = types

/-- A build adds statements of a form to every draft, with arrays of the given element types, and
its result has a property. -/
def Lays {α : Type} (form : Stmt → Prop) (m : Build Draft α) (types : List DataType)
    (result : α → Prop) : Prop :=
  ∀ d a d', m d = .ok a d' → Laid form d d' types ∧ result a

section

variable {form form' : Stmt → Prop} {d d' d'' : Draft} {types types' : List DataType}

theorem Laid.refl (h : d'.statements = d.statements) : Laid form d d' [] :=
  ⟨[], by rw [h, List.append_nil], List.forall_mem_nil _, rfl⟩

theorem Laid.trans (h : Laid form d d' types) (h' : Laid form d' d'' types') :
    Laid form d d'' (types ++ types') := by
  obtain ⟨added, hstatements, hform, htypes⟩ := h
  obtain ⟨more, hstatements', hform', htypes'⟩ := h'
  refine ⟨added ++ more, ?_, List.forall_mem_append.mpr ⟨hform, hform'⟩, ?_⟩
  · rw [hstatements', hstatements, List.append_assoc]
  · rw [Stmt.arrayTypesOf_append, htypes, htypes']

theorem Laid.weaken (h : Laid form d d' types) (hform : ∀ s, form s → form' s) :
    Laid form' d d' types := by
  obtain ⟨added, hstatements, hadded, htypes⟩ := h
  exact ⟨added, hstatements, fun s hs => hform s (hadded s hs), htypes⟩

/-- What was laid on an empty draft is all that it holds. -/
theorem Laid.all (h : Laid form d d' types) (hd : d.statements = []) :
    (∀ s ∈ d'.statements, form s) ∧ Stmt.arrayTypesOf d'.statements = types := by
  obtain ⟨added, hstatements, hadded, htypes⟩ := h
  rw [hd, List.nil_append] at hstatements
  rw [hstatements]
  exact ⟨hadded, htypes⟩

end

section

variable {α β : Type} {form form' : Stmt → Prop} {m : Build Draft α} {f : α → Build Draft β}
  {P : α → Prop} {Q : β → Prop} {types types' : List DataType}

theorem Lays.pure {a : α} (ha : P a) : Lays form (Pure.pure a) [] P := by
  intro d b d' h
  obtain ⟨rfl, rfl⟩ := Build.pure_eq_ok.mp h
  exact ⟨.refl rfl, ha⟩

theorem Lays.refuse (cause : BuildFailure) :
    Lays form (Build.refuse cause : Build Draft α) types P := by
  intro d b d' h
  exact absurd h Build.refuse_ne_ok

theorem Lays.bind (hm : Lays form m types P) (hf : ∀ a, P a → Lays form (f a) types' Q) :
    Lays form (m >>= f) (types ++ types') Q := by
  intro d b d'' h
  obtain ⟨a, d', hma, hfa⟩ := Build.bind_eq_ok.mp h
  obtain ⟨hlaid, ha⟩ := hm d a d' hma
  obtain ⟨hlaid', hb⟩ := hf a ha d' b d'' hfa
  exact ⟨hlaid.trans hlaid', hb⟩

/-- What comes after the last array declares none. -/
theorem Lays.andThen (hm : Lays form m types P) (hf : ∀ a, P a → Lays form (f a) [] Q) :
    Lays form (m >>= f) types Q := by
  simpa using hm.bind hf

/-- What comes before the first array declares none. -/
theorem Lays.after (hm : Lays form m [] P) (hf : ∀ a, P a → Lays form (f a) types Q) :
    Lays form (m >>= f) types Q := by
  simpa using hm.bind hf

theorem Lays.weaken (hm : Lays form m types P) (h : ∀ s, form s → form' s) :
    Lays form' m types P :=
  fun d a d' hma => (hm d a d' hma).imp_left fun hlaid => hlaid.weaken h

end

section

variable {form : Stmt → Prop}

theorem push_lays {s : Stmt} (hs : form s) :
    Lays form (push s) s.arrayTypes fun _ => True := by
  intro d u d' h
  cases h
  refine ⟨⟨[s], rfl, List.forall_mem_singleton.mpr hs, ?_⟩, trivial⟩
  simp [Stmt.arrayTypesOf]

theorem freshVariable_lays (base : String) :
    Lays form (freshVariable base) [] fun _ => True := by
  intro d name d' h
  cases h
  exact ⟨.refl rfl, trivial⟩

theorem takeVariables_lays (names : List String) :
    Lays form (takeVariables names) [] fun _ => True := by
  induction names with
  | nil => exact .pure trivial
  | cons base rest ih => exact (freshVariable_lays base).after fun _ _ => ih

theorem require_lays (h : Helper) : Lays form (require h) [] fun _ => True := by
  intro d u d' hok
  cases hok
  exact ⟨.refl rfl, trivial⟩

theorem markMocks_lays : Lays form markMocks [] fun _ => True := by
  intro d u d' h
  cases h
  exact ⟨.refl rfl, trivial⟩

/-- A declaration adds the arrays of its statement, whatever the name. -/
theorem declare_lays (base : String) {type : DataType} {initial : Expr} {types : List DataType}
    (hform : ∀ name, form (.declare name type false (some initial)))
    (htypes : ∀ name, (Stmt.declare name type false (some initial)).arrayTypes = types) :
    Lays form (declare base type initial) types Expr.IsAtom := by
  refine (freshVariable_lays base).after fun name _ => ?_
  rw [← htypes name]
  exact (push_lays (hform name)).andThen fun _ _ => .pure (.ref name)

theorem announce_lays (way : FieldWriting) : Lays form way.announce [] fun _ => True := by
  cases way with
  | helper => exact require_lays _
  | assignment => exact .pure trivial
  | setattr => exact .pure trivial

end

/-! ## Values -/

theorem allocate_lays (language : Language) (base : String) (owner : ClassName) :
    Lays (Stmt.Rebuilds language) (allocate language base owner) [] Expr.IsAtom := by
  have hdeclare : Lays (Stmt.Rebuilds language)
      (declare base (.ofClass owner) (allocation language owner)) [] Expr.IsAtom :=
    declare_lays base (fun name => .allocated name owner)
      fun name => arrayTypes_declare_allocation language name owner
  simp only [allocate]
  split
  · exact (require_lays _).after fun _ _ => hdeclare
  · exact hdeclare

/-- Some expressions are atoms, one for each of some values. -/
def AtomsFor (values : List Value) (es : List Expr) : Prop :=
  (∀ e ∈ es, e.IsAtom) ∧ es.length = values.length

mutual

/-- The statements of a value rebuild it, and they declare its arrays. -/
theorem express_lays (language : Language) (base : String) :
    ∀ v : Value,
      Lays (Stmt.Rebuilds language) (express language base v) v.arrayTypes Expr.IsAtom
  | .literal l => .pure (.literal l)
  | .enumConstant owner name => .pure (.staticField owner name)
  | .array element values => by
      refine (expressEach_lays language _ 0 values).bind fun es hes => ?_
      exact declare_lays base (fun name => .array name element hes.1) fun _ => rfl
  | .composite owner arguments fields => by
      simp only [express]
      split
      · exact .refuse _
      · next hgo =>
        refine (expressEach_lays language _ 0 arguments).bind fun es hes => ?_
        have hnone : language = .go → es = [] := by
          intro hlanguage
          have harguments : arguments = [] :=
            Classical.not_not.mp fun hsome => hgo ⟨hlanguage, hsome⟩
          apply List.eq_nil_of_length_eq_zero
          rw [hes.2, harguments, List.length_nil]
        have hobject : Lays (Stmt.Rebuilds language)
            (declare base (.ofClass owner) (.construct owner es)) [] Expr.IsAtom :=
          declare_lays base (fun name => .object name owner hes.1 hnone) fun _ => rfl
        refine hobject.after fun object hobject => ?_
        exact (writeFields_lays language (Or.inl rfl) hobject fields).andThen
          fun _ _ => .pure hobject
  | .reflective owner fields => by
      refine (allocate_lays language base owner).after fun object hobject => ?_
      exact (writeFields_lays language (Or.inr rfl) hobject fields).andThen
        fun _ _ => .pure hobject
  | .mock owner stubs => by
      simp only [express]
      split
      · next hmocks =>
        have hobject : Lays (Stmt.Rebuilds language)
            (declare base (.ofClass owner) (.mock owner)) [] Expr.IsAtom :=
          declare_lays base (fun name => .mock name owner hmocks) fun _ => rfl
        refine markMocks_lays.after fun _ _ => hobject.after fun object hobject => ?_
        exact (addStubs_lays language hmocks hobject stubs).andThen fun _ _ => .pure hobject
      · exact .refuse _

theorem expressEach_lays (language : Language) (base : Nat → String) (index : Nat) :
    ∀ vs : List Value, Lays (Stmt.Rebuilds language) (expressEach language base index vs)
      (Value.arrayTypesOf vs) (AtomsFor vs)
  | [] => .pure ⟨List.forall_mem_nil _, rfl⟩
  | v :: rest => by
      refine (express_lays language (base index) v).bind fun e he => ?_
      refine (expressEach_lays language base (index + 1) rest).andThen fun es hes => ?_
      exact .pure ⟨List.forall_mem_cons.mpr ⟨he, hes.1⟩, congrArg (· + 1) hes.2⟩

theorem writeFields_lays (language : Language) {way : FieldWriting} {object : Expr}
    (hway : way = .assignment ∨ way = .withoutConstructor language) (hobject : object.IsAtom) :
    ∀ fields : List Field,
      Lays (Stmt.Rebuilds language) (writeFields language way object fields)
        (Value.fieldArrayTypes fields) fun _ => True
  | [] => .pure trivial
  | .mk name v :: rest => by
      simp only [writeFields]
      refine (announce_lays way).after fun _ _ => ?_
      refine (express_lays language name v).bind fun e he => ?_
      have hpush := push_lays (Stmt.Rebuilds.field name hway hobject he)
      rw [FieldWriting.arrayTypes_statement] at hpush
      exact hpush.after fun _ _ => writeFields_lays language hway hobject rest

theorem addStubs_lays (language : Language) {object : Expr}
    (hmocks : language.supportsMocking = true) (hobject : object.IsAtom) :
    ∀ stubs : List Stub,
      Lays (Stmt.Rebuilds language) (addStubs language object stubs)
        (Value.stubArrayTypes stubs) fun _ => True
  | [] => .pure trivial
  | .mk method arguments returns :: rest => by
      simp only [addStubs]
      refine (expressEach_lays language _ 0 arguments).bind fun es hes => ?_
      refine (express_lays language (method ++ "Result") returns).bind fun e he => ?_
      exact (push_lays (Stmt.Rebuilds.stub method hmocks hobject hes.1 he)).after
        fun _ _ => addStubs_lays language hmocks hobject rest

end

/-! ## Tests of runs -/

variable {config : Config} {e : Executable}

theorem checkCount_lays {form : Stmt → Prop} (e : Executable) (run : Execution) :
    Lays form (checkCount e run) [] fun _ => True := by
  simp only [checkCount]
  split
  · exact .pure trivial
  · exact .refuse _

/-- What an executable is called on is an atom, and Go calls no constructor. -/
theorem targetOfRun_lays (language : Language) (e : Executable) (run : Execution) :
    Lays (Stmt.Rebuilds language) (targetOfRun language e run)
      (Value.arrayTypesOf (if e.kind = .method then run.receiver.toList else []))
      fun x => x.IsAtom ∧ (language = .go → e.kind ≠ .constructor) := by
  simp only [targetOfRun]
  cases hkind : e.kind with
  | method =>
      cases hreceiver : run.receiver with
      | none => exact .refuse _
      | some v =>
          simp only [if_pos, Option.toList_some, Value.arrayTypesOf, List.append_nil]
          exact fun d x d' hx =>
            (express_lays language e.receiverName v d x d' hx).imp_right fun h => ⟨h, by simp⟩
  | constructor =>
      dsimp only
      split
      · exact .refuse _
      · next hgo => exact .pure ⟨Expr.isAtom_null, fun h => absurd h hgo⟩
  | staticMethod => exact .pure ⟨Expr.isAtom_null, by simp⟩
  | function => exact .pure ⟨Expr.isAtom_null, by simp⟩

theorem markStatics_lays {form : Stmt → Prop} (stubs : List (ClassName × List StaticStub)) :
    Lays form (markStatics stubs) [] fun _ => True := by
  simp only [markStatics]
  split
  · exact .pure trivial
  · exact markMocks_lays

theorem callOfRun_lays (language : Language) (e : Executable) (names : List String)
    (run : Execution) :
    Lays (Stmt.Rebuilds language) (callOfRun language e names run)
      (Value.arrayTypesOf
        ((if e.kind = .method then run.receiver.toList else []) ++ run.arguments))
      (Expr.Calls language e) := by
  rw [Value.arrayTypesOf_append]
  refine (checkCount_lays e run).after fun _ _ => ?_
  refine (targetOfRun_lays language e run).bind fun target htarget => ?_
  refine (expressEach_lays language _ 0 run.arguments).andThen fun arguments harguments => ?_
  exact .pure ⟨htarget.1, harguments.1, htarget.2⟩

theorem staticStubbings_lays (language : Language) (stubs : List StaticStub) :
    Lays (Stmt.Rebuilds language) (staticStubbings language stubs)
      (Value.arrayTypesOf (stubs.map StaticStub.returns))
      fun ss => ∀ s ∈ ss, s.IsAtomic := by
  induction stubs with
  | nil => exact .pure (List.forall_mem_nil _)
  | cons s rest ih =>
      refine (express_lays language _ s.returns).bind fun x hx => ih.andThen fun ss hss => ?_
      exact .pure (List.forall_mem_cons.mpr ⟨.mk _ hx, hss⟩)

theorem staticScopes_lays (language : Language) (groups : List (ClassName × List StaticStub)) :
    Lays (Stmt.Rebuilds language) (staticScopes language groups)
      (Value.arrayTypesOf (groups.flatMap fun group => group.2.map StaticStub.returns))
      fun scopes => scopes.length = groups.length ∧
        ∀ scope ∈ scopes, ∀ s ∈ scope.stubbings, s.IsAtomic := by
  induction groups with
  | nil => exact .pure ⟨rfl, List.forall_mem_nil _⟩
  | cons group rest ih =>
      obtain ⟨owner, stubs⟩ := group
      rw [List.flatMap_cons, Value.arrayTypesOf_append]
      refine (staticStubbings_lays language stubs).bind fun ss hss => ?_
      refine (freshVariable_lays _).after fun handle _ => ih.andThen fun scopes hscopes => ?_
      exact .pure ⟨congrArg (· + 1) hscopes.1, List.forall_mem_cons.mpr ⟨hss, hscopes.2⟩⟩

theorem declareActual_lays {call : Expr} (hcall : call.Calls config.language e) :
    Lays (Stmt.Built config (some e)) (declareActual e call) [] Expr.IsAtom := by
  have hresult := declare_lays "actual" (fun name => Stmt.Built.result name rfl hcall)
    fun name => hcall.arrayTypes_declare name e.returnType
  exact hresult.after fun actual hactual =>
    (push_lays Stmt.Built.blank).andThen fun _ _ => .pure hactual

theorem assertEqual_lays (v : Value) {actual : Expr} (hactual : actual.IsAtom) :
    Lays (Stmt.Built config (some e)) (assertEqual config.language v actual) v.arrayTypes
      fun _ => True := by
  have hexpected := (express_lays config.language "expected" v).weaken
    fun s hs => (.rebuilds hs : s.Built config (some e))
  refine hexpected.andThen fun expected hexpected => ?_
  split
  · next hdeep =>
    exact (require_lays _).after fun _ _ => push_lays
      (.deepEquals (supported_of_comparedByHelper hdeep) hexpected hactual)
  · refine push_lays (.equals _ hexpected hactual fun l hl => ?_)
    obtain ⟨p, -, hp⟩ := Option.bind_eq_some_iff.mp hl
    exact ⟨p, hp⟩

/-- A check writes the arrays of the value that it compares with. -/
theorem checkResult_lays {call : Expr} (hcall : call.Calls config.language e)
    (value : Option Value) :
    Lays (Stmt.Built config (some e))
      (checkResult config.language e call (.ofResult config.language value))
      (Value.arrayTypesOf value.toList) fun _ => True := by
  have hactual := declareActual_lays hcall
  cases value with
  | none => exact push_lays (.run rfl hcall)
  | some v =>
      simp only [ResultCheck.ofResult, Option.toList_some, Value.arrayTypesOf, List.append_nil]
      split
      · next hnull =>
        rw [Value.arrayTypes_of_isNull hnull]
        exact hactual.after fun actual h => push_lays (.isNull h)
      · split
        · next hnan =>
          rw [Value.arrayTypes_of_isNaN (Bool.and_eq_true_iff.mp hnan).1]
          exact hactual.after fun actual h => push_lays (.isNaN h)
        · exact hactual.after fun actual h => assertEqual_lays v h

theorem checkOutcome_lays (config : Config) (e : Executable) (run : Execution) {call : Expr}
    (hcall : call.Calls config.language e) :
    Lays (Stmt.Built config (some e)) (checkOutcome config e run call)
      (Value.arrayTypesOf (run.result? e).toList) fun _ => True := by
  have heval : Lays (Stmt.Built config (some e)) (push (.eval call)) [] fun _ => True :=
    push_lays (.run rfl hcall)
  have hcomment : ∀ text, Lays (Stmt.Built config (some e)) (push (.comment text)) []
      fun _ => True := fun text => push_lays (.comment text)
  have hnone : (∀ value, run.outcome ≠ .success value) →
      Value.arrayTypesOf (run.result? e).toList = [] := by
    intro hfails
    have hresult : run.result? e = none := by
      simp only [Execution.result?]
      split
      · rfl
      · cases houtcome : run.outcome with
        | success value => exact absurd houtcome (hfails value)
        | runtimeFailure exception message kind => rfl
        | timeout limit => rfl
        | crash reason => rfl
    rw [hresult]
    rfl
  simp only [checkOutcome]
  cases houtcome : run.outcome with
  | success value => exact checkResult_lays hcall _
  | runtimeFailure exception message kind =>
      rw [hnone (by simp [houtcome])]
      dsimp only
      split
      · exact push_lays (.throws exception rfl hcall)
      · exact (hcomment _).after fun _ _ => heval
  | timeout limit =>
      rw [hnone (by simp [houtcome])]
      dsimp only
      split
      · exact (hcomment _).after fun _ _ => heval
      · exact heval
  | crash reason =>
      rw [hnone (by simp [houtcome])]
      exact (hcomment _).after fun _ _ => heval

end Draft

/-! ## Bodies -/

namespace Stmt

variable {config : Config} {tested : Option Executable}

theorem built_apart {before after : List Stmt} (hbefore : ∀ s ∈ before, s.Built config tested)
    (hafter : ∀ s ∈ after, s.Built config tested) :
    ∀ s ∈ apart before after, s.Built config tested := by
  simp only [apart]
  split
  · exact hafter
  · exact List.forall_mem_append.mpr ⟨hbefore, List.forall_mem_cons.mpr ⟨.blank, hafter⟩⟩

theorem arrayTypesOf_apart (before after : List Stmt) :
    arrayTypesOf (apart before after) = arrayTypesOf before ++ arrayTypesOf after := by
  simp only [apart]
  split
  · next h => rw [List.isEmpty_iff.mp h, arrayTypesOf, List.nil_append]
  · rw [arrayTypesOf_append, arrayTypesOf, arrayTypes, List.nil_append]
    · intro name type isMutable element values h
      cases h
    · intro handle owner stubbings body h
      cases h
    · intro condition thenBody elseBody h
      cases h

theorem built_enclose {scopes : List StaticScope} {body : List Stmt}
    (hmocks : scopes ≠ [] → config.staticMocking ≠ .off)
    (hscopes : ∀ scope ∈ scopes, ∀ s ∈ scope.stubbings, s.IsAtomic)
    (hbody : ∀ s ∈ body, s.Built config tested) :
    ∀ s ∈ StaticScope.enclose scopes body, s.Built config tested := by
  induction scopes with
  | nil => exact hbody
  | cons scope rest ih =>
      obtain ⟨hstubbings, hrest⟩ := List.forall_mem_cons.mp hscopes
      have hmocks' := hmocks (List.cons_ne_nil _ _)
      exact List.forall_mem_singleton.mpr
        (.mocked _ _ hmocks' hstubbings (ih (fun _ => hmocks') hrest))

theorem arrayTypesOf_enclose (scopes : List StaticScope) (body : List Stmt) :
    arrayTypesOf (StaticScope.enclose scopes body) = arrayTypesOf body := by
  induction scopes with
  | nil => rfl
  | cons scope rest ih =>
      change arrayTypesOf [.mockedStatic _ _ _ (StaticScope.enclose rest body)] = _
      rw [arrayTypesOf, arrayTypes, arrayTypesOf, List.append_nil, ih]

end Stmt

namespace Draft

/-- The body of the test of a run is built of the forms, and it declares the arrays of the values
that the run writes. -/
theorem bodyOfRun_built {config : Config} {e : Executable} {run : Execution} {g : Generation}
    {d : Draft} {body : List Stmt}
    (h : bodyOfRun config e run (.start g) = .ok body d) :
    (∀ s ∈ body, s.Built config (some e)) ∧
      Stmt.arrayTypesOf body = Value.arrayTypesOf (run.writtenValues config e) := by
  obtain ⟨call, d₁, d₂, scopes, d₃, d₅, hcall, hmark, hscopes, hcheck, rfl, -⟩ :=
    exists_drafts_of_bodyOfRun_ok h
  obtain ⟨hlaid, hcalls⟩ := callOfRun_lays _ _ _ run _ _ _ hcall
  obtain ⟨hlaid', -⟩ := markStatics_lays _ _ _ _ hmark
  obtain ⟨hlaid'', hlength, hstubbings⟩ := staticScopes_lays _ _ _ _ _ hscopes
  obtain ⟨hact, hacttypes⟩ := (checkOutcome_lays config e run hcalls _ _ _ hcheck).1.all rfl
  obtain ⟨harrange, harrangetypes⟩ := ((hlaid.trans hlaid').trans hlaid'').all rfl
  have hon : scopes ≠ [] → config.staticMocking ≠ .off := by
    intro hsome hoff
    have hnone : run.writtenStubs config = [] := if_pos hoff
    rw [hnone] at hlength
    exact hsome (List.eq_nil_of_length_eq_zero hlength)
  constructor
  · refine Stmt.built_apart (fun s hs => .rebuilds (harrange s hs)) ?_
    exact Stmt.built_enclose hon hstubbings hact
  · rw [Stmt.arrayTypesOf_apart, Stmt.arrayTypesOf_enclose, harrangetypes, hacttypes,
      List.append_nil, ← Value.arrayTypesOf_append, ← Value.arrayTypesOf_append]
    rfl

/-! ## Tables -/

theorem cellExpr_lays (language : Language) (e : Executable) (run : Execution) (c : Column) :
    ∃ types, Lays (Stmt.Rebuilds language) (cellExpr language e run c) types Expr.IsCell := by
  simp only [cellExpr]
  cases run.cell c.role with
  | value v =>
      refine ⟨v.arrayTypes, ?_⟩
      intro d x d' h
      exact (express_lays language _ v d x d' h).imp_right .atom
  | exception owner => exact ⟨[], .pure (.classOf owner)⟩
  | absent =>
      refine ⟨[], ?_⟩
      dsimp only
      split
      · exact .refuse _
      · exact .pure (.atom Expr.isAtom_null)

theorem cellExprs_lays (language : Language) (e : Executable) (run : Execution)
    (columns : List Column) :
    ∃ types, Lays (Stmt.Rebuilds language) (cellExprs language e run columns) types
      fun cells => ∀ c ∈ cells, c.IsCell := by
  induction columns with
  | nil => exact ⟨[], .pure (List.forall_mem_nil _)⟩
  | cons c rest ih =>
      obtain ⟨types, hcell⟩ := cellExpr_lays language e run c
      obtain ⟨types', hrest⟩ := ih
      refine ⟨types ++ types', hcell.bind fun x hx => hrest.andThen fun xs hxs => ?_⟩
      exact .pure (List.forall_mem_cons.mpr ⟨hx, hxs⟩)

theorem tableRows_lays (language : Language) (e : Executable) (columns : List Column)
    (rows : List Execution) :
    ∃ types, Lays (Stmt.Rebuilds language) (tableRows language e columns rows) types
      fun es => ∀ row ∈ es, row.IsRow := by
  induction rows with
  | nil => exact ⟨[], .pure (List.forall_mem_nil _)⟩
  | cons run rest ih =>
      obtain ⟨types, hcells⟩ := cellExprs_lays language e run columns
      obtain ⟨types', hrest⟩ := ih
      refine ⟨types ++ types', (checkCount_lays e run).after fun _ _ => ?_⟩
      refine hcells.bind fun xs hxs => hrest.andThen fun es hes => ?_
      exact .pure (List.forall_mem_cons.mpr ⟨.mk hxs, hes⟩)

/-- The body of a data provider is built of the forms. -/
theorem providerBody_built {config : Config} {e : Executable} {columns : List Column}
    {rows : List Execution} {g : Generation} {d : Draft} {body : List Stmt}
    (htables : config.HasTables)
    (h : providerBody config.language e columns rows (.start g) = .ok body d) :
    ∀ s ∈ body, s.Built config none := by
  obtain ⟨es, d₁, hrows, rfl, -⟩ := exists_rows_of_providerBody_ok h
  obtain ⟨types, hlays⟩ := tableRows_lays config.language e columns rows
  obtain ⟨hlaid, hes⟩ := hlays _ _ _ hrows
  refine Stmt.built_apart (fun s hs => .rebuilds ((hlaid.all rfl).1 s hs)) ?_
  exact List.forall_mem_singleton.mpr (.rows htables hes)

theorem isAtom_of_reference? {columns : List Column} {role : ColumnRole} {x : Expr}
    (h : Column.reference? columns role = some x) : x.IsAtom := by
  obtain ⟨c, -, rfl⟩ := Option.map_eq_some_iff.mp h
  exact .ref _

theorem callOfRow_calls {config : Config} (htables : config.HasTables) (e : Executable)
    (columns : List Column) : (callOfRow e columns).Calls config.language e := by
  refine .mk ?_ ?_ fun h => absurd h htables.ne_go
  · cases h : Column.reference? columns .receiver with
    | none => exact Expr.isAtom_null
    | some receiver => exact isAtom_of_reference? h
  · intro x hx
    obtain ⟨c, -, href⟩ := List.mem_filterMap.mp hx
    split at href
    · cases href
      exact .ref _
    · cases href

theorem assertExpected_lays {config : Config} {e : Executable} (htables : config.HasTables)
    (returnType : DataType) {expected actual : Expr} (hexpected : expected.IsAtom)
    (hactual : actual.IsAtom) :
    Lays (Stmt.Built config (some e)) (assertExpected config.language returnType expected actual) []
      fun _ => True := by
  simp only [assertExpected]
  split
  · next hdeep =>
    exact (require_lays _).after fun _ _ => push_lays
      (.deepEquals (DataType.supported_of_comparedByHelper hdeep) hexpected hactual)
  · split
    · next p _ =>
      split
      · exact push_lays (.castEquals _ htables hexpected hactual fun l hl => ⟨p, hl⟩)
      · exact push_lays (.equals _ hexpected hactual fun l hl => ⟨p, hl⟩)
    all_goals exact push_lays (.equals _ hexpected hactual fun l hl => absurd hl (by simp))

theorem checkRow_lays {config : Config} (htables : config.HasTables) (e : Executable)
    (columns : List Column) :
    Lays (Stmt.Built config (some e)) (checkRow config.language e columns) [] fun _ => True := by
  have hcall := callOfRow_calls htables e columns
  simp only [checkRow]
  split
  · next expected hexpected =>
    refine (declareActual_lays hcall).after fun actual hactual => ?_
    exact assertExpected_lays htables _ (isAtom_of_reference? hexpected) hactual
  · exact push_lays (.run rfl hcall)

/-- The body of a parameterized test is built of the forms. -/
theorem tableBody_built {config : Config} {e : Executable} {columns : List Column}
    {g : Generation} {d : Draft} {body : List Stmt} (htables : config.HasTables)
    (h : tableBody config.language e columns (.start g) = .ok body d) :
    ∀ s ∈ body, s.Built config (some e) := by
  obtain ⟨d₁, d₂, htake, hcheck, rfl, -⟩ := exists_drafts_of_tableBody_ok h
  have hchecked := (checkRow_lays htables e columns _ _ _ hcheck).1
  obtain ⟨hsuccess, -⟩ := ((takeVariables_lays _ _ _ _ htake).1.trans hchecked).all rfl
  simp only [branchOnError]
  split
  · next error herror =>
    exact List.forall_mem_singleton.mpr
      (.branch htables (isAtom_of_reference? herror) hsuccess rfl
        (callOfRow_calls htables e columns))
  · exact hsuccess

end Draft

end TestWriter
