import TestWriter.Proofs.Expressible
import TestWriter.Proofs.Origins
import TestWriter.Proofs.TableRows

/-!
# Classes that code names

The classes that the code of a test names are those that its evidence names, apart from classes
without a package.  Main statement: what holds of all classes in the evidence holds of all classes
in the code of a built class.
-/

namespace TestWriter

/-! ## Classes in the evidence -/

/-- The classes in a type. -/
def DataType.classes : DataType → List ClassName
  | .ofClass c => [c]
  | .array element => element.classes
  | .void | .primitive _ | .str | .any | .errorClass => []

mutual

/-- The classes of a value and of the values in it. -/
def Value.classes : Value → List ClassName
  | .literal _ => []
  | .array element values => element.classes ++ Value.classesOf values
  | .composite owner arguments fields =>
    owner :: (Value.classesOf arguments ++ Value.fieldClasses fields)
  | .reflective owner fields => owner :: Value.fieldClasses fields
  | .mock owner stubs => owner :: Value.stubClasses stubs
  | .enumConstant owner _ => [owner]

/-- The classes of some values. -/
def Value.classesOf : List Value → List ClassName
  | [] => []
  | v :: rest => v.classes ++ Value.classesOf rest

/-- The classes of the values of some fields. -/
def Value.fieldClasses : List Field → List ClassName
  | [] => []
  | .mk _ v :: rest => v.classes ++ Value.fieldClasses rest

/-- The classes of the values in some stubs. -/
def Value.stubClasses : List Stub → List ClassName
  | [] => []
  | .mk _ arguments returns :: rest =>
    Value.classesOf arguments ++ (returns.classes ++ Value.stubClasses rest)

end

/-- The classes in an outcome: those of a returned value, or that of a failure. -/
def Outcome.classes : Outcome → List ClassName
  | .success value => value.toList.flatMap Value.classes
  | .runtimeFailure exception _ _ => [exception]
  | .timeout _ | .crash _ => []

/-- The classes in a run. -/
def Execution.classes (run : Execution) : List ClassName :=
  run.receiver.toList.flatMap Value.classes ++ Value.classesOf run.arguments ++
    run.outcome.classes ++ run.staticStubs.flatMap fun s => s.owner :: s.returns.classes

/-- The classes in a signature, with that which declares it. -/
def Executable.classes (e : Executable) : List ClassName :=
  e.owner :: (e.parameters.flatMap fun p => p.type.classes) ++ e.returnType.classes

/-- The classes in the evidence about an executable. -/
def TestSet.classes (set : TestSet) : List ClassName :=
  set.executable.classes ++ set.executions.flatMap Execution.classes

theorem Value.mem_classesOf_iff {vs : List Value} {c : ClassName} :
    c ∈ classesOf vs ↔ ∃ v ∈ vs, c ∈ v.classes := by
  induction vs with
  | nil => simp [classesOf]
  | cons v rest ih => simp [classesOf, ih]

namespace Executable

variable {e : Executable} {c : ClassName}

theorem owner_mem_classes (e : Executable) : e.owner ∈ e.classes := List.mem_cons_self

theorem mem_classes_returnType (h : c ∈ e.returnType.classes) : c ∈ e.classes :=
  List.mem_append_right _ h

theorem mem_classes_parameter {p : Parameter} (hp : p ∈ e.parameters) (h : c ∈ p.type.classes) :
    c ∈ e.classes :=
  List.mem_append_left _ (List.mem_cons_of_mem _ (List.mem_flatMap_of_mem hp h))

end Executable

/-- What holds of the entries of a map holds after a change of one that makes and keeps it. -/
theorem OrderedMap.forall_mem_alter {α β : Type} [DecidableEq α] {m : OrderedMap α β} {key : α}
    {f : Option β → β} {P : α × β → Prop} (hm : ∀ entry ∈ m.entries, P entry)
    (hnew : P (key, f none)) (hold : ∀ v, P (key, v) → P (key, f (some v))) :
    ∀ entry ∈ (m.alter key f).entries, P entry := by
  obtain ⟨entries⟩ := m
  simp only [alter]
  induction entries with
  | nil => exact List.forall_mem_singleton.mpr hnew
  | cons first rest ih =>
      obtain ⟨hfirst, hrest⟩ := List.forall_mem_cons.mp hm
      simp only [alterEntries]
      split
      · next hkey =>
        refine List.forall_mem_cons.mpr ⟨hold _ ?_, hrest⟩
        rw [← hkey]
        exact hfirst
      · exact List.forall_mem_cons.mpr ⟨hfirst, ih hrest⟩

namespace Execution

variable {run : Execution} {c : ClassName} {v : Value}

theorem mem_classes_receiver (hreceiver : run.receiver = some v) (h : c ∈ v.classes) :
    c ∈ run.classes := by
  simp [classes, hreceiver, h]

theorem mem_classes_arguments (h : c ∈ Value.classesOf run.arguments) : c ∈ run.classes := by
  simp [classes, h]

theorem mem_classes_outcome (h : c ∈ run.outcome.classes) : c ∈ run.classes := by
  simp [classes, h]

theorem mem_classes_success (houtcome : run.outcome = .success (some v)) (h : c ∈ v.classes) :
    c ∈ run.classes :=
  mem_classes_outcome (by simpa [houtcome, Outcome.classes] using h)

theorem mem_classes_exception {message : Option String} {kind : FailureKind}
    (houtcome : run.outcome = .runtimeFailure c message kind) : c ∈ run.classes :=
  mem_classes_outcome (by simp [houtcome, Outcome.classes])

theorem mem_classes_result {e : Executable} (hresult : run.result? e = some v)
    (h : c ∈ v.classes) : c ∈ run.classes := by
  simp only [result?] at hresult
  split at hresult
  · cases hresult
  · split at hresult
    · next value houtcome => exact mem_classes_success (hresult ▸ houtcome) h
    · cases hresult

theorem mem_classes_cell {role : ColumnRole} (hcell : run.cell role = .value v)
    (h : c ∈ v.classes) : c ∈ run.classes := by
  cases role with
  | receiver =>
      simp only [cell] at hcell
      split at hcell
      · next hreceiver => exact mem_classes_receiver (Cell.value.inj hcell ▸ hreceiver) h
      · cases hcell
  | argument i =>
      simp only [cell] at hcell
      split at hcell
      · next hargument =>
        cases hcell
        exact mem_classes_arguments
          (Value.mem_classesOf_iff.mpr ⟨v, List.mem_of_getElem? hargument, h⟩)
      · cases hcell
  | expected =>
      simp only [cell] at hcell
      split at hcell
      · next houtcome => exact mem_classes_success (Cell.value.inj hcell ▸ houtcome) h
      · cases hcell
  | expectedError =>
      simp only [cell] at hcell
      split at hcell <;> cases hcell

theorem exception_mem_classes {role : ColumnRole} (hcell : run.cell role = .exception c) :
    c ∈ run.classes := by
  cases role with
  | expectedError =>
      simp only [cell] at hcell
      split at hcell
      · next houtcome => exact mem_classes_exception (Cell.exception.inj hcell ▸ houtcome)
      · cases hcell
  | receiver | argument i | expected =>
      simp only [cell] at hcell
      split at hcell <;> cases hcell

/-- The stubs of a class are those of the run for it, and there is one. -/
theorem mem_stubsByClass {group : ClassName × List StaticStub}
    (h : group ∈ run.stubsByClass.entries) :
    group.2 ≠ [] ∧ ∀ s ∈ group.2, s ∈ run.staticStubs ∧ s.owner = group.1 := by
  have hfold : ∀ (stubs : List StaticStub) (groups : OrderedMap ClassName (List StaticStub)),
      (∀ s ∈ stubs, s ∈ run.staticStubs) →
      (∀ entry ∈ groups.entries,
        entry.2 ≠ [] ∧ ∀ s ∈ entry.2, s ∈ run.staticStubs ∧ s.owner = entry.1) →
      ∀ entry ∈ (stubs.foldl (fun groups s => groups.alter s.owner fun old =>
        old.getD [] ++ [s]) groups).entries,
        entry.2 ≠ [] ∧ ∀ s ∈ entry.2, s ∈ run.staticStubs ∧ s.owner = entry.1 := by
    intro stubs
    induction stubs with
    | nil => exact fun groups _ hgroups => hgroups
    | cons first rest ih =>
        intro groups hstubs hgroups
        obtain ⟨hfirst, hrest⟩ := List.forall_mem_cons.mp hstubs
        refine ih _ hrest (OrderedMap.forall_mem_alter hgroups ?_ ?_)
        · simp [hfirst]
        · rintro old ⟨-, hold⟩
          simp only [Option.getD_some]
          refine ⟨by simp, List.forall_mem_append.mpr ⟨hold, ?_⟩⟩
          exact List.forall_mem_singleton.mpr ⟨hfirst, rfl⟩
  exact hfold run.staticStubs .empty (fun _ hs => hs) (List.forall_mem_nil _) group h

theorem mem_classes_of_writtenStubs {config : Config} {group : ClassName × List StaticStub}
    (hgroup : group ∈ run.writtenStubs config) :
    group.1 ∈ run.classes ∧ ∀ s ∈ group.2, ∀ c ∈ s.returns.classes, c ∈ run.classes := by
  simp only [writtenStubs] at hgroup
  split at hgroup
  · cases hgroup
  · obtain ⟨hne, hall⟩ := mem_stubsByClass hgroup
    have hstub : ∀ s ∈ run.staticStubs, ∀ c ∈ s.owner :: s.returns.classes, c ∈ run.classes :=
      fun s hs c hc => List.mem_append_right _ (List.mem_flatMap_of_mem hs hc)
    obtain ⟨s, hs⟩ := List.exists_mem_of_ne_nil _ hne
    refine ⟨?_, fun s hs c hc => hstub s (hall s hs).1 c (List.mem_cons_of_mem _ hc)⟩
    rw [← (hall s hs).2]
    exact hstub s (hall s hs).1 _ List.mem_cons_self

end Execution

/-- A check for equality is one with the result. -/
theorem ResultCheck.eq_some_of_ofResult {language : Language} {result : Option Value} {v : Value}
    (h : ofResult language result = .equals v) : result = some v := by
  simp only [ofResult] at h
  split at h
  · cases h
  · split at h
    · cases h
    · split at h
      · cases h
      · cases h
        rfl

/-! ## Classes in code -/

/-- The classes that a mention names. -/
def Mention.classes : Mention → List ClassName
  | .ofClass c | .typeClass c | .function c _ => [c]
  | .helper _ | .assertion _ | .mocking _ | .staticMocks | .nonFinite => []

/-- Mentions name classes of a kind only, and classes without a package. -/
def NamesOnly (P : ClassName → Prop) (ms : List Mention) : Prop :=
  ∀ x ∈ ms, ∀ c ∈ x.classes, c.isGlobal = true ∨ P c

namespace NamesOnly

variable {P : ClassName → Prop} {ms ns : List Mention} {x : Mention}

theorem nil : NamesOnly P [] := List.forall_mem_nil _

theorem append_iff : NamesOnly P (ms ++ ns) ↔ NamesOnly P ms ∧ NamesOnly P ns :=
  List.forall_mem_append

theorem append (h : NamesOnly P ms) (h' : NamesOnly P ns) : NamesOnly P (ms ++ ns) :=
  append_iff.mpr ⟨h, h'⟩

/-- A mention that names no class in front. -/
theorem cons (hx : x.classes = []) (h : NamesOnly P ms) : NamesOnly P (x :: ms) := by
  refine List.forall_mem_cons.mpr ⟨fun c hc => ?_, h⟩
  rw [hx] at hc
  cases hc

/-- A mention of one class in front. -/
theorem consClass {c : ClassName} (hx : x.classes = [c]) (hc : c.isGlobal = true ∨ P c)
    (h : NamesOnly P ms) : NamesOnly P (x :: ms) := by
  refine List.forall_mem_cons.mpr ⟨fun k hk => ?_, h⟩
  rw [hx] at hk
  exact List.mem_singleton.mp hk ▸ hc

theorem type {t : DataType} (h : ∀ c ∈ t.classes, P c) : NamesOnly P t.mentions := by
  induction t with
  | array element ih => exact ih h
  | ofClass c => exact nil.consClass rfl (Or.inr (h c (List.mem_singleton_self c)))
  | _ => exact nil

theorem classType {c : ClassName} (h : P c) : NamesOnly P (DataType.mentions (.ofClass c)) :=
  nil.consClass rfl (Or.inr h)

theorem exprs_iff {es : List Expr} :
    NamesOnly P (Expr.mentionsOf es) ↔ ∀ e ∈ es, NamesOnly P e.mentions := by
  induction es with
  | nil => simp [Expr.mentionsOf, nil]
  | cons e rest ih => simp [Expr.mentionsOf, append_iff, ih]

theorem stmts_iff {body : List Stmt} :
    NamesOnly P (Stmt.mentionsOf body) ↔ ∀ s ∈ body, NamesOnly P s.mentions := by
  induction body with
  | nil => simp [Stmt.mentionsOf, nil]
  | cons s rest ih => simp [Stmt.mentionsOf, append_iff, ih]

theorem literal (l : Literal) : NamesOnly P (Expr.literal l).mentions := by
  simp only [Expr.mentions]
  split
  · exact nil.cons rfl
  · exact nil

theorem call {e : Executable} {receiver : Expr} {arguments : List Expr} (howner : P e.owner)
    (hreceiver : NamesOnly P receiver.mentions)
    (harguments : ∀ a ∈ arguments, NamesOnly P a.mentions) :
    NamesOnly P (e.call receiver arguments).mentions := by
  have hall := exprs_iff.mpr harguments
  simp only [Executable.call]
  cases e.kind with
  | method => exact hreceiver.append hall
  | staticMethod => exact hall.consClass rfl (Or.inr howner)
  | function => exact hall.consClass rfl (Or.inr howner)
  | constructor => exact hall.consClass rfl (Or.inr howner)

theorem allocation (language : Language) {owner : ClassName} (howner : P owner) :
    NamesOnly P (Draft.allocation language owner).mentions := by
  have hname : NamesOnly P (Expr.mentionsOf [.str owner.qualifiedName]) :=
    (literal _).append nil
  have hclass : NamesOnly P [.ofClass owner] := nil.consClass rfl (Or.inr howner)
  cases language with
  | java | kotlin => exact (classType howner).append (hname.cons rfl)
  | python => exact (hclass.append nil).consClass rfl (Or.inl rfl)
  | javascript => exact (hclass.append nil).consClass rfl (Or.inl rfl)
  | go => exact hclass

theorem statement (way : Draft.FieldWriting) {object value : Expr} (name : String)
    (hobject : NamesOnly P object.mentions) (hvalue : NamesOnly P value.mentions) :
    NamesOnly P (way.statement object name value).mentions := by
  have hall := hobject.append ((literal (.str name)).append (hvalue.append nil))
  cases way with
  | assignment => exact hobject.append hvalue
  | helper => exact hall.cons rfl
  | setattr => exact hall.consClass rfl (Or.inl rfl)

theorem apart {before after : List Stmt} (hbefore : NamesOnly P (Stmt.mentionsOf before))
    (hafter : NamesOnly P (Stmt.mentionsOf after)) :
    NamesOnly P (Stmt.mentionsOf (apart before after)) := by
  rw [stmts_iff] at *
  simp only [TestWriter.apart]
  split
  · exact hafter
  · exact List.forall_mem_append.mpr ⟨hbefore, List.forall_mem_cons.mpr ⟨nil, hafter⟩⟩

theorem enclose {scopes : List StaticScope} {body : List Stmt}
    (hscopes : ∀ scope ∈ scopes, P scope.owner ∧
      NamesOnly P (Stubbing.mentionsOf scope.stubbings))
    (hbody : NamesOnly P (Stmt.mentionsOf body)) :
    NamesOnly P (Stmt.mentionsOf (StaticScope.enclose scopes body)) := by
  induction scopes with
  | nil => exact hbody
  | cons scope rest ih =>
      obtain ⟨⟨howner, hstubbings⟩, hrest⟩ := List.forall_mem_cons.mp hscopes
      have hinner := hstubbings.append (ih hrest)
      have hscope := ((hinner.consClass (x := .ofClass scope.owner) rfl (Or.inr howner)).cons
        (x := .mocking "mockStatic") rfl).cons (x := .staticMocks) rfl
      exact hscope.append nil

end NamesOnly

/-! ## Builds that keep to the classes of their evidence -/

namespace Draft

variable {P : ClassName → Prop}

/-- A build adds statements that name classes of a kind only to a draft of such statements, and its
result has a property. -/
def Keeps {α : Type} (P : ClassName → Prop) (m : Build Draft α) (result : α → Prop) : Prop :=
  ∀ d a d', NamesOnly P (Stmt.mentionsOf d.statements) → m d = .ok a d' →
    NamesOnly P (Stmt.mentionsOf d'.statements) ∧ result a

/-- An expression names classes of a kind only. -/
abbrev NamesIn (P : ClassName → Prop) (e : Expr) : Prop := NamesOnly P e.mentions

section

variable {α β : Type} {m : Build Draft α} {f : α → Build Draft β} {Q : α → Prop} {R : β → Prop}

theorem Keeps.pure {a : α} (ha : Q a) : Keeps P (Pure.pure a) Q := by
  intro d b d' hd h
  obtain ⟨rfl, rfl⟩ := Build.pure_eq_ok.mp h
  exact ⟨hd, ha⟩

theorem Keeps.refuse (cause : BuildFailure) : Keeps P (Build.refuse cause : Build Draft α) Q :=
  fun _ _ _ _ h => absurd h Build.refuse_ne_ok

theorem Keeps.bind (hm : Keeps P m Q) (hf : ∀ a, Q a → Keeps P (f a) R) :
    Keeps P (m >>= f) R := by
  intro d b d'' hd h
  obtain ⟨a, d', hma, hfa⟩ := Build.bind_eq_ok.mp h
  obtain ⟨hd', ha⟩ := hm d a d' hd hma
  exact hf a ha d' b d'' hd' hfa

/-- A step that writes no statement. -/
theorem Keeps.silent (h : ∀ d a d', m d = .ok a d' → d'.statements = d.statements) :
    Keeps P m fun _ => True := by
  intro d a d' hd hm
  rw [h d a d' hm]
  exact ⟨hd, trivial⟩

end

theorem push_keeps {s : Stmt} (hs : NamesOnly P s.mentions) :
    Keeps P (push s) fun _ => True := by
  intro d u d' hd h
  cases h
  rw [NamesOnly.stmts_iff] at hd ⊢
  exact ⟨List.forall_mem_append.mpr ⟨hd, List.forall_mem_singleton.mpr hs⟩, trivial⟩

theorem drain_keeps :
    Keeps P drain fun body => NamesOnly P (Stmt.mentionsOf body) := by
  intro d body d' hd h
  cases h
  exact ⟨NamesOnly.nil, hd⟩

theorem freshVariable_keeps (base : String) : Keeps P (freshVariable base) fun _ => True := by
  refine .silent fun d name d' h => ?_
  cases h
  rfl

theorem takeVariables_keeps (names : List String) :
    Keeps P (takeVariables names) fun _ => True := by
  induction names with
  | nil => exact .pure trivial
  | cons base rest ih => exact (freshVariable_keeps base).bind fun _ _ => ih

theorem require_keeps (h : Helper) : Keeps P (require h) fun _ => True := by
  refine .silent fun d u d' hok => ?_
  cases hok
  rfl

theorem markMocks_keeps : Keeps P markMocks fun _ => True := by
  refine .silent fun d u d' h => ?_
  cases h
  rfl

theorem announce_keeps (way : FieldWriting) : Keeps P way.announce fun _ => True := by
  cases way with
  | helper => exact require_keeps _
  | assignment => exact .pure trivial
  | setattr => exact .pure trivial

theorem declare_keeps (base : String) {type : DataType} {initial : Expr}
    (htype : NamesOnly P type.mentions) (hinitial : NamesIn P initial) :
    Keeps P (declare base type initial) (NamesIn P) := by
  refine (freshVariable_keeps base).bind fun name _ => ?_
  have hdeclare : NamesOnly P (Stmt.declare name type false (some initial)).mentions :=
    htype.append hinitial
  exact (push_keeps hdeclare).bind fun _ _ => .pure NamesOnly.nil

theorem allocate_keeps (language : Language) (base : String) {owner : ClassName}
    (howner : P owner) : Keeps P (allocate language base owner) (NamesIn P) := by
  have hdeclare := declare_keeps base (NamesOnly.classType howner)
    (NamesOnly.allocation language howner)
  simp only [allocate]
  split
  · exact (require_keeps _).bind fun _ _ => hdeclare
  · exact hdeclare

mutual

/-- The statements and the expression of a value name the classes of the value. -/
theorem express_keeps (language : Language) (base : String) :
    ∀ v : Value, (∀ c ∈ v.classes, P c) → Keeps P (express language base v) (NamesIn P)
  | .literal l, _ => .pure (NamesOnly.literal l)
  | .enumConstant owner name, hv =>
      .pure (NamesOnly.nil.consClass rfl (Or.inr (hv owner (List.mem_singleton_self _))))
  | .array element values, hv => by
      obtain ⟨helement, hvalues⟩ := List.forall_mem_append.mp hv
      refine (expressEach_keeps language _ 0 values hvalues).bind fun es hes => ?_
      exact declare_keeps base (NamesOnly.type helement)
        ((NamesOnly.type helement).append (NamesOnly.exprs_iff.mpr hes))
  | .composite owner arguments fields, hv => by
      obtain ⟨howner, hparts⟩ := List.forall_mem_cons.mp hv
      obtain ⟨harguments, hfields⟩ := List.forall_mem_append.mp hparts
      simp only [express]
      split
      · exact .refuse _
      · refine (expressEach_keeps language _ 0 arguments harguments).bind fun es hes => ?_
        have hnew : NamesIn P (.construct owner es) :=
          (NamesOnly.exprs_iff.mpr hes).consClass rfl (Or.inr howner)
        have hobject := declare_keeps base (NamesOnly.classType howner) hnew
        refine hobject.bind fun object hobject => ?_
        exact (writeFields_keeps language _ hobject fields hfields).bind
          fun _ _ => .pure hobject
  | .reflective owner fields, hv => by
      obtain ⟨howner, hfields⟩ := List.forall_mem_cons.mp hv
      refine (allocate_keeps language base howner).bind fun object hobject => ?_
      exact (writeFields_keeps language _ hobject fields hfields).bind fun _ _ => .pure hobject
  | .mock owner stubs, hv => by
      obtain ⟨howner, hstubs⟩ := List.forall_mem_cons.mp hv
      simp only [express]
      split
      · have hmock : NamesIn P (.mock owner) :=
          (NamesOnly.nil.consClass rfl (Or.inr howner)).cons rfl
        have hobject := declare_keeps base (NamesOnly.classType howner) hmock
        refine markMocks_keeps.bind fun _ _ => hobject.bind fun object hobject => ?_
        exact (addStubs_keeps language hobject stubs hstubs).bind fun _ _ => .pure hobject
      · exact .refuse _

theorem expressEach_keeps (language : Language) (base : Nat → String) (index : Nat) :
    ∀ vs : List Value, (∀ c ∈ Value.classesOf vs, P c) →
      Keeps P (expressEach language base index vs) fun es => ∀ e ∈ es, NamesIn P e
  | [], _ => .pure (List.forall_mem_nil _)
  | v :: rest, hvs => by
      obtain ⟨hv, hrest⟩ := List.forall_mem_append.mp hvs
      refine (express_keeps language (base index) v hv).bind fun e he => ?_
      refine (expressEach_keeps language base (index + 1) rest hrest).bind fun es hes => ?_
      exact .pure (List.forall_mem_cons.mpr ⟨he, hes⟩)

theorem writeFields_keeps (language : Language) (way : FieldWriting) {object : Expr}
    (hobject : NamesIn P object) :
    ∀ fields : List Field, (∀ c ∈ Value.fieldClasses fields, P c) →
      Keeps P (writeFields language way object fields) fun _ => True
  | [], _ => .pure trivial
  | .mk name v :: rest, hfields => by
      obtain ⟨hv, hrest⟩ := List.forall_mem_append.mp hfields
      simp only [writeFields]
      refine (announce_keeps way).bind fun _ _ => ?_
      refine (express_keeps language name v hv).bind fun e he => ?_
      exact (push_keeps (NamesOnly.statement way name hobject he)).bind fun _ _ =>
        writeFields_keeps language way hobject rest hrest

theorem addStubs_keeps (language : Language) {object : Expr} (hobject : NamesIn P object) :
    ∀ stubs : List Stub, (∀ c ∈ Value.stubClasses stubs, P c) →
      Keeps P (addStubs language object stubs) fun _ => True
  | [], _ => .pure trivial
  | .mk method arguments returns :: rest, hstubs => by
      obtain ⟨harguments, hmore⟩ := List.forall_mem_append.mp hstubs
      obtain ⟨hreturns, hrest⟩ := List.forall_mem_append.mp hmore
      simp only [addStubs]
      refine (expressEach_keeps language _ 0 arguments harguments).bind fun es hes => ?_
      refine (express_keeps language (method ++ "Result") returns hreturns).bind fun e he => ?_
      have hstub : NamesOnly P (Stmt.stub object (.mk method es e)).mentions :=
        (hobject.append ((NamesOnly.exprs_iff.mpr hes).append he)).cons rfl
      exact (push_keeps hstub).bind fun _ _ => addStubs_keeps language hobject rest hrest

end

/-! ### Tests of runs -/

section

variable {language : Language} {config : Config} {e : Executable} {run : Execution}

theorem checkCount_keeps (e : Executable) (run : Execution) :
    Keeps P (checkCount e run) fun _ => True := by
  simp only [checkCount]
  split
  · exact .pure trivial
  · exact .refuse _

theorem targetOfRun_keeps (hrun : ∀ c ∈ run.classes, P c) :
    Keeps P (targetOfRun language e run) (NamesIn P) := by
  simp only [targetOfRun]
  cases e.kind with
  | method =>
      cases hreceiver : run.receiver with
      | some v =>
          exact express_keeps language _ v fun c hc =>
            hrun c (Execution.mem_classes_receiver hreceiver hc)
      | none => exact .refuse _
  | constructor =>
      dsimp only
      split
      · exact .refuse _
      · exact .pure (NamesOnly.literal _)
  | staticMethod => exact .pure (NamesOnly.literal _)
  | function => exact .pure (NamesOnly.literal _)

theorem callOfRun_keeps (names : List String) (he : ∀ c ∈ e.classes, P c)
    (hrun : ∀ c ∈ run.classes, P c) : Keeps P (callOfRun language e names run) (NamesIn P) := by
  refine (checkCount_keeps e run).bind fun _ _ => ?_
  refine (targetOfRun_keeps hrun).bind fun target htarget => ?_
  have harguments := expressEach_keeps (P := P) language (fun i => names.getD i "") 0 run.arguments
    fun c hc => hrun c (Execution.mem_classes_arguments hc)
  exact harguments.bind fun es hes => .pure (NamesOnly.call (he _ e.owner_mem_classes) htarget hes)

theorem markStatics_keeps (stubs : List (ClassName × List StaticStub)) :
    Keeps P (markStatics stubs) fun _ => True := by
  simp only [markStatics]
  split
  · exact .pure trivial
  · exact markMocks_keeps

theorem staticStubbings_keeps (stubs : List StaticStub)
    (hstubs : ∀ s ∈ stubs, ∀ c ∈ s.returns.classes, P c) :
    Keeps P (staticStubbings language stubs) fun bs => NamesOnly P (Stubbing.mentionsOf bs) := by
  induction stubs with
  | nil => exact .pure NamesOnly.nil
  | cons s rest ih =>
      obtain ⟨hs, hrest⟩ := List.forall_mem_cons.mp hstubs
      refine (express_keeps language (s.method ++ "Result") s.returns hs).bind fun x hx => ?_
      exact (ih hrest).bind fun bs hbs => .pure ((NamesOnly.nil.append hx).append hbs)

theorem staticScopes_keeps (groups : List (ClassName × List StaticStub))
    (hgroups : ∀ group ∈ groups, P group.1 ∧ ∀ s ∈ group.2, ∀ c ∈ s.returns.classes, P c) :
    Keeps P (staticScopes language groups) fun scopes => ∀ scope ∈ scopes,
      P scope.owner ∧ NamesOnly P (Stubbing.mentionsOf scope.stubbings) := by
  induction groups with
  | nil => exact .pure (List.forall_mem_nil _)
  | cons group rest ih =>
      obtain ⟨⟨howner, hstubs⟩, hrest⟩ := List.forall_mem_cons.mp hgroups
      refine (staticStubbings_keeps group.2 hstubs).bind fun bs hbs => ?_
      refine (freshVariable_keeps "mockedStatic").bind fun handle _ => ?_
      exact (ih hrest).bind fun scopes hscopes =>
        .pure (List.forall_mem_cons.mpr ⟨⟨howner, hbs⟩, hscopes⟩)

theorem declareActual_keeps (he : ∀ c ∈ e.classes, P c) {call : Expr} (hcall : NamesIn P call) :
    Keeps P (declareActual e call) (NamesIn P) := by
  have htype := NamesOnly.type fun c hc => he c (Executable.mem_classes_returnType hc)
  refine (declare_keeps "actual" htype hcall).bind fun actual hactual => ?_
  exact (push_keeps NamesOnly.nil).bind fun _ _ => .pure hactual

theorem assertEqual_keeps {v : Value} (hv : ∀ c ∈ v.classes, P c) {actual : Expr}
    (hactual : NamesIn P actual) : Keeps P (assertEqual language v actual) fun _ => True := by
  refine (express_keeps language "expected" v hv).bind fun expected hexpected => ?_
  split
  · have hall := hexpected.append (hactual.append NamesOnly.nil)
    exact (require_keeps _).bind fun _ _ =>
      push_keeps ((hall.cons (x := .helper .deepEquals) rfl).cons (x := .assertion _) rfl)
  · exact push_keeps ((hexpected.append hactual).cons rfl)

theorem checkResult_keeps (he : ∀ c ∈ e.classes, P c) {call : Expr} (hcall : NamesIn P call)
    (check : ResultCheck) (hcheck : ∀ v, check = .equals v → ∀ c ∈ v.classes, P c) :
    Keeps P (checkResult language e call check) fun _ => True := by
  have hdeclare := declareActual_keeps he hcall
  cases check with
  | ignored => exact push_keeps hcall
  | isNull => exact hdeclare.bind fun actual hactual => push_keeps (hactual.cons rfl)
  | isNaN =>
      exact hdeclare.bind fun actual hactual => push_keeps ((hactual.append hactual).cons rfl)
  | equals v =>
      exact hdeclare.bind fun actual hactual => assertEqual_keeps (hcheck v rfl) hactual

theorem checkOutcome_keeps (he : ∀ c ∈ e.classes, P c) (hrun : ∀ c ∈ run.classes, P c)
    {call : Expr} (hcall : NamesIn P call) :
    Keeps P (checkOutcome config e run call) fun _ => True := by
  have hpush : Keeps P (push (.eval call)) fun _ => True := push_keeps hcall
  have hcomment : ∀ text, Keeps P (push (.comment text)) fun _ => True :=
    fun _ => push_keeps NamesOnly.nil
  simp only [checkOutcome]
  cases houtcome : run.outcome with
  | success value =>
      refine checkResult_keeps he hcall _ fun v hv c hc => hrun c ?_
      exact Execution.mem_classes_result (ResultCheck.eq_some_of_ofResult hv) hc
  | runtimeFailure exception message kind =>
      dsimp only
      split
      · have hexception : NamesIn P (.classOf exception) :=
          NamesOnly.nil.consClass rfl (Or.inr (hrun _ (Execution.mem_classes_exception houtcome)))
        exact push_keeps ((hexception.append (NamesOnly.append hcall NamesOnly.nil)).cons rfl)
      · exact (hcomment _).bind fun _ _ => hpush
  | timeout limit =>
      dsimp only
      split
      · exact (hcomment _).bind fun _ _ => hpush
      · exact hpush
  | crash reason => exact (hcomment _).bind fun _ _ => hpush

/-- The test of a run names the classes of the run and of the executable. -/
theorem bodyOfRun_keeps (he : ∀ c ∈ e.classes, P c) (hrun : ∀ c ∈ run.classes, P c) :
    Keeps P (bodyOfRun config e run) fun body => NamesOnly P (Stmt.mentionsOf body) := by
  refine (callOfRun_keeps _ he hrun).bind fun call hcall => ?_
  refine (markStatics_keeps _).bind fun _ _ => ?_
  have hgroups : ∀ group ∈ run.writtenStubs config,
      P group.1 ∧ ∀ s ∈ group.2, ∀ c ∈ s.returns.classes, P c := fun group hgroup =>
    (Execution.mem_classes_of_writtenStubs hgroup).imp (hrun _) fun h s hs c hc =>
      hrun c (h s hs c hc)
  refine (staticScopes_keeps _ hgroups).bind fun scopes hscopes => ?_
  refine drain_keeps.bind fun arrange harrange => ?_
  refine (checkOutcome_keeps he hrun hcall).bind fun _ _ => ?_
  exact drain_keeps.bind fun act hact => .pure (harrange.apart (hact.enclose hscopes))

end

/-! ### Tables -/

section

variable {language : Language} {e : Executable} {run : Execution} {columns : List Column}

theorem cellExpr_keeps (c : Column) (hrun : ∀ k ∈ run.classes, P k) :
    Keeps P (cellExpr language e run c) (NamesIn P) := by
  simp only [cellExpr]
  cases hcell : run.cell c.role with
  | value v =>
      exact express_keeps language _ v fun k hk => hrun k (Execution.mem_classes_cell hcell hk)
  | exception owner =>
      have howner := hrun _ (Execution.exception_mem_classes hcell)
      exact .pure (NamesOnly.nil.consClass rfl (Or.inr howner))
  | absent =>
      dsimp only
      split
      · exact .refuse _
      · exact .pure (NamesOnly.literal _)

theorem cellExprs_keeps (columns : List Column) (hrun : ∀ k ∈ run.classes, P k) :
    Keeps P (cellExprs language e run columns) fun xs => ∀ x ∈ xs, NamesIn P x := by
  induction columns with
  | nil => exact .pure (List.forall_mem_nil _)
  | cons c rest ih =>
      exact (cellExpr_keeps c hrun).bind fun x hx => ih.bind fun xs hxs =>
        .pure (List.forall_mem_cons.mpr ⟨hx, hxs⟩)

theorem tableRows_keeps (rows : List Execution) (hrows : ∀ run ∈ rows, ∀ k ∈ run.classes, P k) :
    Keeps P (tableRows language e columns rows) fun xs => ∀ x ∈ xs, NamesIn P x := by
  induction rows with
  | nil => exact .pure (List.forall_mem_nil _)
  | cons run rest ih =>
      obtain ⟨hrun, hrest⟩ := List.forall_mem_cons.mp hrows
      refine (checkCount_keeps e run).bind fun _ _ => ?_
      refine (cellExprs_keeps columns hrun).bind fun xs hxs => ?_
      refine (ih hrest).bind fun more hmore => .pure (List.forall_mem_cons.mpr ⟨?_, hmore⟩)
      exact NamesOnly.nil.append (NamesOnly.exprs_iff.mpr hxs)

/-- A data provider names the classes of its rows. -/
theorem providerBody_keeps {rows : List Execution}
    (hrows : ∀ run ∈ rows, ∀ k ∈ run.classes, P k) :
    Keeps P (providerBody language e columns rows) fun body =>
      NamesOnly P (Stmt.mentionsOf body) := by
  refine (tableRows_keeps rows hrows).bind fun xs hxs => ?_
  refine drain_keeps.bind fun arrange harrange => .pure (harrange.apart ?_)
  have htable : NamesIn P (.arrayOf (.array .any) xs) :=
    NamesOnly.nil.append (NamesOnly.exprs_iff.mpr hxs)
  exact NamesOnly.append htable NamesOnly.nil

theorem reference_namesOnly {role : ColumnRole} {x : Expr}
    (h : Column.reference? columns role = some x) : NamesIn P x := by
  obtain ⟨c, -, rfl⟩ := Option.map_eq_some_iff.mp h
  exact NamesOnly.nil

theorem callOfRow_namesOnly (he : ∀ k ∈ e.classes, P k) : NamesIn P (callOfRow e columns) := by
  refine NamesOnly.call (he _ e.owner_mem_classes) ?_ fun x hx => ?_
  · cases hreceiver : Column.reference? columns .receiver with
    | none => exact NamesOnly.literal _
    | some x => exact reference_namesOnly hreceiver
  · obtain ⟨c, -, hc⟩ := List.mem_filterMap.mp hx
    split at hc
    · cases hc
      exact NamesOnly.nil
    · cases hc

theorem assertExpected_keeps {returnType : DataType} (htype : ∀ k ∈ returnType.classes, P k)
    {expected actual : Expr} (hexpected : NamesIn P expected) (hactual : NamesIn P actual) :
    Keeps P (assertExpected language returnType expected actual) fun _ => True := by
  have hequals : ∀ {x : Expr} (delta : Option Literal) (deep : Bool), NamesIn P x →
      Keeps P (push (.assertEquals x actual delta deep)) fun _ => True :=
    fun delta deep hx => push_keeps ((NamesOnly.append hx hactual).cons rfl)
  simp only [assertExpected]
  split
  · have hall := hexpected.append (hactual.append NamesOnly.nil)
    exact (require_keeps _).bind fun _ _ =>
      push_keeps ((hall.cons (x := .helper .deepEquals) rfl).cons (x := .assertion _) rfl)
  · split
    · refine hequals _ _ ?_
      split
      · exact (NamesOnly.type htype).append hexpected
      · exact hexpected
    all_goals exact hequals _ _ hexpected

theorem checkRow_keeps (he : ∀ k ∈ e.classes, P k) :
    Keeps P (checkRow language e columns) fun _ => True := by
  have hcall : NamesIn P (callOfRow e columns) := callOfRow_namesOnly he
  simp only [checkRow]
  cases hexpected : Column.reference? columns .expected with
  | none => exact push_keeps hcall
  | some expected =>
      refine (declareActual_keeps he hcall).bind fun actual hactual => ?_
      exact assertExpected_keeps (fun k hk => he k (Executable.mem_classes_returnType hk))
        (reference_namesOnly hexpected) hactual

/-- The test of a table names the classes of its executable. -/
theorem tableBody_keeps (he : ∀ k ∈ e.classes, P k) :
    Keeps P (tableBody language e columns) fun body => NamesOnly P (Stmt.mentionsOf body) := by
  refine (takeVariables_keeps _).bind fun _ _ => (checkRow_keeps he).bind fun _ _ => ?_
  refine drain_keeps.bind fun success hsuccess => .pure ?_
  simp only [branchOnError]
  cases herror : Column.reference? columns .expectedError with
  | none => exact hsuccess
  | some error =>
      have hreference := reference_namesOnly (P := P) herror
      have hcondition := hreference.append (NamesOnly.literal .null)
      have hthrows : NamesOnly P
          (Stmt.mentions (.assertThrows error [.eval (callOfRow e columns)])) :=
        (hreference.append (NamesOnly.append (callOfRow_namesOnly he) NamesOnly.nil)).cons rfl
      exact ((hcondition.append hsuccess).append (hthrows.append NamesOnly.nil)).append
        NamesOnly.nil

end

end Draft

/-- The columns of a table have the types of the executable. -/
theorem Column.classes_ofRuns {config : Config} {e : Executable} {rows : List Execution}
    {c : Column} (hc : c ∈ ofRuns config e rows) {k : ClassName}
    (hk : k ∈ c.parameter.type.classes) : k ∈ e.classes := by
  have hmem := List.mem_map_of_mem (f := fun c => (c.role, c.parameter.type)) hc
  rw [roles_ofRuns] at hmem
  simp only [plan, List.mem_append] at hmem
  rcases hmem with ((hmem | hmem) | hmem) | hmem
  · split at hmem
    · rw [(Prod.mk.inj (List.mem_singleton.mp hmem)).2] at hk
      exact List.mem_singleton.mp hk ▸ e.owner_mem_classes
    · cases hmem
  · obtain ⟨i, hi, hentry⟩ := List.mem_mapIdx.mp hmem
    rw [← (Prod.mk.inj hentry).2] at hk
    exact Executable.mem_classes_parameter (List.getElem_mem hi) hk
  · split at hmem
    · rw [(Prod.mk.inj (List.mem_singleton.mp hmem)).2] at hk
      cases hk
    · cases hmem
  · split at hmem
    · rw [(Prod.mk.inj (List.mem_singleton.mp hmem)).2] at hk
      cases hk
    · cases hmem

/-! ## Methods and classes -/

/-- What the code of a method mentions in its parameters, its result and its body. -/
def Method.codeMentions (m : Method) : List Mention :=
  parameterMentions m.parameters ++ m.returnType.mentions ++ Stmt.mentionsOf m.body

/-- The code of a method names the classes of the evidence that it comes from. -/
theorem Method.ComesFrom.namesOnly {P : ClassName → Prop} {config : Config} {sets : List TestSet}
    {m : Method} (h : m.ComesFrom config sets)
    (hsets : ∀ set ∈ sets, ∀ k ∈ set.classes, P k) : NamesOnly P m.codeMentions := by
  have hexecutable : ∀ set ∈ sets, ∀ k ∈ set.executable.classes, P k :=
    fun set hset k hk => hsets set hset k (List.mem_append_left _ hk)
  have hruns : ∀ set ∈ sets, ∀ run ∈ set.executions, ∀ k ∈ run.classes, P k :=
    fun set hset run hrun k hk =>
      hsets set hset k (List.mem_append_right _ (List.mem_flatMap_of_mem hrun hk))
  cases h with
  | @test set run m hplain hset hrun hwrites =>
      obtain ⟨g, g', hconfig, htest⟩ := hwrites
      obtain ⟨body, d, name, names, hbody, rfl, -⟩ := Execution.eq_of_toTest_ok htest
      exact (Draft.bodyOfRun_keeps (hexecutable set hset) (hruns set hset run hrun) _ _ _
        NamesOnly.nil hbody).2
  | @table set t g g' htables hset hconfig htable =>
      obtain ⟨names, providerBody, d, testBody, d', providerName, testName, names', -, htest, rfl,
        -⟩ := TestSet.eq_of_toTable_ok htable
      refine NamesOnly.append (NamesOnly.append ?_ NamesOnly.nil) ?_
      · intro x hx
        obtain ⟨p, hp, hx⟩ := List.mem_flatMap.mp hx
        obtain ⟨c, hc, rfl⟩ := List.mem_map.mp hp
        exact NamesOnly.type (fun k hk => hexecutable set hset k (Column.classes_ofRuns hc hk)) x hx
      · exact (Draft.tableBody_keeps (hexecutable set hset) _ _ _ NamesOnly.nil htest).2
  | @provider set t g g' htables hset hconfig htable =>
      obtain ⟨names, providerBody, d, testBody, d', providerName, testName, names', hprovider, -,
        rfl, -⟩ := TestSet.eq_of_toTable_ok htable
      have hrows : ∀ run ∈ set.rows, ∀ k ∈ run.classes, P k :=
        fun run hrun => hruns set hset run (List.mem_of_mem_filter hrun)
      exact (Draft.providerBody_keeps hrows _ _ _ NamesOnly.nil hprovider).2
  | listing hset hlists =>
      obtain ⟨name, errors, rfl⟩ := hlists
      exact NamesOnly.nil
  | helper h => exact NamesOnly.nil

/-- The code of a built class names the classes of its evidence, and classes without a package. -/
theorem Generation.namesOnly_of_construct {P : ClassName → Prop} {g : Generation}
    {sets : List TestSet} {c : Construction} (hc : g.construct sets = .ok c)
    (hsets : ∀ set ∈ sets, ∀ k ∈ set.classes, P k) :
    ∀ m ∈ c.file.testClass.methods, NamesOnly P m.codeMentions :=
  fun m hm => (construct_comesFrom hc m hm).namesOnly hsets

end TestWriter
