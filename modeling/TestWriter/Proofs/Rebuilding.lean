import TestWriter.Proofs.Description
import TestWriter.Proofs.FreshNames
import TestWriter.Proofs.Inversion
import TestWriter.Proofs.Obstacle

/-!
# Values are rebuilt

The statements that the build of a value adds to a draft are run in a memory.  Main statements: a
declaration touches no variable whose name was taken and no object; fields and stubs are written to
one object, in their order; and the statements of a value end in a memory in which its expression
describes this value, by objects which they made.
-/

namespace TestWriter

mutual

/-- The value that tests of a language rebuild: Go has no way to make an object without its
constructor, so it makes it by a constructor without arguments. -/
def Value.rebuilt (language : Language) : Value → Value
  | .literal l => .literal l
  | .array element values => .array element (Value.rebuiltEach language values)
  | .composite owner arguments fields =>
    .composite owner (Value.rebuiltEach language arguments) (Field.rebuilt language fields)
  | .reflective owner fields =>
    if language = .go then .composite owner [] (Field.rebuilt language fields)
    else .reflective owner (Field.rebuilt language fields)
  | .mock owner stubs => .mock owner (Stub.rebuilt language stubs)
  | .enumConstant owner name => .enumConstant owner name

/-- The values that tests of a language rebuild. -/
def Value.rebuiltEach (language : Language) : List Value → List Value
  | [] => []
  | v :: rest => v.rebuilt language :: Value.rebuiltEach language rest

/-- The fields that tests of a language rebuild. -/
def Field.rebuilt (language : Language) : List Field → List Field
  | [] => []
  | .mk name v :: rest => .mk name (v.rebuilt language) :: Field.rebuilt language rest

/-- The stubs that tests of a language rebuild. -/
def Stub.rebuilt (language : Language) : List Stub → List Stub
  | [] => []
  | .mk method arguments returns :: rest =>
    .mk method (Value.rebuiltEach language arguments) (returns.rebuilt language) ::
      Stub.rebuilt language rest

end

mutual

/-- Outside Go a value is rebuilt as it is. -/
theorem Value.rebuilt_of_ne_go {language : Language} (h : language ≠ .go) :
    ∀ v : Value, v.rebuilt language = v
  | .literal l => rfl
  | .array element values => by
      rw [Value.rebuilt, Value.rebuiltEach_of_ne_go h values]
  | .composite owner arguments fields => by
      rw [Value.rebuilt, Value.rebuiltEach_of_ne_go h arguments, Field.rebuilt_of_ne_go h fields]
  | .reflective owner fields => by
      rw [Value.rebuilt, if_neg h, Field.rebuilt_of_ne_go h fields]
  | .mock owner stubs => by
      rw [Value.rebuilt, Stub.rebuilt_of_ne_go h stubs]
  | .enumConstant owner name => rfl

theorem Value.rebuiltEach_of_ne_go {language : Language} (h : language ≠ .go) :
    ∀ vs : List Value, Value.rebuiltEach language vs = vs
  | [] => rfl
  | v :: rest => by
      rw [Value.rebuiltEach, Value.rebuilt_of_ne_go h v, Value.rebuiltEach_of_ne_go h rest]

theorem Field.rebuilt_of_ne_go {language : Language} (h : language ≠ .go) :
    ∀ fields : List Field, Field.rebuilt language fields = fields
  | [] => rfl
  | .mk name v :: rest => by
      rw [Field.rebuilt, Value.rebuilt_of_ne_go h v, Field.rebuilt_of_ne_go h rest]

theorem Stub.rebuilt_of_ne_go {language : Language} (h : language ≠ .go) :
    ∀ stubs : List Stub, Stub.rebuilt language stubs = stubs
  | [] => rfl
  | .mk method arguments returns :: rest => by
      rw [Stub.rebuilt, Value.rebuiltEach_of_ne_go h arguments, Value.rebuilt_of_ne_go h returns,
        Stub.rebuilt_of_ne_go h rest]

end

/-! ## What drafts add -/

open Memory (Keeps KeepsAll)

namespace Draft

/-- A draft goes on with some statements, and the names it has taken stay taken. -/
structure Adds (d d' : Draft) (added : List Stmt) : Prop where
  statements : d'.statements = d.statements ++ added
  taken : ∀ x, d.supply.isTaken x = true → d'.supply.isTaken x = true

variable {d d' d'' : Draft} {added more : List Stmt}

theorem Adds.refl (d : Draft) : Adds d d [] := ⟨(List.append_nil _).symm, fun _ h => h⟩

theorem Adds.trans (h : Adds d d' added) (h' : Adds d' d'' more) : Adds d d'' (added ++ more) where
  statements := by rw [h'.statements, h.statements, List.append_assoc]
  taken x hx := h'.taken x (h.taken x hx)

theorem adds_push (d : Draft) (s : Stmt) :
    Adds d { d with statements := d.statements ++ [s] } [s] :=
  ⟨rfl, fun _ h => h⟩

/-- The declaration of a new object changes no other variable and no object. -/
theorem declare_adds {base : String} {type : DataType} {initial e : Expr}
    (h : declare base type initial d = .ok e d') :
    ∃ added, Adds d d' added ∧
      ∀ m o, initial.eval m = some (m.allocate o) →
        ∃ m', Stmt.runAll added m = some m' ∧ KeepsAll d.supply m m' ∧
          e.Denotes d'.supply m' (.object m.objects.length) ∧
          m'.objects[m.objects.length]? = some o := by
  obtain ⟨rfl, rfl⟩ := eq_of_declare_ok h
  have hfree : d.supply.isTaken (d.supply.claimVariable base).1 = false :=
    NameSupply.claimVariable_free
  refine ⟨_, ⟨rfl, fun y hy => NameSupply.isTaken_claimVariable.mpr (Or.inl hy)⟩, ?_⟩
  intro m o ho
  refine ⟨_, ?_, Memory.keepsAll_declared hfree o, ?_, Memory.objects_declared m _ o⟩
  · simp only [Stmt.runAll, Stmt.run, ho]
    rfl
  · refine Expr.denotes_ref (NameSupply.isTaken_claimVariable.mpr (Or.inr rfl)) ?_
    exact (Memory.lookup?_bind _ _ _ _).trans (if_pos rfl)

/-- The statement of a way to write a field writes it. -/
theorem FieldWriting.run_statement (way : FieldWriting) {object value : Expr} {s : NameSupply} {m : Memory}
    {place : Nat} {o o' : Object} {name : String} {d : Datum}
    (hobject : object.Denotes s m (.object place)) (hvalue : value.Denotes s m d)
    (ho : m.objects[place]? = some o) (hwrite : o.write? name d = some o') :
    (way.statement object name value).run m = some (m.changed place o') := by
  have hwritten : (way.statement object name value).write? = some (object, name, value) := by
    cases way <;> rfl
  cases way <;>
    simp only [FieldWriting.statement] at hwritten ⊢ <;>
    simp [Stmt.run, hwritten, hobject.eval, hvalue.eval, Memory.change?_eq ho hwrite]

/-- An object that is made without a constructor, as far as the language can do so. -/
def bareObject (language : Language) (owner : ClassName) (fields : List (String × Datum)) : Object :=
  if language = .go then .constructed owner [] fields else .bare owner fields

theorem eval_allocation (language : Language) (owner : ClassName) (m : Memory) :
    (allocation language owner).eval m = some (m.allocate (bareObject language owner [])) := by
  cases language <;>
    simp [allocation, Expr.eval, Expr.evalEach, Expr.allocated?, Expr.str, ClassName.global,
      bareObject]

theorem allocate_adds {language : Language} {base : String} {owner : ClassName} {e : Expr}
    (h : allocate language base owner d = .ok e d') :
    ∃ added, Adds d d' added ∧
      ∀ m, ∃ m', Stmt.runAll added m = some m' ∧ KeepsAll d.supply m m' ∧
        e.Denotes d'.supply m' (.object m.objects.length) ∧
        m'.objects[m.objects.length]? = some (bareObject language owner []) := by
  have hdeclared : ∀ g : Generation, declare base (.ofClass owner) (allocation language owner)
      { d with generation := g } = .ok e d' →
      ∃ added, Adds d d' added ∧
        ∀ m, ∃ m', Stmt.runAll added m = some m' ∧ KeepsAll d.supply m m' ∧
          e.Denotes d'.supply m' (.object m.objects.length) ∧
          m'.objects[m.objects.length]? = some (bareObject language owner []) := by
    intro g hdeclare
    obtain ⟨added, ⟨hstatements, htaken⟩, hruns⟩ := declare_adds hdeclare
    exact ⟨added, ⟨hstatements, htaken⟩, fun m => hruns m _ (eval_allocation language owner m)⟩
  simp only [allocate] at h
  split at h
  · obtain ⟨_, d₁, hrequire, h⟩ := Build.bind_eq_ok.mp h
    cases hrequire
    exact hdeclared _ h
  · exact hdeclared d.generation h

/-- What a way to write a field announces is no statement and takes no name. -/
theorem announce_adds {way : FieldWriting} {u : Unit} (h : way.announce d = .ok u d') :
    Adds d d' [] := by
  cases way <;> cases h <;> exact ⟨(List.append_nil _).symm, fun _ h => h⟩

/-! ## What is built -/

/-- The statements that were added build a value.  Run in any memory, they change no variable whose
name was taken and no object; afterwards the expression denotes a result that describes the value by
new objects. -/
structure Builds (d d' : Draft) (e : Expr) (v : Value) (added : List Stmt) : Prop
    extends Adds d d' added where
  runs : ∀ m, ∃ m' c, Stmt.runAll added m = some m' ∧ KeepsAll d.supply m m' ∧
    e.Denotes d'.supply m' c ∧ m'.Describes m.objects.length c v

/-- The statements that were added build some values. -/
structure BuildsEach (d d' : Draft) (es : List Expr) (vs : List Value) (added : List Stmt) : Prop
    extends Adds d d' added where
  runs : ∀ m, ∃ m' data, Stmt.runAll added m = some m' ∧ KeepsAll d.supply m m' ∧
    Expr.DenoteEach es d'.supply m' data ∧ m'.DescribesEach m.objects.length data vs

/-- The statements that were added write the fields of an object, after those that it has, and change
no other object. -/
structure WritesFields (d d' : Draft) (object : Expr) (fields : List Field) (added : List Stmt) : Prop
    extends Adds d d' added where
  runs : ∀ (m : Memory) place (make : List (String × Datum) → Object) before,
    (∀ writes name c, (make writes).write? name c = some (make (writes ++ [(name, c)]))) →
    object.Denotes d.supply m (.object place) → m.objects[place]? = some (make before) →
    ∃ m' writes, Stmt.runAll added m = some m' ∧ Keeps d.supply (· ≠ place) m m' ∧
      m'.objects[place]? = some (make (before ++ writes)) ∧
      m'.DescribesFields (place + 1) writes fields

/-- The statements that were added stub the methods of a mock, after those that it has, and change no
other object. -/
structure WritesStubs (d d' : Draft) (object : Expr) (stubs : List Stub) (added : List Stmt) : Prop
    extends Adds d d' added where
  runs : ∀ (m : Memory) place owner before, object.Denotes d.supply m (.object place) →
    m.objects[place]? = some (.mock owner before) →
    ∃ m' calls, Stmt.runAll added m = some m' ∧ Keeps d.supply (· ≠ place) m m' ∧
      m'.objects[place]? = some (.mock owner (before ++ calls)) ∧
      m'.DescribesStubs (place + 1) calls stubs

mutual

/-- The statements of a value build it. -/
theorem express_builds (language : Language) {base : String} {d d' : Draft} {e : Expr} :
    ∀ v : Value, express language base v d = .ok e d' →
      ∃ added, Builds d d' e (v.rebuilt language) added
  | .literal l, h => by
      obtain ⟨rfl, rfl⟩ := Build.pure_eq_ok.mp h
      exact ⟨[], .refl d, fun m => ⟨m, _, rfl, .refl m, fun _ _ => rfl, .literal l⟩⟩
  | .enumConstant owner name, h => by
      obtain ⟨rfl, rfl⟩ := Build.pure_eq_ok.mp h
      exact ⟨[], .refl d, fun m => ⟨m, _, rfl, .refl m, fun _ _ => rfl, .enumConstant owner name⟩⟩
  | .array element values, h => by
      obtain ⟨es, d₁, hes, h⟩ := Build.bind_eq_ok.mp h
      obtain ⟨added, hadds, hruns⟩ := expressEach_builds language values hes
      obtain ⟨more, hmore, hdeclare⟩ := declare_adds h
      refine ⟨added ++ more, hadds.trans hmore, ?_⟩
      intro m
      obtain ⟨m₁, data, hrun, hkeeps, hdata, hdescribes⟩ := hruns m
      obtain ⟨m₂, hrun', hkeeps', hdenotes, ho⟩ := hdeclare m₁ (.array element data)
        (by simp [Expr.eval, hdata.evalEach])
      refine ⟨m₂, _, Stmt.runAll_append_eq hrun hrun', hkeeps.trans hadds.taken hkeeps', hdenotes, ?_⟩
      exact .array (Memory.length_le_of_keepsAll hkeeps) ho
        (hdescribes.frame (Nat.le_refl _) (hkeeps'.onward fun _ _ => trivial))
  | .composite owner arguments fields, h => by
      simp only [express] at h
      split at h
      · exact absurd h Build.refuse_ne_ok
      · obtain ⟨es, d₁, hes, h⟩ := Build.bind_eq_ok.mp h
        obtain ⟨object, d₂, hobject, h⟩ := Build.bind_eq_ok.mp h
        obtain ⟨_, d₃, hfields, h⟩ := Build.bind_eq_ok.mp h
        obtain ⟨rfl, rfl⟩ := Build.pure_eq_ok.mp h
        obtain ⟨added, hadds, hruns⟩ := expressEach_builds language arguments hes
        obtain ⟨more, hmore, hdeclare⟩ := declare_adds hobject
        obtain ⟨rest, hrest, hwrites⟩ := writeFields_writes language fields hfields
        refine ⟨added ++ (more ++ rest), hadds.trans (hmore.trans hrest), ?_⟩
        intro m
        obtain ⟨m₁, data, hrun, hkeeps, hdata, hdescribes⟩ := hruns m
        obtain ⟨m₂, hrun', hkeeps', hdenotes, ho⟩ := hdeclare m₁ (.constructed owner data [])
          (by simp [Expr.eval, hdata.evalEach])
        obtain ⟨m₃, writes, hrun'', hkeeps'', ho', hfields'⟩ :=
          hwrites m₂ _ (.constructed owner data) [] (fun _ _ _ => rfl) hdenotes ho
        have hall := hkeeps'.around hmore.taken hkeeps''
        have hplace := Memory.length_le_of_keepsAll hkeeps
        refine ⟨m₃, _, Stmt.runAll_append_eq hrun (Stmt.runAll_append_eq hrun' hrun''),
          hkeeps.trans hadds.taken hall, hdenotes.later hrest.taken hkeeps'', ?_⟩
        exact .composite hplace ho'
          (hdescribes.frame (Nat.le_refl _) (hall.onward fun _ _ => trivial))
          (hfields'.frame (Nat.le_succ_of_le hplace) fun _ _ _ h => h)
  | .reflective owner fields, h => by
      obtain ⟨object, d₁, hobject, h⟩ := Build.bind_eq_ok.mp h
      obtain ⟨_, d₂, hfields, h⟩ := Build.bind_eq_ok.mp h
      obtain ⟨rfl, rfl⟩ := Build.pure_eq_ok.mp h
      obtain ⟨added, hadds, hruns⟩ := allocate_adds hobject
      obtain ⟨rest, hrest, hwrites⟩ := writeFields_writes language fields hfields
      refine ⟨added ++ rest, hadds.trans hrest, ?_⟩
      intro m
      obtain ⟨m₁, hrun, hkeeps, hdenotes, ho⟩ := hruns m
      have hmake : ∀ writes name c, (bareObject language owner writes).write? name c =
          some (bareObject language owner (writes ++ [(name, c)])) := by
        intro writes name c
        simp only [bareObject]
        split <;> rfl
      obtain ⟨m₂, writes, hrun', hkeeps', ho', hfields'⟩ :=
        hwrites m₁ _ (bareObject language owner) [] hmake hdenotes ho
      refine ⟨m₂, _, Stmt.runAll_append_eq hrun hrun', hkeeps.around hadds.taken hkeeps',
        hdenotes.later hrest.taken hkeeps', ?_⟩
      have hfields'' := hfields'.frame (Nat.le_succ _) fun _ _ _ h => h
      rw [Value.rebuilt]
      simp only [bareObject] at ho'
      split
      · next hgo =>
        rw [if_pos hgo] at ho'
        exact .composite (Nat.le_refl _) ho' .nil hfields''
      · next hgo =>
        rw [if_neg hgo] at ho'
        exact .reflective (Nat.le_refl _) ho' hfields''
  | .mock owner stubs, h => by
      simp only [express] at h
      split at h
      · obtain ⟨_, d₁, hmarks, h⟩ := Build.bind_eq_ok.mp h
        obtain ⟨object, d₂, hobject, h⟩ := Build.bind_eq_ok.mp h
        obtain ⟨_, d₃, hstubs, h⟩ := Build.bind_eq_ok.mp h
        obtain ⟨rfl, rfl⟩ := Build.pure_eq_ok.mp h
        cases hmarks
        obtain ⟨added, ⟨hstatements, htaken⟩, hdeclare⟩ := declare_adds hobject
        obtain ⟨rest, hrest, hcalls⟩ := addStubs_writes language stubs hstubs
        have hadds : Adds d d₂ added := ⟨hstatements, htaken⟩
        refine ⟨added ++ rest, hadds.trans hrest, ?_⟩
        intro m
        obtain ⟨m₁, hrun, hkeeps, hdenotes, ho⟩ := hdeclare m (.mock owner []) rfl
        obtain ⟨m₂, calls, hrun', hkeeps', ho', hstubs'⟩ := hcalls m₁ _ owner [] hdenotes ho
        refine ⟨m₂, _, Stmt.runAll_append_eq hrun hrun', hkeeps.around htaken hkeeps',
          hdenotes.later hrest.taken hkeeps', ?_⟩
        exact .mock (Nat.le_refl _) ho' (hstubs'.frame (Nat.le_succ _) fun _ _ _ h => h)
      · exact absurd h Build.refuse_ne_ok

theorem expressEach_builds (language : Language) {base : Nat → String} {index : Nat} {d d' : Draft}
    {es : List Expr} :
    ∀ vs : List Value, expressEach language base index vs d = .ok es d' →
      ∃ added, BuildsEach d d' es (Value.rebuiltEach language vs) added
  | [], h => by
      obtain ⟨rfl, rfl⟩ := Build.pure_eq_ok.mp h
      exact ⟨[], .refl d, fun m => ⟨m, [], rfl, .refl m, fun _ _ => rfl, .nil⟩⟩
  | v :: rest, h => by
      obtain ⟨e, d₁, he, h⟩ := Build.bind_eq_ok.mp h
      obtain ⟨es, d₂, hes, h⟩ := Build.bind_eq_ok.mp h
      obtain ⟨rfl, rfl⟩ := Build.pure_eq_ok.mp h
      obtain ⟨added, hadds, hruns⟩ := express_builds language v he
      obtain ⟨more, hmore, hrest⟩ := expressEach_builds language rest hes
      refine ⟨added ++ more, hadds.trans hmore, ?_⟩
      intro m
      obtain ⟨m₁, c, hrun, hkeeps, hdenotes, hdescribes⟩ := hruns m
      obtain ⟨m₂, data, hrun', hkeeps', hdata, hdescribes'⟩ := hrest m₁
      refine ⟨m₂, c :: data, Stmt.runAll_append_eq hrun hrun', hkeeps.trans hadds.taken hkeeps',
        .cons (hdenotes.later hmore.taken hkeeps') hdata, ?_⟩
      exact .cons (hdescribes.frame (Nat.le_refl _) (hkeeps'.onward fun _ _ => trivial))
        (hdescribes'.frame (Memory.length_le_of_keepsAll hkeeps) fun _ _ _ h => h)

theorem writeFields_writes (language : Language) {way : FieldWriting} {object : Expr}
    {d d' : Draft} {u : Unit} :
    ∀ fields : List Field, writeFields language way object fields d = .ok u d' →
      ∃ added, WritesFields d d' object (Field.rebuilt language fields) added
  | [], h => by
      obtain ⟨-, rfl⟩ := Build.pure_eq_ok.mp h
      refine ⟨[], .refl d, ?_⟩
      intro m place make before _ _ ho
      exact ⟨m, [], rfl, .refl m, by rwa [List.append_nil], .nil⟩
  | .mk name v :: rest, h => by
      simp only [writeFields] at h
      obtain ⟨_, d₁, hannounce, h⟩ := Build.bind_eq_ok.mp h
      obtain ⟨e, d₂, he, h⟩ := Build.bind_eq_ok.mp h
      obtain ⟨_, d₃, hpush, h⟩ := Build.bind_eq_ok.mp h
      cases hpush
      have hfirst := announce_adds hannounce
      obtain ⟨added, hadds, hruns⟩ := express_builds language v he
      obtain ⟨more, hmore, hrest⟩ := writeFields_writes language rest h
      have hpushed := adds_push d₂ (way.statement object name e)
      have htaken := (hfirst.trans hadds).taken
      refine ⟨_, (hfirst.trans hadds).trans (hpushed.trans hmore), ?_⟩
      intro m place make before hmake hobject ho
      obtain ⟨m₁, c, hrun, hkeeps, hdenotes, hdescribes⟩ := hruns m
      have hkeeps₀ : KeepsAll d.supply m m₁ :=
        ⟨fun x hx => hkeeps.bindings x (hfirst.taken x hx), hkeeps.objects⟩
      have hobject' := hobject.later htaken hkeeps₀
      have ho' := hkeeps₀.objects place _ trivial ho
      have hstep := FieldWriting.run_statement way hobject' hdenotes ho' (hmake before name c)
      have hchanged : Keeps d₂.supply (· ≠ place) m₁ _ :=
        Memory.keeps_changed m₁ place (make (before ++ [(name, c)]))
      obtain ⟨m₂, writes, hrun', hkeeps', hwritten, hfields⟩ :=
        hrest _ place make (before ++ [(name, c)]) hmake
          (hobject'.later (fun _ h => h) hchanged) (Memory.objects_changed ho' _)
      have hback := hchanged.trans (fun _ h => h) hkeeps'
      have hbound : place + 1 ≤ m.objects.length := (List.getElem?_eq_some_iff.mp ho).1
      refine ⟨m₂, (name, c) :: writes,
        Stmt.runAll_append_eq hrun (Stmt.runAll_cons_eq hstep hrun'),
        (hkeeps₀.weaken fun _ _ => trivial).trans htaken hback, by simpa using hwritten, ?_⟩
      refine .cons (hdescribes.frame hbound (hback.onward ?_)) hfields
      intro i hi
      omega

theorem addStubs_writes (language : Language) {object : Expr} {d d' : Draft} {u : Unit} :
    ∀ stubs : List Stub, addStubs language object stubs d = .ok u d' →
      ∃ added, WritesStubs d d' object (Stub.rebuilt language stubs) added
  | [], h => by
      obtain ⟨-, rfl⟩ := Build.pure_eq_ok.mp h
      refine ⟨[], .refl d, ?_⟩
      intro m place owner before _ ho
      exact ⟨m, [], rfl, .refl m, by rwa [List.append_nil], .nil⟩
  | .mk method arguments returns :: rest, h => by
      simp only [addStubs] at h
      obtain ⟨es, d₁, hes, h⟩ := Build.bind_eq_ok.mp h
      obtain ⟨e, d₂, he, h⟩ := Build.bind_eq_ok.mp h
      obtain ⟨_, d₃, hpush, h⟩ := Build.bind_eq_ok.mp h
      cases hpush
      obtain ⟨first, hfirst, harguments⟩ := expressEach_builds language arguments hes
      obtain ⟨added, hadds, hreturns⟩ := express_builds language returns he
      obtain ⟨more, hmore, hrest⟩ := addStubs_writes language rest h
      have hpushed := adds_push d₂ (.stub object (.mk method es e))
      have htaken := (hfirst.trans hadds).taken
      refine ⟨_, (hfirst.trans hadds).trans (hpushed.trans hmore), ?_⟩
      intro m place owner before hobject ho
      obtain ⟨m₁, data, hrun, hkeeps, hdata, hdescribes⟩ := harguments m
      obtain ⟨m₂, c, hrun', hkeeps', hdenotes, hdescribes'⟩ := hreturns m₁
      have hboth := hkeeps.trans hfirst.taken hkeeps'
      have hobject' := hobject.later htaken hboth
      have hdata' := hdata.later hadds.taken hkeeps'
      have ho' := hboth.objects place _ trivial ho
      have hstep : (Stmt.stub object (.mk method es e)).run m₂ =
          some (m₂.changed place (.mock owner (before ++ [(method, data, c)]))) := by
        have hchange := Memory.change?_eq (f := Object.stub? method data c) ho' rfl
        simp [Stmt.run, hobject'.eval, hdata'.evalEach, hdenotes.eval, hchange]
      have hchanged : Keeps d₂.supply (· ≠ place) m₂ _ :=
        Memory.keeps_changed m₂ place (.mock owner (before ++ [(method, data, c)]))
      obtain ⟨m₃, calls, hrun'', hkeeps'', hwritten, hstubs⟩ :=
        hrest _ place owner (before ++ [(method, data, c)])
          (hobject'.later (fun _ h => h) hchanged) (Memory.objects_changed ho' _)
      have hback := hchanged.trans (fun _ h => h) hkeeps''
      have hbound : place + 1 ≤ m.objects.length := (List.getElem?_eq_some_iff.mp ho).1
      have hbound' := Nat.le_trans hbound (Memory.length_le_of_keepsAll hkeeps)
      have honward : ∀ i, place + 1 ≤ i → i ≠ place := by
        intro i hi
        omega
      refine ⟨m₃, (method, data, c) :: calls,
        Stmt.runAll_append_eq (Stmt.runAll_append_eq hrun hrun') (Stmt.runAll_cons_eq hstep hrun''),
        (hboth.weaken fun _ _ => trivial).trans htaken hback, by simpa using hwritten, ?_⟩
      have hdescribes₂ := hdescribes.frame hbound (hkeeps'.onward fun _ _ => trivial)
      have hdescribes₂' := hdescribes'.frame hbound' fun _ _ _ h => h
      exact .cons (hdescribes₂.frame (Nat.le_refl _) (hback.onward honward))
        (hdescribes₂'.frame (Nat.le_refl _) (hback.onward honward)) hstubs

end

end Draft

/-- A value is rebuilt, in every language and from every draft.  The statements that its build adds
run in any memory; the expression then evaluates to a result that describes the rebuilt value and no
other one, by objects that were not there before.  No variable whose name was taken is bound anew,
and no object is changed.  Outside Go the rebuilt value is the value itself. -/
theorem value_is_rebuilt (language : Language) (base : String) (v : Value) (d d' : Draft) (e : Expr)
    (h : Draft.express language base v d = .ok e d') :
    (language ≠ .go → v.rebuilt language = v) ∧
    ∃ added, d'.statements = d.statements ++ added ∧
      ∀ m : Memory, ∃ m' c, Stmt.runAll added m = some m' ∧ e.eval m' = some (c, m') ∧
        (∀ w, m'.Describes 0 c w ↔ w = v.rebuilt language) ∧
        m'.Describes m.objects.length c (v.rebuilt language) ∧
        (∀ x, d.supply.isTaken x = true → m'.lookup? x = m.lookup? x) ∧
        ∀ (place : Nat) (o : Object), m.objects[place]? = some o →
          m'.objects[place]? = some o := by
  refine ⟨fun hgo => v.rebuilt_of_ne_go hgo, ?_⟩
  obtain ⟨added, hadds, hruns⟩ := Draft.express_builds language v h
  refine ⟨added, hadds.statements, ?_⟩
  intro m
  obtain ⟨m', c, hrun, hkeeps, hdenotes, hdescribes⟩ := hruns m
  refine ⟨m', c, hrun, hdenotes.eval, ?_, hdescribes, hkeeps.bindings,
    fun place o => hkeeps.objects place o trivial⟩
  intro w
  constructor
  · intro hw
    exact hw.unique hdescribes
  · rintro rfl
    exact hdescribes.frame (Nat.zero_le _) fun _ _ _ ho => ho

/-- An order with two items, one of them without a constructor, from a store that is mocked. -/
def mockedOrder : Value :=
  let item : ClassName := ⟨"shop", "Item"⟩
  .composite ⟨"shop", "Order"⟩
    [.array (.ofClass item)
      [.reflective item [.mk "price" (.literal (.int 3))], .composite item [] []]]
    [.mk "status" (.enumConstant ⟨"shop", "Status"⟩ "OPEN"),
      .mk "store" (.mock ⟨"shop", "Store"⟩
        [.mk "find" [.literal (.str "tea")] (.reflective item [])])]

/-- The order is rebuilt beside a variable of the same name, which stays bound to its object. -/
theorem value_is_rebuilt_mockedOrder :
    let g := Generation.new ⟨"shop", "Cart"⟩ (.forLanguage .java)
    let d : Draft := { Draft.start g with supply := (NameSupply.empty.claimVariable "order").2 }
    let m : Memory := ⟨[("order", .object 0)], [.bare ⟨"shop", "Order"⟩ []]⟩
    ∃ e d', Draft.express .java "order" mockedOrder d = .ok e d' ∧
      ∃ added, d'.statements = d.statements ++ added ∧
        ∃ m' c, Stmt.runAll added m = some m' ∧ e.eval m' = some (c, m') ∧
          (∀ w, m'.Describes 0 c w ↔ w = mockedOrder) ∧
          m'.lookup? "order" = some (.object 0) ∧
          m'.objects[0]? = some (.bare ⟨"shop", "Order"⟩ []) := by
  intro g d m
  have hmeets := Draft.express_meets .java "order" mockedOrder d
  have hnone : mockedOrder.obstacle .java = none := by decide
  rw [hnone] at hmeets
  obtain ⟨e, d', h⟩ := hmeets
  obtain ⟨hsame, added, hadded, hruns⟩ := value_is_rebuilt .java "order" mockedOrder d d' e h
  obtain ⟨m', c, hrun, heval, hdescribes, -, hbindings, hobjects⟩ := hruns m
  refine ⟨e, d', h, added, hadded, m', c, hrun, heval, ?_, ?_, hobjects 0 _ rfl⟩
  · rwa [hsame (by decide)] at hdescribes
  · exact hbindings "order" (by decide)

end TestWriter
