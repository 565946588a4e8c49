import TestWriter.Names
import TestWriter.Suite.Memory

/-!
# What a memory describes

Main statements: what a memory describes stays described as long as the objects in question are
kept; a result describes one value at most; and an expression denotes the same result as long as the
variables are kept whose names were taken.
-/

namespace TestWriter

/-! ## What is described -/

namespace Memory

variable {m m' m'' : Memory} {first lower : Nat}

mutual

/-- A description holds in every memory that has the same objects from its first place on. -/
theorem Describes.frame (hlower : lower ≤ first)
    (hkept : ∀ place o, first ≤ place → m.objects[place]? = some o → m'.objects[place]? = some o) :
    ∀ {d : Datum} {v : Value}, m.Describes first d v → m'.Describes lower d v
  | _, _, .literal l => .literal l
  | _, _, .enumConstant owner name => .enumConstant owner name
  | _, _, .array hplace ho helements =>
      .array (Nat.le_trans hlower hplace) (hkept _ _ hplace ho) (helements.frame hlower hkept)
  | _, _, .composite hplace ho harguments hfields =>
      .composite (Nat.le_trans hlower hplace) (hkept _ _ hplace ho)
        (harguments.frame hlower hkept) (hfields.frame hlower hkept)
  | _, _, .reflective hplace ho hfields =>
      .reflective (Nat.le_trans hlower hplace) (hkept _ _ hplace ho) (hfields.frame hlower hkept)
  | _, _, .mock hplace ho hstubs =>
      .mock (Nat.le_trans hlower hplace) (hkept _ _ hplace ho) (hstubs.frame hlower hkept)

theorem DescribesEach.frame (hlower : lower ≤ first)
    (hkept : ∀ place o, first ≤ place → m.objects[place]? = some o → m'.objects[place]? = some o) :
    ∀ {data : List Datum} {values : List Value}, m.DescribesEach first data values →
      m'.DescribesEach lower data values
  | _, _, .nil => .nil
  | _, _, .cons hd hrest => .cons (hd.frame hlower hkept) (hrest.frame hlower hkept)

theorem DescribesFields.frame (hlower : lower ≤ first)
    (hkept : ∀ place o, first ≤ place → m.objects[place]? = some o → m'.objects[place]? = some o) :
    ∀ {writes : List (String × Datum)} {fields : List Field}, m.DescribesFields first writes fields →
      m'.DescribesFields lower writes fields
  | _, _, .nil => .nil
  | _, _, .cons hd hrest => .cons (hd.frame hlower hkept) (hrest.frame hlower hkept)

theorem DescribesStubs.frame (hlower : lower ≤ first)
    (hkept : ∀ place o, first ≤ place → m.objects[place]? = some o → m'.objects[place]? = some o) :
    ∀ {calls : List (String × List Datum × Datum)} {stubs : List Stub},
      m.DescribesStubs first calls stubs → m'.DescribesStubs lower calls stubs
  | _, _, .nil => .nil
  | _, _, .cons harguments hd hrest =>
      .cons (harguments.frame hlower hkept) (hd.frame hlower hkept) (hrest.frame hlower hkept)

end

mutual

/-- A result describes one value at most. -/
theorem Describes.unique : ∀ {d : Datum} {v w : Value},
    m.Describes first d v → m.Describes lower d w → v = w
  | _, _, _, .literal l, .literal _ => rfl
  | _, _, _, .enumConstant owner name, .enumConstant _ _ => rfl
  | _, _, _, .array _ ho helements, h => by
      cases h with
      | array _ ho' helements' =>
          cases ho.symm.trans ho'
          rw [helements.unique helements']
      | composite _ ho' => cases ho.symm.trans ho'
      | reflective _ ho' => cases ho.symm.trans ho'
      | mock _ ho' => cases ho.symm.trans ho'
  | _, _, _, .composite _ ho harguments hfields, h => by
      cases h with
      | composite _ ho' harguments' hfields' =>
          cases ho.symm.trans ho'
          rw [harguments.unique harguments', hfields.unique hfields']
      | array _ ho' => cases ho.symm.trans ho'
      | reflective _ ho' => cases ho.symm.trans ho'
      | mock _ ho' => cases ho.symm.trans ho'
  | _, _, _, .reflective _ ho hfields, h => by
      cases h with
      | reflective _ ho' hfields' =>
          cases ho.symm.trans ho'
          rw [hfields.unique hfields']
      | array _ ho' => cases ho.symm.trans ho'
      | composite _ ho' => cases ho.symm.trans ho'
      | mock _ ho' => cases ho.symm.trans ho'
  | _, _, _, .mock _ ho hstubs, h => by
      cases h with
      | mock _ ho' hstubs' =>
          cases ho.symm.trans ho'
          rw [hstubs.unique hstubs']
      | array _ ho' => cases ho.symm.trans ho'
      | composite _ ho' => cases ho.symm.trans ho'
      | reflective _ ho' => cases ho.symm.trans ho'

theorem DescribesEach.unique : ∀ {data : List Datum} {vs ws : List Value},
    m.DescribesEach first data vs → m.DescribesEach lower data ws → vs = ws
  | _, _, _, .nil, .nil => rfl
  | _, _, _, .cons hd hrest, .cons hd' hrest' => by rw [hd.unique hd', hrest.unique hrest']

theorem DescribesFields.unique : ∀ {writes : List (String × Datum)} {fs gs : List Field},
    m.DescribesFields first writes fs → m.DescribesFields lower writes gs → fs = gs
  | _, _, _, .nil, .nil => rfl
  | _, _, _, .cons hd hrest, .cons hd' hrest' => by rw [hd.unique hd', hrest.unique hrest']

theorem DescribesStubs.unique : ∀ {calls : List (String × List Datum × Datum)} {ss ts : List Stub},
    m.DescribesStubs first calls ss → m.DescribesStubs lower calls ts → ss = ts
  | _, _, _, .nil, .nil => rfl
  | _, _, _, .cons harguments hd hrest, .cons harguments' hd' hrest' => by
      rw [harguments.unique harguments', hd.unique hd', hrest.unique hrest']

end

/-! ## What is kept -/

theorem lookup?_bind (m : Memory) (name k : String) (value : Datum) :
    (m.bind name value).lookup? k = if k = name then some value else m.lookup? k := by
  simp only [lookup?, bind, List.lookup_cons]
  by_cases h : k = name
  · simp [h]
  · have hne : (k == name) = false := by simpa using h
    rw [hne, if_neg h]

/-- The variables whose names are taken keep what they are bound to, and the objects at some places
stay as they are. -/
structure Keeps (s : NameSupply) (kept : Nat → Prop) (m m' : Memory) : Prop where
  bindings : ∀ x, s.isTaken x = true → m'.lookup? x = m.lookup? x
  objects : ∀ place o, kept place → m.objects[place]? = some o → m'.objects[place]? = some o

/-- All objects stay as they are. -/
abbrev KeepsAll (s : NameSupply) (m m' : Memory) : Prop := Keeps s (fun _ => True) m m'

variable {s s' : NameSupply} {kept : Nat → Prop}

theorem Keeps.refl (m : Memory) : Keeps s kept m m := ⟨fun _ _ => rfl, fun _ _ _ h => h⟩

theorem Keeps.trans (h : Keeps s kept m m')
    (hs : ∀ x, s.isTaken x = true → s'.isTaken x = true) (h' : Keeps s' kept m' m'') :
    Keeps s kept m m'' where
  bindings x hx := (h'.bindings x (hs x hx)).trans (h.bindings x hx)
  objects place o hp ho := h'.objects place o hp (h.objects place o hp ho)

theorem Keeps.weaken {less : Nat → Prop} (h : Keeps s kept m m') (hless : ∀ i, less i → kept i) :
    Keeps s less m m' :=
  ⟨h.bindings, fun place o hp => h.objects place o (hless place hp)⟩

theorem length_le_of_keepsAll (h : KeepsAll s m m') : m.objects.length ≤ m'.objects.length := by
  cases hlength : m.objects.length with
  | zero => exact Nat.zero_le _
  | succ n =>
      have hlast : n < m.objects.length := by omega
      have hkept := h.objects n _ trivial (List.getElem?_eq_getElem hlast)
      obtain ⟨hbound, -⟩ := List.getElem?_eq_some_iff.mp hkept
      exact hbound

theorem Keeps.onward (h : Keeps s kept m m') (hat : ∀ i, first ≤ i → kept i) :
    ∀ place o, first ≤ place → m.objects[place]? = some o → m'.objects[place]? = some o :=
  fun place o hplace => h.objects place o (hat place hplace)

/-- What is done to a new object changes none of the objects before it. -/
theorem Keeps.around (h : KeepsAll s m m') (hs : ∀ x, s.isTaken x = true → s'.isTaken x = true)
    (h' : Keeps s' (· ≠ m.objects.length) m' m'') : KeepsAll s m m'' where
  bindings x hx := (h'.bindings x (hs x hx)).trans (h.bindings x hx)
  objects place o _ ho := by
    obtain ⟨hbound, -⟩ := List.getElem?_eq_some_iff.mp ho
    exact h'.objects place o (Nat.ne_of_lt hbound) (h.objects place o trivial ho)

/-- The memory after a variable was declared for a new object. -/
def declared (m : Memory) (name : String) (o : Object) : Memory :=
  (m.allocate o).2.bind name (.object m.objects.length)

theorem keepsAll_declared {name : String} (hfree : s.isTaken name = false) (o : Object) :
    KeepsAll s m (m.declared name o) where
  bindings x hx := by
    refine (lookup?_bind _ name x _).trans (if_neg ?_)
    rintro rfl
    rw [hx] at hfree
    cases hfree
  objects place old _ hold := by
    obtain ⟨hbound, -⟩ := List.getElem?_eq_some_iff.mp hold
    exact (List.getElem?_append_left hbound).trans hold

theorem objects_declared (m : Memory) (name : String) (o : Object) :
    (m.declared name o).objects[m.objects.length]? = some o :=
  List.getElem?_concat_length

/-- The memory after an object was changed. -/
def changed (m : Memory) (place : Nat) (o : Object) : Memory :=
  { m with objects := m.objects.set place o }

theorem change?_eq {place : Nat} {o o' : Object} {f : Object → Option Object}
    (ho : m.objects[place]? = some o) (hf : f o = some o') :
    m.change? (.object place) f = some (m.changed place o') := by
  simp [change?, ho, hf, changed]

theorem keeps_changed (m : Memory) (place : Nat) (o : Object) :
    Keeps s (· ≠ place) m (m.changed place o) where
  bindings _ _ := rfl
  objects _ _ hother hold := (List.getElem?_set_ne (Ne.symm hother)).trans hold

theorem objects_changed {place : Nat} {o : Object} (h : m.objects[place]? = some o)
    (o' : Object) : (m.changed place o').objects[place]? = some o' := by
  obtain ⟨hbound, -⟩ := List.getElem?_eq_some_iff.mp h
  exact List.getElem?_set_self hbound

end Memory

/-! ## What expressions denote -/

open Memory (Keeps KeepsAll)

/-- An expression evaluates to a result, now and as long as the variables whose names are taken keep
what they are bound to. -/
def Expr.Denotes (e : Expr) (s : NameSupply) (m : Memory) (d : Datum) : Prop :=
  ∀ m', (∀ x, s.isTaken x = true → m'.lookup? x = m.lookup? x) → e.eval m' = some (d, m')

/-- Expressions evaluate to results, now and as long as the variables whose names are taken keep what
they are bound to. -/
def Expr.DenoteEach (es : List Expr) (s : NameSupply) (m : Memory) (data : List Datum) : Prop :=
  ∀ m', (∀ x, s.isTaken x = true → m'.lookup? x = m.lookup? x) →
    Expr.evalEach es m' = some (data, m')

namespace Expr

variable {e : Expr} {es : List Expr} {s s' : NameSupply} {m m' : Memory} {d : Datum}
  {data : List Datum} {kept : Nat → Prop}

theorem Denotes.eval (h : e.Denotes s m d) : e.eval m = some (d, m) := h m fun _ _ => rfl

theorem DenoteEach.evalEach (h : DenoteEach es s m data) : evalEach es m = some (data, m) :=
  h m fun _ _ => rfl

theorem Denotes.later (h : e.Denotes s m d) (hs : ∀ x, s.isTaken x = true → s'.isTaken x = true)
    (hkeeps : Keeps s kept m m') : e.Denotes s' m' d := by
  intro m'' hsame
  apply h
  intro x hx
  exact (hsame x (hs x hx)).trans (hkeeps.bindings x hx)

theorem DenoteEach.later (h : DenoteEach es s m data)
    (hs : ∀ x, s.isTaken x = true → s'.isTaken x = true) (hkeeps : Keeps s kept m m') :
    DenoteEach es s' m' data := by
  intro m'' hsame
  apply h
  intro x hx
  exact (hsame x (hs x hx)).trans (hkeeps.bindings x hx)

theorem DenoteEach.cons (h : e.Denotes s m d) (hrest : DenoteEach es s m data) :
    DenoteEach (e :: es) s m (d :: data) := by
  intro m' hsame
  simp [Expr.evalEach, h m' hsame, hrest m' hsame]

/-- A variable denotes what it is bound to. -/
theorem denotes_ref {name : String} (hname : s.isTaken name = true)
    (h : m.lookup? name = some d) : (Expr.ref name).Denotes s m d := by
  intro m' hsame
  simp [Expr.eval, hsame name hname, h]

end Expr

namespace Stmt

theorem runAll_append (ss ts : List Stmt) (m : Memory) :
    runAll (ss ++ ts) m = (runAll ss m).bind (runAll ts) := by
  induction ss generalizing m with
  | nil => rfl
  | cons s rest ih =>
      simp only [List.cons_append, runAll]
      cases s.run m with
      | none => rfl
      | some m' => exact ih m'

theorem runAll_append_eq {ss ts : List Stmt} {m m' m'' : Memory} (h : runAll ss m = some m')
    (h' : runAll ts m' = some m'') : runAll (ss ++ ts) m = some m'' := by
  rw [runAll_append, h]
  exact h'

theorem runAll_cons_eq {s : Stmt} {rest : List Stmt} {m m' m'' : Memory} (h : s.run m = some m')
    (h' : runAll rest m' = some m'') : runAll (s :: rest) m = some m'' := by
  simp only [runAll, h]
  exact h'

end Stmt

end TestWriter
