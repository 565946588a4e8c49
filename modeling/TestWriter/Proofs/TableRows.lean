import TestWriter.Proofs.BuiltCode
import TestWriter.Proofs.MethodNames
import TestWriter.Proofs.Rebuilding
import TestWriter.Proofs.TableParts
import TestWriter.Proofs.WellScoped

/-!
# Rows of tables

The columns of a table, the rows of its data provider and the parameters of its test come from the
same runs by different ways.  Main statement: each set that has runs adds a parameterized test and a
data provider that fit, or one error; the test refers to one data provider of the class, which gives
a row for each run that returned or threw, and a row has for each parameter what it stands for.
-/

namespace TestWriter

/-! ## Columns -/

namespace Column

/-- What the columns of a table stand for, in order, with their types. -/
def plan (e : Executable) (rows : List Execution) : List (ColumnRole × DataType) :=
  (if e.kind = .method then [(.receiver, .ofClass e.owner)] else []) ++
    e.parameters.mapIdx (fun i p => (.argument i, p.type)) ++
    (if rows.any fun run => (run.result? e).isSome then [(.expected, .any)] else []) ++
    if rows.any Execution.failed then [(.expectedError, .errorClass)] else []

theorem roles_named (language : Language) (supply : NameSupply)
    (entries : List (String × DataType × ColumnRole)) :
    (named language supply entries).map (fun c => (c.role, c.parameter.type)) =
      entries.map fun entry => (entry.2.2, entry.2.1) := by
  induction entries generalizing supply with
  | nil => rfl
  | cons entry rest ih => exact congrArg (_ :: ·) (ih _)

/-- The columns of the runs are as planned. -/
theorem roles_ofRuns (config : Config) (e : Executable) (rows : List Execution) :
    (ofRuns config e rows).map (fun c => (c.role, c.parameter.type)) = plan e rows := by
  have harguments : ((e.parameters.zip (argumentNames config e)).mapIdx fun i entry =>
      (entry.2, entry.1.type, ColumnRole.argument i)).map (fun entry => (entry.2.2, entry.2.1)) =
        e.parameters.mapIdx fun i p => (.argument i, p.type) := by
    apply List.ext_getElem
    · simp [argumentNames]
    · intro i hi hi'
      simp
  simp only [ofRuns, roles_named, List.map_append, plan, harguments]
  split <;> split <;> split <;> rfl

theorem nodup_names_ofRuns (config : Config) (e : Executable) (rows : List Execution) :
    (names (ofRuns config e rows)).Nodup :=
  (names_named _ _ _).1

/-- There is a column for each parameter, and no other one for an argument. -/
theorem lt_of_argument {config : Config} {e : Executable} {rows : List Execution} {c : Column}
    (hc : c ∈ ofRuns config e rows) {i : Nat} (hrole : c.role = .argument i) :
    i < e.parameters.length := by
  have hmem := List.mem_map_of_mem (f := fun c => (c.role, c.parameter.type)) hc
  rw [roles_ofRuns, hrole] at hmem
  simp only [plan, List.mem_append] at hmem
  rcases hmem with ((hmem | hmem) | hmem) | hmem
  · split at hmem <;> simp at hmem
  · obtain ⟨j, hj, hentry⟩ := List.mem_mapIdx.mp hmem
    simp only [Prod.mk.injEq, ColumnRole.argument.injEq] at hentry
    exact hentry.1 ▸ hj
  · split at hmem <;> simp at hmem
  · split at hmem <;> simp at hmem

end Column

/-! ## Rows -/

open Memory (KeepsAll)

/-- An expression stands for a value: it evaluates to a result that describes the value by objects
from a place on. -/
def Expr.StandsFor (x : Expr) (m : Memory) (first : Nat) (v : Value) : Prop :=
  ∃ d, x.eval m = some (d, m) ∧ m.Describes first d v

/-- What a row of a run has for what a column stands for: the receiver, an argument, the value that
the run returned, or the class of the error by which it failed. -/
inductive Memory.Fills (m : Memory) (first : Nat) (run : Execution) : ColumnRole → Expr → Prop
  | receiver {x : Expr} {v : Value} (hv : run.receiver = some v)
    (hx : x.StandsFor m first v) : m.Fills first run .receiver x
  | argument {i : Nat} {x : Expr} {v : Value} (hv : run.arguments[i]? = some v)
    (hx : x.StandsFor m first v) : m.Fills first run (.argument i) x
  | expected {x : Expr} {v : Value} (hv : run.outcome = .success (some v))
    (hx : x.StandsFor m first v) : m.Fills first run .expected x
  | noValue (hnone : ∀ v, run.outcome ≠ .success (some v)) : m.Fills first run .expected .null
  | error {exception : ClassName} {text : Option String} {kind : FailureKind}
    (herror : run.outcome = .runtimeFailure exception text kind) :
    m.Fills first run .expectedError (.classOf exception)
  | noError (hnone : run.failed = false) : m.Fills first run .expectedError .null

/-- A row of a run has for each column what it stands for. -/
def Memory.FillsRow (m : Memory) (first : Nat) (columns : List Column) (run : Execution)
    (row : Expr) : Prop :=
  ∃ cells, row = .arrayOf .any cells ∧
    List.Forall₂ (fun c x => m.Fills first run c.role x) columns cells

namespace Draft

/-- The statements that were added, run in any memory, change no variable whose name was taken and
no object, and afterwards something holds as long as the variables and the objects are kept. -/
structure Secures (d d' : Draft) (added : List Stmt) (Q : Nat → Memory → Prop) : Prop
    extends Adds d d' added where
  runs : ∀ m, ∃ m', Stmt.runAll added m = some m' ∧ KeepsAll d.supply m m' ∧
    ∀ m'', KeepsAll d'.supply m' m'' → Q m.objects.length m''

variable {d d' d'' : Draft} {added more : List Stmt} {Q R : Nat → Memory → Prop}

theorem Secures.refl (h : ∀ first m, Q first m) : Secures d d [] Q :=
  ⟨.refl d, fun m => ⟨m, rfl, .refl m, fun _ _ => h _ _⟩⟩

theorem Secures.weaken (h : Secures d d' added Q) (hQ : ∀ first m, Q first m → R first m) :
    Secures d d' added R := by
  refine ⟨h.toAdds, fun m => ?_⟩
  obtain ⟨m', hrun, hkeeps, hall⟩ := h.runs m
  exact ⟨m', hrun, hkeeps, fun m'' hm'' => hQ _ _ (hall m'' hm'')⟩

/-- What was secured first stays so, and what is said of later objects can be said of all since the
start. -/
theorem Secures.trans (h : Secures d d' added Q) (h' : Secures d' d'' more R)
    (hlower : ∀ {first lower m}, lower ≤ first → R first m → R lower m) :
    Secures d d'' (added ++ more) fun first m => Q first m ∧ R first m := by
  refine ⟨h.toAdds.trans h'.toAdds, fun m => ?_⟩
  obtain ⟨m₁, hrun, hkeeps, hQ⟩ := h.runs m
  obtain ⟨m₂, hrun', hkeeps', hR⟩ := h'.runs m₁
  refine ⟨m₂, Stmt.runAll_append_eq hrun hrun', hkeeps.trans h.taken hkeeps', ?_⟩
  intro m₃ hlater
  constructor
  · exact hQ m₃ (hkeeps'.trans h'.taken hlater)
  · exact hlower (Memory.length_le_of_keepsAll hkeeps) (hR m₃ hlater)

/-- The expression of a value stands for it. -/
theorem express_secures {language : Language} (hgo : language ≠ .go) {base : String} {v : Value}
    {x : Expr} (h : express language base v d = .ok x d') :
    ∃ added, Secures d d' added fun first m => x.StandsFor m first v := by
  obtain ⟨added, hbuilds⟩ := express_builds language v h
  refine ⟨added, hbuilds.toAdds, fun m => ?_⟩
  obtain ⟨m', c, hrun, hkeeps, hdenotes, hdescribes⟩ := hbuilds.runs m
  rw [Value.rebuilt_of_ne_go hgo] at hdescribes
  refine ⟨m', hrun, hkeeps, fun m'' hlater => ⟨c, ?_, ?_⟩⟩
  · exact (hdenotes.later (fun _ h => h) hlater).eval
  · exact hdescribes.frame (Nat.le_refl _) (hlater.onward fun _ _ => trivial)

end Draft

section

variable {m : Memory} {first lower : Nat} {run : Execution} (hlower : lower ≤ first)

include hlower

theorem Expr.StandsFor.since {x : Expr} {v : Value} (h : x.StandsFor m first v) :
    x.StandsFor m lower v := by
  obtain ⟨d, heval, hdescribes⟩ := h
  exact ⟨d, heval, hdescribes.frame hlower fun _ _ _ h => h⟩

theorem Memory.Fills.since {role : ColumnRole} {x : Expr} (h : m.Fills first run role x) :
    m.Fills lower run role x := by
  cases h with
  | receiver hv hx => exact .receiver hv (hx.since hlower)
  | argument hv hx => exact .argument hv (hx.since hlower)
  | expected hv hx => exact .expected hv (hx.since hlower)
  | noValue hnone => exact .noValue hnone
  | error herror => exact .error herror
  | noError hnone => exact .noError hnone

theorem Memory.forall₂_fills_since {columns : List Column} {cells : List Expr}
    (h : List.Forall₂ (fun c x => m.Fills first run c.role x) columns cells) :
    List.Forall₂ (fun c x => m.Fills lower run c.role x) columns cells :=
  h.imp fun _ _ hfills => hfills.since hlower

theorem Memory.FillsRow.since {columns : List Column} {row : Expr}
    (h : m.FillsRow first columns run row) : m.FillsRow lower columns run row := by
  obtain ⟨cells, rfl, hcells⟩ := h
  exact ⟨cells, rfl, forall₂_fills_since hlower hcells⟩

end

namespace Draft

section

variable {language : Language} (hgo : language ≠ .go) {e : Executable} {run : Execution}
  {d d' : Draft}

include hgo

/-- A cell has what its column stands for. -/
theorem cellExpr_secures (hcount : run.arguments.length = e.parameters.length) {c : Column}
    (hindex : ∀ i, c.role = .argument i → i < e.parameters.length) {x : Expr}
    (h : cellExpr language e run c d = .ok x d') :
    ∃ added, Secures d d' added fun first m => m.Fills first run c.role x := by
  simp only [cellExpr] at h
  cases hrole : c.role with
  | receiver =>
      cases hv : run.receiver with
      | none =>
          simp only [hrole, Execution.cell, hv, if_pos] at h
          exact absurd h Build.refuse_ne_ok
      | some v =>
          simp only [hrole, Execution.cell, hv] at h
          obtain ⟨added, hadded⟩ := express_secures hgo h
          exact ⟨added, hadded.weaken fun _ _ hx => .receiver hv hx⟩
  | argument i =>
      have hi : i < run.arguments.length := hcount ▸ hindex i hrole
      have hv := List.getElem?_eq_getElem hi
      simp only [hrole, Execution.cell, hv] at h
      obtain ⟨added, hadded⟩ := express_secures hgo h
      exact ⟨added, hadded.weaken fun _ _ hx => .argument hv hx⟩
  | expected =>
      by_cases hreturned : ∃ v, run.outcome = .success (some v)
      · obtain ⟨v, hv⟩ := hreturned
        simp only [hrole, Execution.cell, hv] at h
        obtain ⟨added, hadded⟩ := express_secures hgo h
        exact ⟨added, hadded.weaken fun _ _ hx => .expected hv hx⟩
      · have hcell : run.cell .expected = .absent := by
          simp only [Execution.cell]
          split
          · next v hv => exact absurd ⟨v, hv⟩ hreturned
          · rfl
        simp only [hrole, hcell] at h
        obtain ⟨rfl, rfl⟩ := Build.pure_eq_ok.mp h
        exact ⟨[], .refl fun _ _ => .noValue fun v hv => hreturned ⟨v, hv⟩⟩
  | expectedError =>
      cases houtcome : run.outcome with
      | runtimeFailure exception text kind =>
          simp only [hrole, Execution.cell, houtcome] at h
          obtain ⟨rfl, rfl⟩ := Build.pure_eq_ok.mp h
          exact ⟨[], .refl fun _ _ => .error houtcome⟩
      | _ =>
          simp only [hrole, Execution.cell, houtcome] at h
          obtain ⟨rfl, rfl⟩ := Build.pure_eq_ok.mp h
          exact ⟨[], .refl fun _ _ => .noError (by simp [Execution.failed, houtcome])⟩

theorem cellExprs_secures (hcount : run.arguments.length = e.parameters.length)
    {columns : List Column}
    (hindex : ∀ c ∈ columns, ∀ i, c.role = .argument i → i < e.parameters.length)
    {xs : List Expr} (h : cellExprs language e run columns d = .ok xs d') :
    ∃ added, Secures d d' added fun first m =>
      List.Forall₂ (fun c x => m.Fills first run c.role x) columns xs := by
  induction columns generalizing d xs with
  | nil =>
      obtain ⟨rfl, rfl⟩ := Build.pure_eq_ok.mp h
      exact ⟨[], .refl fun _ _ => .nil⟩
  | cons c rest ih =>
      obtain ⟨hfirst, hrest⟩ := List.forall_mem_cons.mp hindex
      obtain ⟨x, d₁, hx, h⟩ := Build.bind_eq_ok.mp h
      obtain ⟨ys, d₂, hys, h⟩ := Build.bind_eq_ok.mp h
      obtain ⟨rfl, rfl⟩ := Build.pure_eq_ok.mp h
      obtain ⟨added, hadded⟩ := cellExpr_secures hgo hcount hfirst hx
      obtain ⟨more, hmore⟩ := ih hrest hys
      have hall := hadded.trans hmore fun hlower hcells => Memory.forall₂_fills_since hlower hcells
      exact ⟨_, hall.weaken fun _ _ hcells => .cons hcells.1 hcells.2⟩

/-- The rows are those of the runs, in their order. -/
theorem tableRows_secures {columns : List Column}
    (hindex : ∀ c ∈ columns, ∀ i, c.role = .argument i → i < e.parameters.length)
    {runs : List Execution} {rows : List Expr}
    (h : tableRows language e columns runs d = .ok rows d') :
    ∃ added, Secures d d' added fun first m =>
      List.Forall₂ (fun run row => m.FillsRow first columns run row) runs rows := by
  induction runs generalizing d rows with
  | nil =>
      obtain ⟨rfl, rfl⟩ := Build.pure_eq_ok.mp h
      exact ⟨[], .refl fun _ _ => .nil⟩
  | cons run rest ih =>
      obtain ⟨_, d₁, hcheck, h⟩ := Build.bind_eq_ok.mp h
      obtain ⟨xs, d₂, hxs, h⟩ := Build.bind_eq_ok.mp h
      obtain ⟨others, d₃, hothers, h⟩ := Build.bind_eq_ok.mp h
      obtain ⟨rfl, rfl⟩ := Build.pure_eq_ok.mp h
      simp only [checkCount] at hcheck
      split at hcheck
      · next hcount =>
        obtain ⟨-, rfl⟩ := Build.pure_eq_ok.mp hcheck
        obtain ⟨added, hadded⟩ := cellExprs_secures hgo hcount hindex hxs
        obtain ⟨more, hmore⟩ := ih hothers
        have hall := hadded.trans hmore fun hlower hrows =>
          hrows.imp fun _ _ hrow => hrow.since hlower
        exact ⟨_, hall.weaken fun _ _ hrows => .cons ⟨xs, rfl, hrows.1⟩ hrows.2⟩
      · exact absurd hcheck Build.refuse_ne_ok

end

end Draft

/-- A body gives a row for each run, in their order: run in any memory, its first statements end in
one in which the rows that it returns have for each column what it stands for. -/
def Stmt.GivesRows (body : List Stmt) (columns : List Column) (runs : List Execution) : Prop :=
  ∃ arrange rows, body = apart arrange [.ret (some (.arrayOf (.array .any) rows))] ∧
    ∀ m, ∃ m', runAll arrange m = some m' ∧
      List.Forall₂ (fun run row => m'.FillsRow m.objects.length columns run row) runs rows

theorem Draft.providerBody_givesRows {language : Language} (hgo : language ≠ .go) {e : Executable}
    {columns : List Column}
    (hindex : ∀ c ∈ columns, ∀ i, c.role = .argument i → i < e.parameters.length)
    {runs : List Execution} {g : Generation} {d : Draft} {body : List Stmt}
    (h : providerBody language e columns runs (start g) = .ok body d) :
    Stmt.GivesRows body columns runs := by
  obtain ⟨rows, d₁, hrows, rfl, rfl⟩ := exists_rows_of_providerBody_ok h
  obtain ⟨added, hadded⟩ := tableRows_secures hgo hindex hrows
  have hstatements : d₁.statements = added := hadded.statements
  refine ⟨d₁.statements, rows, rfl, fun m => ?_⟩
  obtain ⟨m', hrun, -, hall⟩ := hadded.runs m
  rw [hstatements]
  exact ⟨m', hrun, hall m' (.refl m')⟩

/-! ## Tables -/

namespace Method

/-- Whether the method is a parameterized test. -/
def isParameterized (m : Method) : Bool :=
  match m.kind with
  | .parameterized .. => true
  | _ => false

/-- Whether the method is a data provider. -/
def isProvider (m : Method) : Bool :=
  match m.kind with
  | .dataProvider => true
  | _ => false

/-- A data provider is the one of its name, when methods that are no helpers have different
names. -/
theorem filter_provider_eq {ms : List Method}
    (hnames : ((ms.filter fun m => m.helper?.isNone).map Method.name).Nodup) {m : Method}
    (hm : m ∈ ms) (hkind : m.isProvider = true) :
    ms.filter (fun k => k.isProvider && k.name = m.name) = [m] := by
  have hplain : ∀ k : Method, k.isProvider = true → k.helper?.isNone = true := by
    intro k hk
    simp only [isProvider] at hk
    split at hk
    · next hkind => simp [helper?, hkind]
    · cases hk
  have hmem : ∀ k ∈ ms, k.isProvider = true → k ∈ ms.filter fun m => m.helper?.isNone :=
    fun k hk hprovider => List.mem_filter.mpr ⟨hk, hplain k hprovider⟩
  have hall : ∀ k ∈ ms.filter (fun k => k.isProvider && k.name = m.name), k = m := by
    intro k hk
    obtain ⟨hk, hprovides⟩ := List.mem_filter.mp hk
    simp only [Bool.and_eq_true, decide_eq_true_eq] at hprovides
    exact List.inj_on_of_nodup_map hnames (hmem k hk hprovides.1) (hmem m hm hkind) hprovides.2
  have hnodup : (ms.filter fun k => k.isProvider && k.name = m.name).Nodup := by
    refine (List.Nodup.of_map _ hnames).sublist (List.monotone_filter_right ms ?_)
    intro k hk
    exact hplain k (Bool.and_eq_true_iff.mp hk).1
  have hself : m ∈ ms.filter (fun k => k.isProvider && k.name = m.name) :=
    List.mem_filter.mpr ⟨hm, by simp [hkind]⟩
  rw [List.eq_replicate_of_mem hall] at hnodup hself ⊢
  have hlength := List.nodup_replicate.mp hnodup
  have hpos := List.length_pos_of_mem hself
  rw [List.length_replicate] at hpos
  rw [show (ms.filter fun k => k.isProvider && k.name = m.name).length = 1 by omega]
  rfl

end Method

/-- The parts of a table fit: the test refers to the data provider by its name, its parameters are
the columns that are planned for the runs, with different names, and the data provider gives the
rows. -/
structure ParameterizedTest.Fits (t : ParameterizedTest) (set : TestSet) : Prop where
  test : t.test.kind = .parameterized set.executable t.provider.name
  provider : t.provider.kind = .dataProvider
  distinct : (t.test.parameters.map Parameter.name).Nodup
  rows : ∃ columns : List Column, t.test.parameters = columns.map Column.parameter ∧
    columns.map (fun c => (c.role, c.parameter.type)) = Column.plan set.executable set.rows ∧
    Stmt.GivesRows t.provider.body columns set.rows

theorem TestSet.fits_of_toTable_ok {set : TestSet} {g g' : Generation} {t : ParameterizedTest}
    (h : set.toTable g = .ok t g') : t.Fits set := by
  have hgo := (hasTables_of_toTable_ok h).ne_go
  obtain ⟨providerBody, d, testBody, d', hprovider, -, rfl, -⟩ := exists_drafts_of_toTable_ok h
  refine ⟨rfl, rfl, ?_, _, rfl, Column.roles_ofRuns _ _ _, ?_⟩
  · have hnames := Column.nodup_names_ofRuns g.config set.executable set.rows
    simpa [tableTestWith, Column.names, Function.comp_def] using hnames
  · exact Draft.providerBody_givesRows hgo
      (fun c hc i hrole => Column.lt_of_argument hc hrole) hprovider

namespace TablePart

variable {config : Config} {p : TablePart}

theorem fits_of_holds (h : p.Holds config) {t : ParameterizedTest} (ht : t ∈ p.table) :
    t.Fits p.set := by
  cases hobstacle : p.set.tableObstacle config with
  | some cause =>
      rw [h.tabulates.refused cause hobstacle] at ht
      cases ht
  | none =>
      obtain ⟨t', g, g', htable, -, hwritten⟩ := h.tabulates.built hobstacle
      rw [htable] at ht
      cases ht
      exact TestSet.fits_of_toTable_ok hwritten

/-- The parameterized tests in the region of a part are that of its table. -/
theorem filter_isParameterized (h : p.Holds config) :
    p.region.methods.filter Method.isParameterized = p.tests := by
  obtain ⟨listings, hmethods, hlists⟩ := h.methods
  have htests : p.tests.filter Method.isParameterized = p.tests := by
    refine List.filter_eq_self.mpr fun m hm => ?_
    obtain ⟨t, ht, rfl⟩ := List.mem_map.mp hm
    simp [Method.isParameterized, (fits_of_holds h (Option.mem_toList.mp ht)).test]
  have hlistings : listings.filter Method.isParameterized = [] := by
    refine List.filter_eq_nil_iff.mpr fun m hm => ?_
    obtain ⟨name, errors, rfl⟩ := hlists m hm
    exact Bool.false_ne_true
  rw [hmethods, List.filter_append, htests, hlistings, List.append_nil]

theorem isProvider_of_holds (h : p.Holds config) {m : Method} (hm : m ∈ p.providers) :
    m.isProvider = true := by
  obtain ⟨t, ht, rfl⟩ := List.mem_map.mp hm
  simp [Method.isProvider, (fits_of_holds h (Option.mem_toList.mp ht)).provider]

end TablePart

namespace Construction.HasParts

variable {c : Construction} {g : Generation} {sets : List TestSet} {parts : List TablePart}

/-- The data providers among the static methods are those of the parts. -/
theorem filter_isProvider (h : c.HasParts g sets parts) :
    c.file.testClass.statics.methods.filter Method.isProvider =
      parts.flatMap TablePart.providers := by
  obtain ⟨helpers, hmethods⟩ := h.statics_eq
  have hproviders : (parts.flatMap TablePart.providers).filter Method.isProvider =
      parts.flatMap TablePart.providers := by
    refine List.filter_eq_self.mpr fun m hm => ?_
    obtain ⟨p, hp, hm⟩ := List.mem_flatMap.mp hm
    exact TablePart.isProvider_of_holds (h.holds p hp) hm
  have hhelpers : (helpers.map Method.ofHelper).filter Method.isProvider = [] := by
    refine List.filter_eq_nil_iff.mpr fun m hm => ?_
    obtain ⟨k, -, rfl⟩ := List.mem_map.mp hm
    exact Bool.false_ne_true
  rw [hmethods, List.filter_append, hproviders, hhelpers, List.append_nil]

/-- A table has the one data provider of its name in the class. -/
theorem filter_provider_eq (h : c.HasParts g sets parts) (hc : g.construct sets = .ok c)
    {p : TablePart} (hp : p ∈ parts) {t : ParameterizedTest} (ht : t ∈ p.table) :
    c.file.testClass.methods.filter (fun m => m.isProvider && m.name = t.provider.name) =
      [t.provider] := by
  obtain ⟨c', hc', hnames⟩ := g.construct_named sets
  rw [hc] at hc'
  cases hc'
  have hmem : t.provider ∈ p.providers := List.mem_map_of_mem (Option.mem_toList.mpr ht)
  have hstatic : t.provider ∈ c.file.testClass.statics.methods := by
    have hall : t.provider ∈ parts.flatMap TablePart.providers :=
      List.mem_flatMap.mpr ⟨p, hp, hmem⟩
    rw [← h.filter_isProvider] at hall
    exact (List.mem_filter.mp hall).1
  exact Method.filter_provider_eq hnames (List.mem_append_right _ hstatic)
    (TablePart.isProvider_of_holds (h.holds p hp) hmem)

end Construction.HasParts

/-- Where the runs of a set become one table, each set that has runs has a part of the class.  Its
region holds the parameterized test of the part, if there is one, the data providers are those of
the parts, and an error is counted for each set whose table has an obstacle.  Without an obstacle
there is a table; its parts fit, and the class has one data provider of the name to which its test
refers. -/
theorem tables_fit_or_are_counted (g : Generation) (customName : Option String) (optimize : Bool)
    (htables : g.config.isParameterized = true) (sets : List TestSet) :
    ∃ (c : Construction) (parts : List TablePart),
      (g.derive customName optimize).construct sets = .ok c ∧
      parts.map TablePart.set = sets.filter TestSet.isCovered ∧
      c.file.testClass.regions = parts.map TablePart.region ∧
      c.file.testClass.statics.methods.filter Method.isProvider =
        parts.flatMap TablePart.providers ∧
      c.generation.errors =
        parts.foldl (fun errors p => p.set.countTable g.config errors) .empty ∧
      ∀ p ∈ parts, p.region.methods.filter Method.isParameterized = p.tests ∧
        (p.table.isSome = true ↔ p.set.tableObstacle g.config = none) ∧
        ∀ t ∈ p.table, t.Fits p.set ∧
          c.file.testClass.methods.filter (fun m => m.isProvider && m.name = t.provider.name) =
            [t.provider] := by
  obtain ⟨c, parts, hc, hparts⟩ :=
    Generation.construct_parts (g := g.derive customName optimize) htables sets
  refine ⟨c, parts, hc, hparts.sets_eq, hparts.regions_eq, hparts.filter_isProvider,
    hparts.errors_eq, fun p hp => ?_⟩
  have hholds := hparts.holds p hp
  refine ⟨TablePart.filter_isParameterized hholds, ?_, fun t ht =>
    ⟨TablePart.fits_of_holds hholds ht, hparts.filter_provider_eq hc hp ht⟩⟩
  constructor
  · intro hsome
    cases hobstacle : p.set.tableObstacle g.config with
    | none => rfl
    | some cause =>
        rw [hholds.tabulates.refused cause hobstacle] at hsome
        cases hsome
  · intro hnone
    obtain ⟨t, -, -, htable, -⟩ := hholds.tabulates.built hnone
    rw [htable]
    rfl

/-- Tables in Java. -/
def javaTables : Config :=
  { Config.forLanguage .java with parameterization := .oneTable }

/-- Two runs of a division, one of which failed. -/
def divisions : TestSet :=
  ⟨⟨⟨"shop", "Calc"⟩, "divide", [⟨"a", .primitive .int⟩, ⟨"b", .primitive .int⟩], .primitive .int,
      .staticMethod⟩,
    [.ofArguments [.literal (.int 6), .literal (.int 3)] (.returning (.literal (.int 2))),
      .ofArguments [.literal (.int 6), .literal (.int 0)]
        (.failure .implicit ⟨"java.lang", "ArithmeticException"⟩)], [], .empty⟩

/-- A run that ended the process. -/
def exits : TestSet :=
  ⟨⟨⟨"shop", "Calc"⟩, "halt", [], .void, .staticMethod⟩, [.ofArguments [] (.crash "exit")], [],
    .empty⟩

/-- The divisions have a table with one data provider, and the other set has none and is counted. -/
theorem tables_fit_or_are_counted_divisions :
    (Generation.new ⟨"shop", "Calc"⟩ javaTables).config.isParameterized = true ∧
      ∃ (c : Construction) (t : ParameterizedTest) (p q : Region),
        ((Generation.new ⟨"shop", "Calc"⟩ javaTables).derive none true).construct
          [divisions, exits] = .ok c ∧
        c.file.testClass.regions = [p, q] ∧ p.methods.filter Method.isParameterized = [t.test] ∧
        q.methods.filter Method.isParameterized = [] ∧
        c.file.testClass.statics.methods.filter Method.isProvider = [t.provider] ∧
        t.Fits divisions ∧
        c.generation.errors = exits.countTable javaTables .empty := by
  refine ⟨rfl, ?_⟩
  obtain ⟨c, parts, hc, hsets, hregions, hproviders, herrors, hparts⟩ :=
    tables_fit_or_are_counted (.new ⟨"shop", "Calc"⟩ javaTables) none true rfl [divisions, exits]
  obtain ⟨p, rest, rfl, hp, hrest⟩ := List.map_eq_cons_iff.mp hsets
  obtain ⟨q, rest, rfl, hq, hrest⟩ := List.map_eq_cons_iff.mp hrest
  obtain rfl := List.map_eq_nil_iff.mp hrest
  obtain ⟨htests, htable, hfits⟩ := hparts p List.mem_cons_self
  obtain ⟨htests', htable', -⟩ := hparts q (List.mem_cons_of_mem _ List.mem_cons_self)
  rw [hp] at htable hfits
  rw [hq] at htable'
  obtain ⟨t, ht⟩ := Option.isSome_iff_exists.mp (htable.mpr rfl)
  have hnone : q.table = none := by
    refine Option.not_isSome_iff_eq_none.mp fun hsome => ?_
    cases htable'.mp hsome
  have hp' : p.tests = [t.test] ∧ p.providers = [t.provider] := by
    simp [TablePart.tests, TablePart.providers, ht]
  have hq' : q.tests = [] ∧ q.providers = [] := by
    simp [TablePart.tests, TablePart.providers, hnone]
  refine ⟨c, t, p.region, q.region, hc, hregions, htests.trans hp'.1, htests'.trans hq'.1, ?_,
    (hfits t ht).1, ?_⟩
  · simpa [hp'.2, hq'.2] using hproviders
  · rw [herrors]
    simp only [List.foldl_cons, List.foldl_nil, hp, hq]
    rfl

end TestWriter
