import TestWriter.Proofs.Captures
import TestWriter.Proofs.MethodOrder
import TestWriter.Proofs.ShownNames

/-!
# Printed names

A language writes a reserved word with an underscore behind it or between backticks when it is a
name.  What stands there can be a name of its own.  Main statement: no name in a built method is
printed like a reserved word, and different names are printed differently exactly when the evidence
asks for no reserved word together with the name that it is printed as.
-/

namespace TestWriter

open Layout
open NameSupply (handedOut numbered wanted)

/-! ## Reserved words -/

namespace Language

/-- The words that a language does not allow as names. -/
def reserved : Language → List String
  | .java => Target.Java.reserved
  | .kotlin => Target.Kotlin.reserved
  | .javascript => Target.JavaScript.reserved
  | .python => Target.Python.reserved
  | .go => Target.Go.reserved

/-- A reserved word that is used as a name. -/
def escaped (l : Language) (word : String) : String :=
  if l = .kotlin then "`" ++ word ++ "`" else word ++ "_"

/-- A name as a language prints it. -/
def printed (l : Language) (name : String) : String :=
  if name ∈ l.reserved then l.escaped name else name

/-- A reserved word ends neither in a digit nor in what is written behind it. -/
theorem exists_last_of_mem_reserved {l : Language} {word : String} (h : word ∈ l.reserved) :
    ∃ c, word.toList.getLast? = some c ∧ c.isDigit = false ∧ c ≠ '_' ∧ c ≠ '`' := by
  have hall : l.reserved.all (fun w => w.toList.getLast?.any fun c =>
      !c.isDigit && c != '_' && c != '`') = true := by
    cases l <;> decide
  have hword := List.all_eq_true.mp hall word h
  cases hlast : word.toList.getLast? with
  | none =>
      rw [hlast] at hword
      cases hword
  | some c =>
      rw [hlast] at hword
      exact ⟨c, rfl, by simpa [and_assoc] using hword⟩

theorem getLast?_escaped (l : Language) (word : String) :
    (l.escaped word).toList.getLast? = some (if l = .kotlin then '`' else '_') := by
  unfold escaped
  split <;> simp [String.toList_append, List.getLast?_cons]

theorem escaped_injective (l : Language) : Function.Injective l.escaped := by
  intro x y h
  unfold escaped at h
  apply String.toList_inj.mp
  split at h <;> simpa using congrArg String.toList h

/-- What is printed for a reserved word is none. -/
theorem escaped_not_mem_reserved (l : Language) (word : String) : l.escaped word ∉ l.reserved := by
  intro h
  obtain ⟨c, hc, -, hunderscore, hbacktick⟩ := exists_last_of_mem_reserved h
  rw [getLast?_escaped] at hc
  cases hc
  split at hbacktick
  · exact hbacktick rfl
  · exact hunderscore (if_neg ‹_›)

/-- No name is printed like a reserved word. -/
theorem printed_not_mem_reserved (l : Language) (name : String) : l.printed name ∉ l.reserved := by
  unfold printed
  split
  · exact l.escaped_not_mem_reserved name
  · assumption

/-- Two names are printed alike when one is reserved and the other is what it is printed as. -/
theorem printed_eq_iff {l : Language} {x y : String} :
    l.printed x = l.printed y ↔ x = y ∨ (x ∈ l.reserved ∧ y = l.printed x) ∨
      (y ∈ l.reserved ∧ x = l.printed y) := by
  have hescaped := l.escaped_not_mem_reserved
  have hinjective := @(l.escaped_injective)
  unfold printed
  grind

end Language

/-- What a method writes for a name is what its language prints for it. -/
theorem Target.Surroundings.identifier_eq (s : Surroundings) :
    s.methodForms.dialect.identifier = s.settings.language.printed := by
  funext name
  unfold methodForms Language.printed
  cases s.settings.language with
  | kotlin => exact ite_congr (propext List.contains_iff_mem) (fun _ => rfl) fun _ => rfl
  | java | javascript | python | go =>
      exact ite_congr (propext List.contains_iff_mem) (fun _ => rfl) fun _ => rfl

/-! ## Names that are handed out -/

namespace NameSupply

variable {bases : List String} {word : String}

/-- A name that ends in no digit has no counter, so it is handed out when it is asked for. -/
theorem mem_handedOut_iff {c : Char} (hlast : word.toList.getLast? = some c)
    (hdigit : c.isDigit = false) (hvalue : word ≠ "value") :
    word ∈ handedOut bases ↔ word ∈ bases := by
  constructor
  · intro hword
    obtain ⟨base, hbase, heq | ⟨n, heq⟩⟩ := exists_base_of_mem_handOut hword
    · unfold wanted at heq
      split at heq
      · exact absurd heq hvalue
      · exact heq ▸ hbase
    · obtain ⟨digit, hdigit', htrue⟩ := exists_digit_numbered (wanted base) "" n
      rw [← heq, hlast] at hdigit'
      cases hdigit'
      rw [hdigit] at htrue
      cases htrue
  · intro hword
    have hne : word.isEmpty = false := by
      rw [Bool.eq_false_iff, Ne, String.isEmpty_iff]
      rintro rfl
      cases hlast
    have hmem := wanted_mem_handedOut hword
    rwa [wanted, hne] at hmem

/-- No name is handed out twice. -/
theorem nodup_handedOut (bases : List String) : (handedOut bases).Nodup := by
  rw [handedOut, handOut_eq_serve]
  exact (nodup_serve _ _ _).1

end NameSupply

namespace Language

variable {l : Language} {bases names : List String} {word : String}

/-- A reserved word is handed out when it is asked for. -/
theorem mem_handedOut_of_reserved (h : word ∈ l.reserved) :
    word ∈ handedOut bases ↔ word ∈ bases := by
  obtain ⟨c, hc, hdigit, -⟩ := exists_last_of_mem_reserved h
  refine NameSupply.mem_handedOut_iff hc hdigit ?_
  rintro rfl
  revert h
  cases l <;> decide

/-- What a reserved word is printed as is handed out when it is asked for. -/
theorem printed_mem_handedOut_of_reserved (h : word ∈ l.reserved) :
    l.printed word ∈ handedOut bases ↔ l.printed word ∈ bases := by
  rw [printed, if_pos h]
  refine NameSupply.mem_handedOut_iff (l.getLast?_escaped word) ?_ ?_
  · split <;> decide
  · intro hvalue
    have hlast := l.getLast?_escaped word
    rw [hvalue] at hlast
    revert hlast
    split <;> decide

/-- Names that are handed out are printed differently exactly when no base is a reserved word that
is printed like another base. -/
theorem nodup_printed_iff (hnames : names.Perm (handedOut bases)) :
    (names.map l.printed).Nodup ↔ ∀ word ∈ l.reserved, word ∈ bases → l.printed word ∉ bases := by
  have hnodup : names.Nodup := hnames.nodup_iff.mpr (NameSupply.nodup_handedOut bases)
  rw [List.nodup_map_iff_inj_on hnodup]
  constructor
  · intro hinjective word hword hbase hprinted
    have hleft := hnames.mem_iff.mpr ((mem_handedOut_of_reserved hword).mpr hbase)
    have hright := hnames.mem_iff.mpr ((printed_mem_handedOut_of_reserved hword).mpr hprinted)
    have halike : l.printed word = l.printed (l.printed word) :=
      printed_eq_iff.mpr (Or.inr (Or.inl ⟨hword, rfl⟩))
    exact l.printed_not_mem_reserved word (hinjective _ hleft _ hright halike ▸ hword)
  · intro hapart
    -- of two names that are printed alike, one is reserved and the other is asked for beside it
    have hnone : ∀ x ∈ names, x ∈ l.reserved → l.printed x ∉ names := by
      intro x hx hreserved hprinted
      refine hapart x hreserved ?_ ?_
      · exact (mem_handedOut_of_reserved hreserved).mp (hnames.mem_iff.mp hx)
      · exact (printed_mem_handedOut_of_reserved hreserved).mp (hnames.mem_iff.mp hprinted)
    intro x hx y hy halike
    rcases printed_eq_iff.mp halike with heq | ⟨hreserved, rfl⟩ | ⟨hreserved, rfl⟩
    · exact heq
    · exact absurd hy (hnone x hx hreserved)
    · exact absurd hx (hnone y hy hreserved)

end Language

/-! ## Names in the test of a run -/

/-- The bases for the mocked static methods of some classes: the results of the stubs of a class,
and the variable that holds its mock. -/
def StaticStub.groupBases (groups : List (ClassName × List StaticStub)) : List String :=
  groups.flatMap fun group =>
    (group.2.flatMap fun s => s.returns.bases (s.method ++ "Result")) ++ ["mockedStatic"]

/-- The bases of the variables in the test of a run, with those for mocked static methods. -/
def Execution.allBases (run : Execution) (config : Config) (e : Executable) : List String :=
  run.receiverBases e ++
    Value.basesOf (fun i => (argumentNames config e).getD i "") 0 run.arguments ++
    StaticStub.groupBases (run.writtenStubs config) ++ run.outcomeBases config e

namespace Draft

variable {language : Language}

theorem staticStubbings_declares (stubs : List StaticStub) :
    Declares (staticStubbings language stubs)
      (stubs.flatMap fun s => s.returns.bases (s.method ++ "Result"))
      fun stubbings => boundIn (Stubbing.traceOf stubbings) = [] := by
  induction stubs with
  | nil => exact .pure rfl
  | cons s rest ih =>
      refine (express_declares language _ s.returns).bind fun e he => ?_
      refine ih.last fun stubbings hstubbings => .pure ?_
      exact boundIn_append_eq_nil he hstubbings

/-- The name of a variable that holds a mock is no reserved word. -/
theorem printed_handle (l : Language) (s : NameSupply) :
    l.printed (s.claimVariable "mockedStatic").1 = (s.claimVariable "mockedStatic").1 := by
  refine if_neg ?_
  rcases NameSupply.claim_cases s "mockedStatic" "" with heq | ⟨n, heq⟩
  · intro h
    have hname : "mockedStatic" ∈ l.reserved := heq ▸ h
    revert hname
    cases l <;> decide
  · intro h
    have hname : numbered "mockedStatic" "" n ∈ l.reserved := heq ▸ h
    obtain ⟨c, hc, hnot, -⟩ := Language.exists_last_of_mem_reserved hname
    obtain ⟨digit, hdigit, htrue⟩ := NameSupply.exists_digit_numbered "mockedStatic" "" n
    cases hc.symm.trans hdigit
    rw [htrue] at hnot
    cases hnot

/-- The variables that hold mocks and those that their stubs need have the names that are handed
out for both. -/
theorem staticScopes_declares {groups : List (ClassName × List StaticStub)} {d d' : Draft}
    {opened : List StaticScope} (h : staticScopes language groups d = .ok opened d') :
    d'.supply = (d.supply.handOut (StaticStub.groupBases groups)).2 ∧
      (boundIn (Stmt.traceOf d'.statements) ++ opened.map StaticScope.handle).Perm
        (boundIn (Stmt.traceOf d.statements) ++
          (d.supply.handOut (StaticStub.groupBases groups)).1) ∧
      ∀ s ∈ opened, boundIn (Stubbing.traceOf s.stubbings) = [] ∧
        ∀ l : Language, l.printed s.handle = s.handle := by
  induction groups generalizing d opened with
  | nil =>
      obtain ⟨rfl, rfl⟩ := Build.pure_eq_ok.mp h
      exact ⟨rfl, .refl _, List.forall_mem_nil _⟩
  | cons group rest ih =>
      obtain ⟨stubbings, d₁, hstubbings, h⟩ := Build.bind_eq_ok.mp h
      obtain ⟨handle, d₂, hname, h⟩ := Build.bind_eq_ok.mp h
      obtain ⟨others, d₃, hothers, h⟩ := Build.bind_eq_ok.mp h
      obtain ⟨rfl, rfl⟩ := Build.pure_eq_ok.mp h
      obtain ⟨hsupply, hbound, hnone⟩ := staticStubbings_declares _ _ _ _ hstubbings
      cases hname
      obtain ⟨hsupply', hperm, hscopes⟩ := ih hothers
      have hbases : StaticStub.groupBases (group :: rest) =
          (group.2.flatMap fun s => s.returns.bases (s.method ++ "Result")) ++
            ("mockedStatic" :: StaticStub.groupBases rest) := by
        simp [StaticStub.groupBases]
      rw [hbases, NameSupply.handOut_append, ← hsupply]
      refine ⟨hsupply', ?_, List.forall_mem_cons.mpr ⟨⟨hnone, fun l => ?_⟩, hscopes⟩⟩
      · rw [← List.append_assoc, ← hbound]
        exact List.perm_middle.trans ((hperm.cons _).trans List.perm_middle.symm)
      · exact printed_handle l _

theorem markStatics_declares (groups : List (ClassName × List StaticStub)) :
    Declares (markStatics groups) [] fun _ => True := by
  simp only [markStatics]
  split
  · exact .pure trivial
  · exact markMocks_declares

theorem boundIn_opening {opened : List StaticScope}
    (h : ∀ s ∈ opened, boundIn (Stubbing.traceOf s.stubbings) = []) :
    boundIn (StaticScope.opening opened) = opened.map StaticScope.handle := by
  induction opened with
  | nil => rfl
  | cons s rest ih =>
      obtain ⟨hs, hrest⟩ := List.forall_mem_cons.mp h
      change boundIn ([.enter, .bind s.handle] ++ Stubbing.traceOf s.stubbings ++
        StaticScope.opening rest) = _
      rw [boundIn_append, boundIn_append, hs, ih hrest]
      rfl

theorem boundIn_enclose {opened : List StaticScope} (body : List Stmt)
    (h : ∀ s ∈ opened, boundIn (Stubbing.traceOf s.stubbings) = []) :
    boundIn (Stmt.traceOf (StaticScope.enclose opened body)) =
      opened.map StaticScope.handle ++ boundIn (Stmt.traceOf body) := by
  have hleaves : ∀ n, boundIn (List.replicate n .leave) = [] := by
    intro n
    exact List.filterMap_eq_nil_iff.mpr fun event hevent => by
      rw [List.eq_of_mem_replicate hevent]
      rfl
  rw [StaticScope.traceOf_enclose, boundIn_append, boundIn_append, boundIn_opening h, hleaves,
    List.append_nil]

/-- The test of a run builds its values, opens scopes and checks the outcome in them.  Together
they introduce the names that are handed out for what the run asks for. -/
theorem exists_parts_of_bodyOfRun {config : Config} {e : Executable} {run : Execution}
    {g : Generation} {d : Draft} {body : List Stmt}
    (h : bodyOfRun config e run (start g) = .ok body d) :
    ∃ arrange opened act, body = apart arrange (StaticScope.enclose opened act) ∧
      (∀ s ∈ arrange, s.Rebuilds config.language) ∧
      (∀ s ∈ opened, boundIn (Stubbing.traceOf s.stubbings) = [] ∧
        ∀ l : Language, l.printed s.handle = s.handle) ∧
      (∀ s ∈ act, s.Built { config with staticMocking := .off } (some e)) ∧
      (boundIn (Stmt.traceOf body)).Perm (handedOut (run.allBases config e)) := by
  obtain ⟨call, d₁, d₂, opened, d₃, d₅, hcall, hmark, hopened, houtcome, rfl, rfl⟩ :=
    exists_drafts_of_bodyOfRun_ok h
  obtain ⟨hlaid, hcalls⟩ := callOfRun_lays _ _ _ run _ _ _ hcall
  obtain ⟨hlaid', -⟩ := markStatics_lays _ _ _ _ hmark
  obtain ⟨hlaid'', -, -⟩ := staticScopes_lays _ _ _ _ _ hopened
  -- the check of the outcome does not look at how static methods are mocked
  obtain ⟨hact, -⟩ := (checkOutcome_lays { config with staticMocking := .off } e run hcalls _ _ _
    houtcome).1.all rfl
  obtain ⟨harranged, -⟩ := ((hlaid.trans hlaid').trans hlaid'').all rfl
  obtain ⟨hsupply₁, hbound₁, hreads⟩ := callOfRun_declares e _ run _ _ _ hcall
  obtain ⟨hsupply₂, hbound₂, -⟩ := markStatics_declares _ _ _ _ hmark
  obtain ⟨hsupply₃, hperm, hscopes⟩ := staticScopes_declares hopened
  obtain ⟨-, hacted, -⟩ := checkOutcome_declares config e run hreads _ _ _ houtcome
  refine ⟨d₃.statements, opened, d₅.statements, rfl, harranged, hscopes, hact, ?_⟩
  rw [hbound₂, hbound₁, hsupply₂, hsupply₁] at hperm
  rw [hsupply₃, hsupply₂, hsupply₁] at hacted
  rw [Stmt.traceOf_apart, boundIn_append, boundIn_enclose _ fun s hs => (hscopes s hs).1,
    ← List.append_assoc, handedOut, Execution.allBases, NameSupply.handOut_append,
    NameSupply.handOut_append]
  simp only [NameSupply.handOut, List.append_nil] at hperm hacted
  exact hperm.append (.of_eq hacted)

end Draft

/-! ## Names in the text of a method -/

theorem Expr.IsAtom.boundIn_eq {e : Expr} (h : e.IsAtom) : boundIn e.trace = [] := by
  cases h <;> rfl

theorem Expr.boundIn_traceOf {es : List Expr} (h : ∀ e ∈ es, boundIn e.trace = []) :
    boundIn (Expr.traceOf es) = [] := by
  induction es with
  | nil => rfl
  | cons e rest ih =>
      obtain ⟨he, hrest⟩ := List.forall_mem_cons.mp h
      exact boundIn_append_eq_nil he (ih hrest)

theorem Expr.boundIn_atoms {es : List Expr} (h : ∀ e ∈ es, e.IsAtom) :
    boundIn (Expr.traceOf es) = [] :=
  Expr.boundIn_traceOf fun e he => (h e he).boundIn_eq

theorem Expr.IsRow.boundIn_eq {row : Expr} (h : row.IsRow) : boundIn row.trace = [] := by
  cases h with
  | mk hcells =>
      refine Expr.boundIn_traceOf fun c hc => ?_
      cases hcells c hc with
      | atom h => exact h.boundIn_eq
      | classOf owner => rfl

theorem Stmt.mem_boundIn_iff {body : List Stmt} {x : String} :
    x ∈ boundIn (Stmt.traceOf body) ↔ ∃ s ∈ body, x ∈ boundIn s.trace := by
  induction body with
  | nil => simp [Stmt.traceOf, boundIn]
  | cons s rest ih =>
      rw [Stmt.traceOf, boundIn_append, List.mem_append, ih]
      simp

theorem Expr.Calls.boundIn_eq {language : Language} {e : Executable} {call : Expr}
    (h : call.Calls language e) : boundIn call.trace = [] := by
  cases h with
  | mk hreceiver harguments _ =>
      exact Executable.boundIn_call hreceiver.boundIn_eq (Expr.boundIn_atoms harguments)

namespace Target

open Rendering

/-- The forms of a dialect show the names that they introduce, and what the blocks show in which
built methods declare variables. -/
structure Dialect.ShowsLocals (d : Dialect) : Prop where
  declare : ∀ name t r, (d.declare name t false (some r)).Shows
    (.text (.identifier name) (d.identifier name))
  branch : ∀ r b b' step, b.content.Shows step → (d.branch r b b').Shows step
  handle : ∀ handle owner fs r, (d.mockedStatic handle owner fs r).Shows
    (.text (.identifier handle) handle)
  scope : ∀ handle owner fs r step, r.Shows step → (d.mockedStatic handle owner fs r).Shows step

/-- Every language shows the names that its forms introduce. -/
theorem Surroundings.showsLocals (s : Surroundings) : s.methodForms.dialect.ShowsLocals := by
  unfold methodForms
  cases s.settings.language with
  | java =>
      exact {
        declare := fun name t r =>
          shows_left (shows_left (shows_right (shows_ok (List.mem_singleton_self _))))
        branch := fun r b b' step h => shows_left (shows_left (shows_right (shows_nest h)))
        handle := fun handle owner fs r => by
          iterate 7 apply shows_left
          exact shows_right (shows_ok (List.mem_singleton_self _))
        scope := fun handle owner fs r step h =>
          shows_left (shows_right (shows_nest (shows_right h))) }
  | kotlin =>
      exact {
        declare := fun name t r => by
          iterate 3 apply shows_left
          exact shows_right (shows_ok (List.mem_singleton_self _))
        branch := fun r b b' step h => shows_left (shows_left (shows_right (shows_nest h)))
        handle := fun handle owner fs r => by
          iterate 3 apply shows_left
          exact shows_right (shows_ok (List.mem_singleton_self _))
        scope := fun handle owner fs r step h =>
          shows_left (shows_right (shows_nest (shows_right h))) }
  | javascript =>
      exact {
        declare := fun name t r => by
          iterate 3 apply shows_left
          exact shows_right (shows_ok (List.mem_singleton_self _))
        branch := fun r b b' step h => shows_left (shows_left (shows_right (shows_nest h)))
        handle := fun handle owner fs r => shows_error _
        scope := fun handle owner fs r step h => shows_error _ }
  | python =>
      exact {
        declare := fun name t r => by
          iterate 3 apply shows_left
          exact shows_ok (List.mem_singleton_self _)
        branch := fun r b b' step h => shows_left (shows_right (shows_nest (shows_left h)))
        handle := fun handle owner fs r => shows_error _
        scope := fun handle owner fs r step h => shows_error _ }
  | go =>
      exact {
        declare := fun name t r => by
          iterate 3 apply shows_left
          exact shows_ok (List.mem_singleton_self _)
        branch := fun r b b' step h => shows_left (shows_left (shows_right (shows_nest h)))
        handle := fun handle owner fs r => shows_error _
        scope := fun handle owner fs r step h => shows_error _ }

/-- A statement shows the variables that it introduces. -/
def Dialect.ShowsOwn (d : Dialect) (y : Stmt) : Prop :=
  ∀ x ∈ boundIn y.trace, (d.stmt y).Shows (.text (.identifier x) (d.identifier x))

namespace Dialect.ShowsLocals

variable {d : Dialect}

/-- A declaration shows its variable. -/
theorem declared (hd : d.ShowsLocals) (name : String) (t : DataType) {e : Expr}
    (he : boundIn e.trace = []) : d.ShowsOwn (.declare name t false (some e)) := by
  intro x hx
  rw [Stmt.trace, boundIn_append, he] at hx
  obtain rfl : x = name := List.mem_singleton.mp hx
  exact shows_right (hd.declare x t _)

theorem showsOwn_of_boundIn {y : Stmt} (h : boundIn y.trace = []) : d.ShowsOwn y := by
  intro x hx
  rw [h] at hx
  cases hx

/-- A statement that rebuilds a value shows the variable that it declares. -/
theorem rebuilds (hd : d.ShowsLocals) {language : Language} {y : Stmt} (hy : y.Rebuilds language) :
    d.ShowsOwn y := by
  cases hy with
  | array name element hvalues => exact hd.declared _ _ (Expr.boundIn_atoms hvalues)
  | object name owner harguments hgo => exact hd.declared _ _ (Expr.boundIn_atoms harguments)
  | allocated name owner =>
      refine hd.declared _ _ ?_
      cases language <;> rfl
  | field name hway hobject hvalue =>
      refine showsOwn_of_boundIn ?_
      rw [Draft.trace_statement]
      exact boundIn_append_eq_nil hobject.boundIn_eq hvalue.boundIn_eq
  | mock name owner hmocks => exact hd.declared _ _ rfl
  | stub method hmocks hobject harguments hreturns =>
      exact showsOwn_of_boundIn (boundIn_append_eq_nil hobject.boundIn_eq
        (boundIn_append_eq_nil (Expr.boundIn_atoms harguments) hreturns.boundIn_eq))

/-- Without mocked static methods, a built statement shows the variables that it declares. -/
theorem built (hd : d.ShowsLocals) {config : Config} {tested : Option Executable} {y : Stmt}
    (hoff : config.staticMocking = .off) (hy : y.Built config tested) : d.ShowsOwn y := by
  induction hy with
  | rebuilds h => exact hd.rebuilds h
  | result name he hcall => exact hd.declared _ _ hcall.boundIn_eq
  | run he hcall => exact showsOwn_of_boundIn hcall.boundIn_eq
  | isNull hactual => exact showsOwn_of_boundIn hactual.boundIn_eq
  | isNaN hactual =>
      exact showsOwn_of_boundIn (boundIn_append_eq_nil hactual.boundIn_eq hactual.boundIn_eq)
  | deepEquals hlanguage hexpected hactual =>
      exact showsOwn_of_boundIn (Expr.boundIn_atoms (List.forall_mem_cons.mpr
        ⟨hexpected, List.forall_mem_singleton.mpr hactual⟩))
  | equals deep hexpected hactual hdelta =>
      exact showsOwn_of_boundIn (boundIn_append_eq_nil hexpected.boundIn_eq hactual.boundIn_eq)
  | @throws e call exception he hcall =>
      have htrace : (Stmt.assertThrows (.classOf exception) [.eval call]).trace =
          .enter :: call.trace ++ [.leave] := by simp [Stmt.trace, Stmt.traceOf, Expr.trace]
      refine showsOwn_of_boundIn ?_
      rw [htrace, boundIn_scope, hcall.boundIn_eq]
  | blank => exact showsOwn_of_boundIn rfl
  | comment text => exact showsOwn_of_boundIn rfl
  | comments lines => exact showsOwn_of_boundIn rfl
  | mocked handle owner hmocks => exact absurd hoff hmocks
  | rows htables hrows =>
      exact showsOwn_of_boundIn
        (Expr.boundIn_traceOf fun row hrow => (hrows row hrow).boundIn_eq)
  | castEquals type htables hexpected hactual hdelta =>
      exact showsOwn_of_boundIn (boundIn_append_eq_nil hexpected.boundIn_eq hactual.boundIn_eq)
  | @branch e error call success htables herror hsuccess he hcall ih =>
      intro x hx
      have hthrows : boundIn (error.trace ++ (.enter :: call.trace ++ [.leave])) = [] :=
        boundIn_append_eq_nil herror.boundIn_eq ((boundIn_scope _).trans hcall.boundIn_eq)
      rw [← Stmt.traceOf_singleton, Draft.traceOf_branch, boundIn_append, boundIn_append,
        boundIn_scope, boundIn_scope, herror.boundIn_eq, hthrows, List.append_nil] at hx
      obtain ⟨y, hy, hx⟩ := Stmt.mem_boundIn_iff.mp hx
      refine shows_right (hd.branch _ _ _ _ ?_)
      rw [content_blockOf]
      exact shows_stmts hy (ih y hy x hx)

/-- A scope of mocked static methods shows its handle and the variables inside. -/
theorem enclose (hd : d.ShowsLocals) {opened : List StaticScope} {act : List Stmt}
    (hopened : ∀ s ∈ opened, boundIn (Stubbing.traceOf s.stubbings) = [] ∧
      d.identifier s.handle = s.handle)
    (hact : ∀ y ∈ act, d.ShowsOwn y) : ∀ y ∈ StaticScope.enclose opened act, d.ShowsOwn y := by
  induction opened with
  | nil => exact hact
  | cons s rest ih =>
      obtain ⟨⟨hnone, hhandle⟩, hrest⟩ := List.forall_mem_cons.mp hopened
      refine List.forall_mem_singleton.mpr fun x hx => shows_right ?_
      have hinside : x ∈ s.handle :: boundIn (Stmt.traceOf (StaticScope.enclose rest act)) := by
        rw [← Stmt.traceOf_singleton] at hx
        change x ∈ boundIn (Stmt.traceOf (StaticScope.enclose (s :: rest) act)) at hx
        rw [Draft.boundIn_enclose _ fun t ht => (hopened t ht).1, List.map_cons, List.cons_append,
          ← Draft.boundIn_enclose _ fun t ht => (hrest t ht).1] at hx
        exact hx
      rcases List.mem_cons.mp hinside with rfl | hx
      · rw [hhandle]
        exact hd.handle _ _ _ _
      · obtain ⟨y, hy, hx⟩ := Stmt.mem_boundIn_iff.mp hx
        exact hd.scope _ _ _ _ _ (shows_stmts hy (ih hrest y hy x hx))

end Dialect.ShowsLocals

/-- A piece without line ends stays whole when lines are broken. -/
theorem shows_breakLines {r : Rendering} {role : Role} {text : String}
    (hline : Text.lineParts text.toList = [text.toList]) (h : r.Shows (.text role text)) :
    Rendering.Shows (r.map Doc.breakLines) (.text role text) := by
  intro d hd
  cases r with
  | error e => cases hd
  | ok x =>
      cases hd
      refine List.mem_flatMap.mpr ⟨_, h x rfl, ?_⟩
      simp [hline, Doc.intersperse]

/-- The head of a method shows its parameters; in Kotlin those without line ends. -/
theorem shows_parameter_of_opening {s : Surroundings} {m : Method} {e : Executable}
    {provider : String} (hkind : m.kind = .parameterized e provider) {p : Parameter}
    (hp : p ∈ m.parameters)
    (hline : Text.lineParts (s.methodForms.dialect.identifier p.name).toList =
      [(s.methodForms.dialect.identifier p.name).toList]) :
    (s.methodForms.opening m).Shows
      (.text (.identifier p.name) (s.methodForms.dialect.identifier p.name)) := by
  revert hline
  unfold Surroundings.methodForms
  cases s.settings.language with
  | java =>
      intro _
      refine shows_left (shows_right ?_)
      rw [hkind]
      refine shows_right (shows_left (shows_right (shows_commas (List.mem_map_of_mem hp) ?_)))
      exact shows_right (shows_ok (List.mem_singleton_self _))
  | kotlin =>
      intro hline
      refine shows_left (shows_right ?_)
      rw [hkind]
      refine shows_left (shows_breakLines hline (shows_left (shows_right ?_)))
      refine shows_left (shows_right (shows_commas (List.mem_map_of_mem hp) ?_))
      exact shows_left (shows_left (shows_ok (List.mem_singleton_self _)))
  | javascript =>
      intro _
      change (JavaScript.opening m).Shows _
      rw [JavaScript.opening, hkind]
      exact shows_error _
  | python =>
      intro _
      have hparameter : ((Python.dialect s).reference p.name).Shows
          (.text (.identifier p.name) ((Python.dialect s).identifier p.name)) :=
        shows_ok (List.mem_singleton_self _)
      refine shows_left (shows_left (shows_right (shows_commas ?_ hparameter)))
      exact List.mem_append_right _ (List.mem_map_of_mem hp)
  | go =>
      intro _
      change (Go.opening (Go.dialect s) m).Shows _
      rw [Go.opening, hkind]
      exact shows_error _

namespace Surroundings

variable {s : Surroundings} {m : Method} {step : Step}

/-- A method shows what its head shows. -/
theorem shows_opening (hkind : ∀ k, m.kind ≠ .helper k)
    (h : (s.methodForms.opening m).Shows step) : (s.methodForms.method m).Shows step := by
  rcases s.method_cases m with ⟨k, hk, -⟩ | ⟨-, above, within, heq⟩
  · exact absurd hk (hkind k)
  · rw [heq]
    exact shows_left (shows_left (shows_right h))

/-- A method shows what its statements show. -/
theorem shows_body (hkind : ∀ k, m.kind ≠ .helper k)
    (h : (s.methodForms.dialect.stmts m.body).Shows step) :
    (s.methodForms.method m).Shows step := by
  rw [MethodForms.method_eq_whole hkind]
  revert h
  unfold methodForms
  cases s.settings.language with
  | python =>
      intro h
      refine shows_left (shows_right ?_)
      split
      · refine shows_left ?_
        rw [Dialect.content_blockOf]
        exact h
      · exact shows_right h
  | java | kotlin | javascript | go => exact fun h => shows_left (shows_right h)

end Surroundings

end Target

/-! ## Built methods -/

theorem forall_apart {P : Stmt → Prop} {before after : List Stmt} (hblank : P .blank)
    (hbefore : ∀ y ∈ before, P y) (hafter : ∀ y ∈ after, P y) : ∀ y ∈ apart before after, P y := by
  simp only [apart]
  split
  · exact hafter
  · exact List.forall_mem_append.mpr ⟨hbefore, List.forall_mem_cons.mpr ⟨hblank, hafter⟩⟩

/-- A method is built from evidence whose names have some bases. -/
inductive Method.BuiltFor (config : Config) : Method → List String → Prop
  | test {run : Execution} {e : Executable} {g g' : Generation} {m : Method}
    (hconfig : g.config = config) (h : run.toTest e g = .ok m g') :
    BuiltFor config m (run.allBases config e)
  | table {set : TestSet} {g g' : Generation} {t : ParameterizedTest} (hconfig : g.config = config)
    (h : set.toTable g = .ok t g') : BuiltFor config t.test (set.tableBases config)
  | provider {set : TestSet} {g g' : Generation} {t : ParameterizedTest}
    (hconfig : g.config = config) (h : set.toTable g = .ok t g') :
    BuiltFor config t.provider (set.providerBases config)

namespace Method.BuiltFor

variable {config : Config} {m : Method} {bases : List String}

/-- A built method has the names that are handed out for its bases, in some order. -/
theorem locals_perm (h : m.BuiltFor config bases) : m.locals.Perm (handedOut bases) := by
  cases h with
  | test hconfig h =>
      subst hconfig
      obtain ⟨body, d, name, names, hbody, rfl, -⟩ := Execution.eq_of_toTest_ok h
      obtain ⟨arrange, opened, act, -, -, -, -, hperm⟩ := Draft.exists_parts_of_bodyOfRun hbody
      exact hperm
  | table hconfig h =>
      subst hconfig
      exact .of_eq (TestSet.table_locals_eq h)
  | provider hconfig h =>
      subst hconfig
      exact .of_eq (TestSet.provider_locals_eq h)

/-- A built method shows its names as they are printed. -/
theorem shows_locals (h : m.BuiltFor config bases) (s : Target.Surroundings) {x : String}
    (hx : x ∈ m.locals)
    (hline : Text.lineParts (s.methodForms.dialect.identifier x).toList =
      [(s.methodForms.dialect.identifier x).toList]) :
    (s.methodForms.method m).Shows
      (.text (.identifier x) (s.methodForms.dialect.identifier x)) := by
  have hd := s.showsLocals
  have hbody : (∀ k, m.kind ≠ .helper k) → (∀ y ∈ m.body, s.methodForms.dialect.ShowsOwn y) →
      x ∈ boundIn (Stmt.traceOf m.body) → (s.methodForms.method m).Shows
        (.text (.identifier x) (s.methodForms.dialect.identifier x)) := by
    intro hkind hown hx
    obtain ⟨y, hy, hx⟩ := Stmt.mem_boundIn_iff.mp hx
    exact Target.Surroundings.shows_body hkind (Target.Dialect.shows_stmts hy (hown y hy x hx))
  cases h with
  | test hconfig h =>
      obtain ⟨body, d, name, names, hbuilt, rfl, -⟩ := Execution.eq_of_toTest_ok h
      obtain ⟨arrange, opened, act, rfl, harrange, hopened, hact, -⟩ :=
        Draft.exists_parts_of_bodyOfRun hbuilt
      refine hbody (fun k hk => by cases hk) ?_ hx
      refine forall_apart (fun x hx => by cases hx) (fun y hy => hd.rebuilds (harrange y hy)) ?_
      refine hd.enclose (fun t ht => ⟨(hopened t ht).1, ?_⟩) fun y hy => hd.built rfl (hact y hy)
      rw [s.identifier_eq]
      exact (hopened t ht).2 _
  | @table set g g' t hconfig h =>
      have htables : Config.HasTables { g.config with staticMocking := .off } :=
        TestSet.hasTables_of_toTable_ok h
      obtain ⟨_, _, _, testBody, _, _, _, _, -, htest, rfl, -⟩ := TestSet.eq_of_toTable_ok h
      rcases List.mem_append.mp hx with hx | hx
      · obtain ⟨p, hp, rfl⟩ := List.mem_map.mp hx
        exact Target.Surroundings.shows_opening (fun k hk => by cases hk)
          (Target.shows_parameter_of_opening rfl hp hline)
      · refine hbody (fun k hk => by cases hk) (fun y hy => ?_) hx
        exact hd.built rfl (Draft.tableBody_built htables htest y hy)
  | @provider set g g' t hconfig h =>
      have htables : Config.HasTables { g.config with staticMocking := .off } :=
        TestSet.hasTables_of_toTable_ok h
      obtain ⟨_, _, _, _, _, _, _, _, hprovider, -, rfl, -⟩ := TestSet.eq_of_toTable_ok h
      refine hbody (fun k hk => by cases hk) (fun y hy => ?_) hx
      exact hd.built rfl (Draft.providerBody_built htables hprovider y hy)

end Method.BuiltFor

/-- In a method that is built from evidence no name is printed like a reserved word.  All names are
printed differently exactly when the evidence asks for no reserved word beside the name that it is
printed as.  The text of the method shows each name as it is printed, if it has no line ends. -/
theorem printed_names_differ_iff {config : Config} {m : Method} {bases : List String}
    (h : m.BuiltFor config bases) {s : Target.Surroundings}
    (hlanguage : s.settings.language = config.language) :
    let written := s.methodForms.dialect.identifier
    (∀ x ∈ m.locals, written x ∉ config.language.reserved) ∧
      ((m.locals.map written).Nodup ↔
        ∀ word ∈ config.language.reserved, word ∈ bases → written word ∉ bases) ∧
      ∀ d, s.methodForms.method m = .ok d → ∀ x ∈ m.locals,
        Text.lineParts (written x).toList = [(written x).toList] →
        .text (.identifier x) (written x) ∈ d := by
  intro written
  have hwritten : written = config.language.printed := hlanguage ▸ s.identifier_eq
  refine ⟨fun x _ => ?_, ?_, fun d hd x hx hline => h.shows_locals s hx hline d hd⟩
  · rw [hwritten]
    exact config.language.printed_not_mem_reserved x
  · rw [hwritten]
    exact Language.nodup_printed_iff h.locals_perm

/-- A method with two parameters, one of which is named like the other one is printed. -/
def twoRecords : Executable :=
  ⟨⟨"demo", "Store"⟩, "put",
    [⟨"record", .array (.primitive .int)⟩, ⟨"record_", .array (.primitive .int)⟩], .void,
    .staticMethod⟩

/-- Two variables for two arrays are declared with one name. -/
theorem printed_names_differ_iff_twoRecords :
    let array (n : Int32) : Value := .array (.primitive .int) [.literal (.int n)]
    let run := Execution.ofArguments [array 1, array 2] .completed
    let s := Target.Surroundings.bare (.forLanguage .java)
    ∃ m g' d, run.toTest twoRecords (.new ⟨"demo", "Store"⟩ (.forLanguage .java)) = .ok m g' ∧
      s.methodForms.method m = .ok d ∧ m.locals = ["record", "record_"] ∧
      .text (.identifier "record") "record_" ∈ d ∧ .text (.identifier "record_") "record_" ∈ d ∧
      ¬(m.locals.map s.methodForms.dialect.identifier).Nodup := by
  intro array run s
  obtain ⟨m, g', d, htest, hd, hlocals⟩ : ∃ m g' d,
      run.toTest twoRecords (.new ⟨"demo", "Store"⟩ (.forLanguage .java)) = .ok m g' ∧
        s.methodForms.method m = .ok d ∧ m.locals = ["record", "record_"] :=
    ⟨_, _, _, rfl, rfl, rfl⟩
  have hbuilt : m.BuiltFor (.forLanguage .java) ["record", "record_"] := .test rfl htest
  obtain ⟨-, hiff, htext⟩ := printed_names_differ_iff hbuilt (s := s) rfl
  refine ⟨m, g', d, htest, hd, hlocals, ?_, ?_, ?_⟩
  · exact htext d hd "record" (by simp [hlocals]) (by decide)
  · exact htext d hd "record_" (by simp [hlocals]) (by decide)
  · intro hnodup
    exact hiff.mp hnodup "record" (by decide) (by decide) (by decide)

end TestWriter
