import TestWriter.Proofs.GoReferences

/-!
# Names that code shows

What built code mentions is not always written: a type is left out, or a language has another form.
Main statement: a dialect whose forms show the names that are wanted for what they mention, and what
their parts show, shows in every built statement the names that are wanted for what it mentions.
-/

namespace TestWriter

open Layout

namespace Target

open Rendering

variable {step : Step}

/-- A block shows a step in its statements, and in its expression if it has one alone. -/
def Block.Shows (b : Block) (step : Step) : Prop :=
  b.content.Shows step ∧ ∀ r ∈ b.sole, r.Shows step

/-- The parts of a stubbing show a step. -/
def StubForm.Shows (f : StubForm) (step : Step) : Prop :=
  (∃ r ∈ f.arguments, r.Shows step) ∨ f.returns.Shows step

/-- The forms of a dialect show the steps that are wanted for what they mention, and those that
their parts show. -/
structure Dialect.ShowsNames (wanted : Mention → Step → Prop) (d : Dialect) : Prop where
  nonFinite : ∀ step, ¬wanted .nonFinite step
  helper : ∀ h step, wanted (.helper h) step → step = .text (.helper h) (h.nameIn d.language)
  construct : ∀ owner rs step, wanted (.ofClass owner) step ∨ (∃ r ∈ rs, r.Shows step) →
    (d.construct owner rs).Shows step
  callOn : ∀ e r method rs step, r.Shows step ∨ (∃ r ∈ rs, r.Shows step) →
    (d.callOn e r method rs).Shows step
  callStatic : ∀ owner method rs step, wanted (.ofClass owner) step ∨ (∃ r ∈ rs, r.Shows step) →
    (d.callStatic owner method rs).Shows step
  callModule : ∀ module name rs step,
    wanted (.function module name) step ∨ (∃ r ∈ rs, r.Shows step) →
    (d.callModule module name rs).Shows step
  staticField : ∀ owner name step, wanted (.ofClass owner) step →
    (d.staticField owner name).Shows step
  arrayOf : ∀ t onLines rs step,
    (∃ x ∈ t.mentions, wanted x step) ∨ (∃ r ∈ rs, r.Shows step) →
    (d.arrayOf t onLines rs).Shows step
  equal : ∀ r e r' step, r.Shows step ∨ r'.Shows step → (d.equal r e r').Shows step
  cast : ∀ t r step, (∃ x ∈ t.mentions, wanted x step) ∨ r.Shows step → (d.cast t r).Shows step
  classOf : ∀ owner step, wanted (.ofClass owner) step → (d.classOf owner).Shows step
  mock : ∀ owner step, wanted (.mocking "mock") step ∨ wanted (.ofClass owner) step →
    (d.mock owner).Shows step
  declare : ∀ name t r step, (∃ x ∈ t.mentions, wanted x step) ∨ r.Shows step →
    (d.declare name t false (some r)).Shows step
  branch : ∀ r b b' step, b'.isEmpty = false →
    r.Shows step ∨ b.content.Shows step ∨ b'.content.Shows step → (d.branch r b b').Shows step
  stub : ∀ r f step, wanted (.mocking "when") step ∨ r.Shows step ∨ f.Shows step →
    (d.stub r f).Shows step
  mockedStatic : ∀ handle owner fs r step,
    (wanted .staticMocks step ∨ wanted (.mocking "mockStatic") step ∨
      wanted (.ofClass owner) step) ∨ (∃ f ∈ fs, StubForm.Shows f step) ∨ r.Shows step →
    (d.mockedStatic handle owner fs r).Shows step
  assertEquals : ∀ r r' delta deep step,
    wanted (.assertion "assertEquals") step ∨ r.Shows step ∨ r'.Shows step →
    (d.assertEquals r r' delta deep).Shows step
  assertTrue : ∀ r step, wanted (.assertion "assertTrue") step ∨ r.Shows step →
    (d.assertTrue r).Shows step
  assertNull : ∀ r step, wanted (.assertion "assertNull") step ∨ r.Shows step →
    (d.assertNull r).Shows step
  assertThrows : ∀ r b step,
    wanted (.assertion "assertThrows") step ∨ r.Shows step ∨ b.Shows step →
    (d.assertThrows r b).Shows step

namespace Dialect

variable {d : Dialect} {wanted : Mention → Step → Prop} {x : Mention}

/-- An expression alone in a block is shown by the block. -/
theorem shows_blockOf_eval {e : Expr} (h : (d.expr e).Shows step) :
    (d.blockOf [.eval e]).Shows step := by
  refine ⟨shows_left (shows_right h), fun r hr => ?_⟩
  cases hr
  exact h

theorem shows_callHelper {k : Helper} {rs : List Rendering}
    (h : step = .text (.helper k) (k.nameIn d.language) ∨ (∃ r ∈ rs, r.Shows step)) :
    (d.callHelper k rs).Shows step := by
  simp only [callHelper]
  split
  · rcases h with rfl | ⟨r, hr, hshows⟩
    · exact shows_left (shows_left (shows_left (shows_ok (List.mem_singleton_self _))))
    · exact shows_left (shows_right (shows_commas hr hshows))
  · exact shows_error _

/-- What is wanted for a mention in a list is wanted for the first, or the mention is another. -/
theorem wanted_or {Q : Prop} {y : Mention} {rest : List Mention} (hx : x ∈ y :: rest)
    (hwanted : wanted x step) (h : x ∈ rest → Q) : wanted y step ∨ Q := by
  rcases List.mem_cons.mp hx with rfl | hx
  · exact Or.inl hwanted
  · exact Or.inr (h hx)

namespace ShowsNames

variable (hd : d.ShowsNames wanted)

include hd

theorem atom {e : Expr} (he : e.IsAtom) (hx : x ∈ e.mentions) (hwanted : wanted x step) :
    (d.expr e).Shows step := by
  cases he with
  | literal l =>
      simp only [Expr.mentions] at hx
      split at hx
      · cases List.mem_singleton.mp hx
        exact absurd hwanted (hd.nonFinite step)
      · cases hx
  | ref name => cases hx
  | staticField owner name =>
      cases List.mem_singleton.mp hx
      exact hd.staticField owner name step hwanted

theorem atoms {es : List Expr} (hes : ∀ e ∈ es, e.IsAtom) (hx : x ∈ Expr.mentionsOf es)
    (hwanted : wanted x step) : ∃ r ∈ d.exprs es, r.Shows step := by
  obtain ⟨e, he, hx⟩ := Expr.mem_mentionsOf_iff.mp hx
  exact ⟨_, mem_exprs he, hd.atom (hes e he) hx hwanted⟩

theorem cell {e : Expr} (he : e.IsCell) (hx : x ∈ e.mentions) (hwanted : wanted x step) :
    (d.expr e).Shows step := by
  cases he with
  | atom he => exact hd.atom he hx hwanted
  | classOf owner =>
      cases List.mem_singleton.mp hx
      exact hd.classOf owner step hwanted

theorem row {e : Expr} (he : e.IsRow) (hx : x ∈ e.mentions) (hwanted : wanted x step) :
    (d.expr e).Shows step := by
  cases he with
  | mk hcells =>
      obtain ⟨c, hc, hx⟩ := Expr.mem_mentionsOf_iff.mp hx
      exact hd.arrayOf _ _ _ _ (Or.inr ⟨_, mem_exprs hc, hd.cell (hcells c hc) hx hwanted⟩)

/-- The call of an executable shows the names that are wanted for it. -/
theorem call {language : Language} {e : Executable} {call : Expr} (hcall : call.Calls language e)
    (hx : x ∈ call.mentions) (hwanted : wanted x step) : (d.expr call).Shows step := by
  cases hcall with
  | mk hreceiver harguments hgo =>
      simp only [Executable.call] at hx ⊢
      cases hkind : e.kind with
      | method =>
          simp only [hkind, Expr.mentions] at hx
          refine hd.callOn _ _ _ _ _ ((List.mem_append.mp hx).imp (fun hx => ?_) fun hx => ?_)
          · exact hd.atom hreceiver hx hwanted
          · exact hd.atoms harguments hx hwanted
      | staticMethod =>
          simp only [hkind, Expr.mentions] at hx
          refine hd.callStatic _ _ _ _ (wanted_or hx hwanted fun hx => ?_)
          exact hd.atoms harguments hx hwanted
      | function =>
          simp only [hkind, Expr.mentions] at hx
          refine hd.callModule _ _ _ _ (wanted_or hx hwanted fun hx => ?_)
          exact hd.atoms harguments hx hwanted
      | constructor =>
          simp only [hkind, Expr.mentions] at hx
          refine hd.construct _ _ _ (wanted_or hx hwanted fun hx => ?_)
          exact hd.atoms harguments hx hwanted

theorem allocation (language : Language) {owner : ClassName}
    (hx : x ∈ (Draft.allocation language owner).mentions) (hwanted : wanted x step) :
    (d.expr (Draft.allocation language owner)).Shows step := by
  cases language with
  | java | kotlin =>
      refine hd.cast _ _ _ ((List.mem_append.mp hx).imp (fun hx => ⟨x, hx, hwanted⟩) fun hx => ?_)
      refine shows_callHelper ((wanted_or hx hwanted fun hx => ?_).imp_left (hd.helper _ _))
      exact hd.atoms (List.forall_mem_singleton.mpr (.literal _)) hx hwanted
  | python =>
      refine hd.callStatic _ _ _ _ (wanted_or hx hwanted fun hx => ?_)
      cases List.mem_singleton.mp hx
      exact ⟨_, List.mem_singleton_self _, hd.classOf owner step hwanted⟩
  | javascript =>
      refine hd.callStatic _ _ _ _ (wanted_or hx hwanted fun hx => ?_)
      cases List.mem_singleton.mp hx
      exact ⟨_, List.mem_singleton_self _, hd.staticField owner _ step hwanted⟩
  | go =>
      cases List.mem_singleton.mp hx
      exact hd.construct owner _ _ (Or.inl hwanted)

/-- A variable is declared with the names that are wanted for its type and its value. -/
theorem declared (name : String) (t : DataType) {e : Expr}
    (he : x ∈ e.mentions → (d.expr e).Shows step) (hx : x ∈ t.mentions ++ e.mentions)
    (hwanted : wanted x step) : (d.stmt (.declare name t false (some e))).Shows step :=
  shows_right (hd.declare name t _ _
    ((List.mem_append.mp hx).imp (fun hx => ⟨x, hx, hwanted⟩) he))

theorem written (way : Draft.FieldWriting) {object value : Expr} (name : String)
    (hobject : object.IsAtom) (hvalue : value.IsAtom)
    (hx : x ∈ (way.statement object name value).mentions) (hwanted : wanted x step) :
    (d.stmt (way.statement object name value)).Shows step := by
  have harguments : ∀ e ∈ [object, .str name, value], e.IsAtom :=
    List.forall_mem_cons.mpr ⟨hobject, List.forall_mem_cons.mpr
      ⟨.literal _, List.forall_mem_singleton.mpr hvalue⟩⟩
  cases way with
  | assignment =>
      rcases List.mem_append.mp hx with hx | hx
      · refine shows_left (shows_left (shows_left (shows_right (shows_left (shows_left ?_)))))
        exact hd.atom hobject hx hwanted
      · exact shows_left (shows_right (hd.atom hvalue hx hwanted))
  | helper =>
      refine shows_left (shows_right (shows_callHelper ?_))
      exact (wanted_or hx hwanted fun hx => hd.atoms harguments hx hwanted).imp_left
        (hd.helper _ _)
  | setattr =>
      refine shows_left (shows_right (hd.callModule _ _ _ _ ?_))
      exact wanted_or hx hwanted fun hx => hd.atoms harguments hx hwanted

/-- A statement that rebuilds a value shows the names that are wanted for it. -/
theorem rebuilds {language : Language} {y : Stmt} (hy : y.Rebuilds language)
    (hx : x ∈ y.mentions) (hwanted : wanted x step) : (d.stmt y).Shows step := by
  cases hy with
  | @array values name element hvalues =>
      refine hd.declared name _ (fun hx => hd.arrayOf _ _ _ _ ?_) hx hwanted
      exact (List.mem_append.mp hx).imp (fun hx => ⟨x, hx, hwanted⟩)
        fun hx => hd.atoms hvalues hx hwanted
  | object name owner harguments hgo =>
      refine hd.declared name _ (fun hx => hd.construct _ _ _ ?_) hx hwanted
      exact wanted_or hx hwanted fun hx => hd.atoms harguments hx hwanted
  | allocated name owner =>
      exact hd.declared name _ (fun hx => hd.allocation language hx hwanted) hx hwanted
  | field name hway hobject hvalue => exact hd.written _ name hobject hvalue hx hwanted
  | mock name owner hmocks =>
      refine hd.declared name _ (fun hx => hd.mock owner _ ?_) hx hwanted
      refine wanted_or hx hwanted fun hx => ?_
      cases List.mem_singleton.mp hx
      exact hwanted
  | stub method hmocks hobject harguments hreturns =>
      refine shows_right (hd.stub _ _ _ (wanted_or hx hwanted fun hx => ?_))
      refine (List.mem_append.mp hx).imp (fun hx => hd.atom hobject hx hwanted) fun hx => ?_
      exact (List.mem_append.mp hx).imp (fun hx => hd.atoms harguments hx hwanted)
        fun hx => hd.atom hreturns hx hwanted

theorem stubForms {ss : List Stubbing} (hss : ∀ s ∈ ss, s.IsAtomic)
    (hx : x ∈ Stubbing.mentionsOf ss) (hwanted : wanted x step) :
    ∃ f ∈ d.stubForms ss, f.Shows step := by
  induction ss with
  | nil => cases hx
  | cons s rest ih =>
      obtain ⟨hs, hrest⟩ := List.forall_mem_cons.mp hss
      rcases List.mem_append.mp hx with hx | hx
      · refine ⟨_, List.mem_cons_self, ?_⟩
        cases hs with
        | mk method hreturns => exact Or.inr (hd.atom hreturns hx hwanted)
      · obtain ⟨f, hf, hshows⟩ := ih hrest hx
        exact ⟨f, List.mem_cons_of_mem _ hf, hshows⟩

/-- A built statement shows the names that are wanted for what it mentions. -/
theorem built {config : Config} {tested : Option Executable} {y : Stmt}
    (hy : y.Built config tested) (hx : x ∈ y.mentions) (hwanted : wanted x step) :
    (d.stmt y).Shows step := by
  induction hy with
  | rebuilds h => exact hd.rebuilds h hx hwanted
  | run he hcall => exact shows_left (shows_right (hd.call hcall hx hwanted))
  | result name he hcall =>
      exact hd.declared name _ (fun hx => hd.call hcall hx hwanted) hx hwanted
  | isNull hactual =>
      refine shows_right (hd.assertNull _ _ ?_)
      exact wanted_or hx hwanted fun hx => hd.atom hactual hx hwanted
  | isNaN hactual =>
      refine shows_right (hd.assertTrue _ _ ?_)
      refine wanted_or hx hwanted fun hx => ?_
      refine shows_left (shows_right (hd.equal _ _ _ _ ?_))
      exact (List.mem_append.mp hx).imp (fun hx => hd.atom hactual hx hwanted)
        fun hx => hd.atom hactual hx hwanted
  | deepEquals hlanguage hexpected hactual =>
      refine shows_right (hd.assertTrue _ _ ?_)
      refine wanted_or hx hwanted fun hx => shows_callHelper ?_
      refine (wanted_or hx hwanted fun hx => ?_).imp_left (hd.helper _ _)
      exact hd.atoms (List.forall_mem_cons.mpr
        ⟨hexpected, List.forall_mem_singleton.mpr hactual⟩) hx hwanted
  | equals deep hexpected hactual hdelta =>
      refine shows_right (hd.assertEquals _ _ _ _ _ ?_)
      refine wanted_or hx hwanted fun hx => ?_
      exact (List.mem_append.mp hx).imp (fun hx => hd.atom hexpected hx hwanted)
        fun hx => hd.atom hactual hx hwanted
  | @throws e call exception he hcall =>
      refine shows_right (hd.assertThrows _ _ _ ?_)
      refine wanted_or hx hwanted fun hx => ?_
      refine (List.mem_append.mp hx).imp (fun hx => hd.cell (.classOf _) hx hwanted) fun hx => ?_
      have hx' : x ∈ call.mentions ++ [] := hx
      rw [List.append_nil] at hx'
      exact shows_blockOf_eval (hd.call hcall hx' hwanted)
  | blank => cases hx
  | comment text => cases hx
  | comments lines => cases hx
  | mocked handle owner hmocks hstubbings hbody ih =>
      refine shows_right (hd.mockedStatic _ _ _ _ _ ?_)
      rcases List.mem_append.mp hx with hx | hx
      · refine (List.mem_append.mp hx).imp (fun hx => ?_) fun hx =>
          Or.inl (hd.stubForms hstubbings hx hwanted)
        simp only [List.mem_cons, List.not_mem_nil, or_false] at hx
        rcases hx with rfl | rfl | rfl
        · exact Or.inl hwanted
        · exact Or.inr (Or.inl hwanted)
        · exact Or.inr (Or.inr hwanted)
      · obtain ⟨s, hs, hx⟩ := Stmt.mem_mentionsOf_iff.mp hx
        exact Or.inr (Or.inr (shows_stmts hs (ih s hs hx)))
  | rows htables hrows =>
      refine shows_left (shows_right (hd.arrayOf _ _ _ _ (Or.inr ?_)))
      obtain ⟨row, hrow, hx⟩ := Expr.mem_mentionsOf_iff.mp hx
      exact ⟨_, mem_exprs hrow, hd.row (hrows row hrow) hx hwanted⟩
  | castEquals type htables hexpected hactual hdelta =>
      refine shows_right (hd.assertEquals _ _ _ _ _ ?_)
      refine wanted_or hx hwanted fun hx => ?_
      refine (List.mem_append.mp hx).imp (fun hx => hd.cast _ _ _ ?_)
        fun hx => hd.atom hactual hx hwanted
      exact (List.mem_append.mp hx).imp (fun hx => ⟨x, hx, hwanted⟩)
        fun hx => hd.atom hexpected hx hwanted
  | @branch e error call success htables herror hsuccess he hcall ih =>
      refine shows_right (hd.branch _ _ _ _ (isEmpty_blockOf _ _) ?_)
      rw [content_blockOf, content_blockOf]
      rcases List.mem_append.mp hx with hx | hx
      · refine (List.mem_append.mp hx).imp (fun hx => hd.equal _ _ _ _ ?_) fun hx => Or.inl ?_
        · exact (List.mem_append.mp hx).imp (fun hx => hd.atom herror hx hwanted)
            fun hx => hd.atom Expr.isAtom_null hx hwanted
        · obtain ⟨s, hs, hx⟩ := Stmt.mem_mentionsOf_iff.mp hx
          exact shows_stmts hs (ih s hs hx)
      · refine Or.inr (Or.inr (shows_stmts (List.mem_singleton_self _) (shows_right ?_)))
        refine hd.assertThrows _ _ _ ?_
        have hx' : x ∈ .assertion "assertThrows" ::
            (error.mentions ++ (call.mentions ++ [])) ++ [] := hx
        rw [List.append_nil, List.append_nil] at hx'
        refine wanted_or hx' hwanted fun hx => ?_
        exact (List.mem_append.mp hx).imp (fun hx => hd.atom herror hx hwanted)
          fun hx => shows_blockOf_eval (hd.call hcall hx hwanted)

end ShowsNames

end Dialect

/-! ## Java and JavaScript -/

theorem shows_linesWithCommas {r : Rendering} {rs : List Rendering} (hr : r ∈ rs)
    (h : r.Shows step) : (linesWithCommas rs).Shows step := by
  fun_induction linesWithCommas rs with
  | case1 => cases hr
  | case2 first => exact List.mem_singleton.mp hr ▸ shows_left h
  | case3 first rest hrest ih =>
      rcases List.mem_cons.mp hr with rfl | hr
      · exact shows_left (shows_left (shows_left h))
      · exact shows_right (ih hr)

theorem shows_elements (onLines : Bool) {rs : List Rendering} (h : ∃ r ∈ rs, r.Shows step) :
    (elements onLines rs).Shows step := by
  obtain ⟨r, hr, hshows⟩ := h
  cases onLines with
  | false => exact shows_commas hr hshows
  | true => exact shows_right (shows_nest (shows_linesWithCommas hr hshows))

theorem shows_bracedBranch {write : Block → Rendering} {lead : Rendering} {b b' : Block}
    (hwrite : ∀ b : Block, b.content.Shows step → (write b).Shows step) (hb' : b'.isEmpty = false)
    (h : lead.Shows step ∨ b.content.Shows step ∨ b'.content.Shows step) :
    (bracedBranch write lead b b').Shows step := by
  simp only [bracedBranch, hb', Bool.false_eq_true, if_false]
  rcases h with h | h | h
  · exact shows_left (shows_left (shows_left h))
  · exact shows_left (shows_left (shows_right (hwrite b h)))
  · exact shows_left (shows_right (shows_right (hwrite b' h)))

namespace Java

variable {s : Surroundings}

/-- The step by which Java writes what a mention names. -/
def step? (s : Surroundings) : Mention → Option Step
  | .ofClass c | .typeClass c | .function c _ =>
    if c.isGlobal then none else some (.text (.ofClass c) (s.className "java.lang" c))
  | .helper h => some (.text (.helper h) (h.nameIn .java))
  | .assertion name =>
    some (.text (.member (s.settings.framework.assertionsClass?.getD "") name) name)
  | .mocking name => some (.text (.member MockLibrary.mockito.facade name) name)
  | .staticMocks =>
    some (.text (.ofClass ⟨"org.mockito", "MockedStatic"⟩)
      (s.className "java.lang" ⟨"org.mockito", "MockedStatic"⟩))
  | .nonFinite => none

/-- What is written for a class. -/
theorem eq_of_step?_ofClass {c : ClassName} (h : step? s (.ofClass c) = some step) :
    c.isGlobal = false ∧ step = .text (.ofClass c) (s.className "java.lang" c) := by
  simp only [step?] at h
  split at h
  · cases h
  · next hglobal =>
    cases h
    exact ⟨Bool.eq_false_iff.mpr hglobal, rfl⟩

theorem shows_className {c : ClassName} (h : step? s (.ofClass c) = some step) :
    Rendering.Shows (.ok (className s c)) step := by
  rw [(eq_of_step?_ofClass h).2]
  exact shows_ok (List.mem_singleton_self _)

theorem shows_typeName {t : DataType} (h : ∃ x ∈ t.mentions, step? s x = some step) :
    Rendering.Shows (.ok (typeName s t)) step := by
  obtain ⟨x, hx, hstep⟩ := h
  refine shows_ok ?_
  induction t with
  | ofClass c =>
      cases List.mem_singleton.mp hx
      have hstep' : step? s (.ofClass c) = some step := hstep
      rw [(eq_of_step?_ofClass hstep').2]
      exact List.mem_singleton_self _
  | array element ih => exact List.mem_append_left _ (ih hx)
  | _ => cases hx

theorem shows_assertion {name : String} (h : step? s (.assertion name) = some step) :
    (assertion s name).Shows step := by
  cases h
  exact shows_ok (List.mem_singleton_self _)

theorem shows_mockMember {name : String} (h : step? s (.mocking name) = some step) :
    (mockMember name).Shows step := by
  cases h
  exact shows_ok (List.mem_singleton_self _)

theorem shows_equalityArguments {r r' : Rendering} (h : r.Shows step ∨ r'.Shows step) :
    (equalityArguments s r r').Shows step := by
  simp only [equalityArguments]
  split
  · exact h.elim shows_right fun h => shows_left (shows_left h)
  · exact h.elim (fun h => shows_left (shows_left h)) shows_right

theorem shows_lambda (names : Rendering) (arrow : String) {b : Block} (h : b.Shows step) :
    (lambda names arrow b).Shows step := by
  refine shows_right ?_
  cases hsole : b.sole with
  | some e => exact h.2 e hsole
  | none => exact shows_left (shows_right (shows_nest h.1))

theorem shows_call (method : String) {rs : List Rendering} (h : ∃ r ∈ rs, r.Shows step) :
    (call method rs).Shows step := by
  obtain ⟨r, hr, hshows⟩ := h
  exact shows_left (shows_right (shows_commas hr hshows))

/-- A call of a static method shows its class, if that has a package, and its arguments. -/
theorem shows_callStatic (method : String) {owner : ClassName} {rs : List Rendering}
    (h : step? s (.ofClass owner) = some step ∨ ∃ r ∈ rs, r.Shows step) :
    (callStatic s owner method rs).Shows step := by
  unfold callStatic
  split
  · next hglobal =>
    rcases h with hclass | ⟨r, hr, hshows⟩
    · rw [(eq_of_step?_ofClass hclass).1] at hglobal
      cases hglobal
    · exact shows_left (shows_right (shows_commas hr hshows))
  · exact h.elim (fun h => shows_left (shows_left (shows_className h)))
      fun h => shows_right (shows_call method h)

/-- Java shows the names of everything that built code mentions. -/
theorem showsNames (s : Surroundings) :
    (dialect s).ShowsNames fun x step => step? s x = some step where
  nonFinite step := nofun
  helper h step hstep := (Option.some_inj.mp hstep).symm
  construct owner rs step h := by
    refine shows_left (h.elim (fun h => shows_left (shows_left (shows_right ?_))) ?_)
    · exact shows_className h
    · exact fun ⟨r, hr, hshows⟩ => shows_right (shows_commas hr hshows)
  callOn e r method rs step h := by
    refine h.elim (fun h => shows_left (shows_left ?_)) fun h => shows_right (shows_call method h)
    split
    · exact shows_left (shows_right h)
    · exact h
  callStatic owner method rs step h := shows_callStatic method h
  callModule owner method rs step h := shows_callStatic method h
  staticField owner name step h := shows_left (shows_className h)
  arrayOf t onLines rs step h := by
    refine shows_left (h.elim (fun h => ?_) fun h => shows_right (shows_elements onLines h))
    exact shows_left (shows_left (shows_right (shows_typeName h)))
  equal r e r' step h := h.elim (fun h => shows_left (shows_left h)) shows_right
  cast t r step h :=
    h.elim (fun h => shows_left (shows_left (shows_right (shows_typeName h)))) shows_right
  classOf owner step h := shows_left (shows_className h)
  mock owner step h := by
    refine shows_left (h.elim (fun h => shows_left (shows_left ?_)) fun h => shows_right ?_)
    · exact shows_mockMember h
    · exact shows_className h
  declare name t r step h := by
    refine shows_left (h.elim (fun h => ?_) fun h => shows_right (shows_right h))
    exact shows_left (shows_left (shows_left (shows_typeName h)))
  branch r b b' step hb' h := by
    refine shows_bracedBranch (fun b h => shows_nest h) hb' (h.imp_left fun h => ?_)
    exact shows_left (shows_right h)
  stub r f step h := by
    rcases h with h | h | h | h
    · iterate 8 apply shows_left
      exact shows_mockMember h
    · iterate 6 apply shows_left
      exact shows_right h
    · iterate 4 apply shows_left
      exact shows_right (shows_call f.method h)
    · iterate 2 apply shows_left
      exact shows_right h
  mockedStatic handle owner fs r step h := by
    rcases h with (h | h | h) | ⟨f, hf, h⟩ | h
    · iterate 11 apply shows_left
      exact shows_right (shows_className h)
    · iterate 5 apply shows_left
      exact shows_right (shows_mockMember h)
    · iterate 9 apply shows_left
      exact shows_right (shows_className h)
    · refine shows_left (shows_right (shows_nest (shows_left ?_)))
      refine shows_concat (List.mem_map_of_mem hf) ?_
      rcases h with h | h
      · iterate 4 apply shows_left
        exact shows_right (shows_call f.method h)
      · iterate 2 apply shows_left
        exact shows_right h
    · exact shows_left (shows_right (shows_nest (shows_right h)))
  assertEquals r r' delta deep step h := by
    rcases h with h | h
    · iterate 5 apply shows_left
      exact shows_assertion h
    · iterate 3 apply shows_left
      exact shows_right (shows_equalityArguments h)
  assertTrue r step h := by
    rcases h with h | h
    · iterate 4 apply shows_left
      exact shows_assertion h
    · exact shows_left (shows_left (shows_right h))
  assertNull r step h := by
    rcases h with h | h
    · iterate 4 apply shows_left
      exact shows_assertion h
    · exact shows_left (shows_left (shows_right h))
  assertThrows r b step h := by
    rcases h with h | h | h
    · iterate 6 apply shows_left
      exact shows_assertion h
    · iterate 4 apply shows_left
      exact shows_right h
    · iterate 2 apply shows_left
      exact shows_right (shows_lambda _ _ h)

end Java

namespace JavaScript

/-- The step by which JavaScript writes a member of a module that a mention names. -/
def step? : Mention → Option Step
  | .ofClass c => if c.isGlobal then none else some (.text (.ofClass c) c.name)
  | .function module name =>
    if module.isGlobal then none else some (.text (.function module name) name)
  | _ => none

theorem shows_className {c : ClassName} {step : Step} (h : step? (.ofClass c) = some step) :
    Rendering.Shows (.ok (className c)) step := by
  simp only [step?] at h
  split at h
  · cases h
  · cases h
    exact shows_ok (List.mem_singleton_self _)

theorem shows_call (method : String) {rs : List Rendering} {step : Step}
    (h : ∃ r ∈ rs, r.Shows step) : (call method rs).Shows step :=
  Java.shows_call method h

/-- The types of a script ask for no names. -/
theorem not_wanted_of_type (t : DataType) (step : Step) :
    ¬∃ x ∈ t.mentions, step? x = some step := by
  rintro ⟨x, hx, hstep⟩
  induction t with
  | ofClass c =>
      cases List.mem_singleton.mp hx
      cases hstep
  | array element ih => exact ih hx
  | _ => cases hx

/-- JavaScript shows the names of the members of modules that built code mentions. -/
theorem showsNames : dialect.ShowsNames fun x step => step? x = some step where
  nonFinite step := nofun
  helper h step := nofun
  construct owner rs step h := by
    refine shows_left (h.elim (fun h => shows_left (shows_left (shows_right ?_))) ?_)
    · exact shows_className h
    · exact fun ⟨r, hr, hshows⟩ => shows_right (shows_commas hr hshows)
  callOn e r method rs step h := by
    refine h.elim (fun h => shows_left (shows_left ?_)) fun h => shows_right (shows_call method h)
    split
    · exact shows_left (shows_right h)
    · exact h
  callStatic owner method rs step h :=
    h.elim (fun h => shows_left (shows_left (shows_className h)))
      fun h => shows_right (shows_call method h)
  callModule module name rs step h := by
    rcases h with h | ⟨r, hr, hshows⟩
    · simp only [step?] at h
      split at h
      · cases h
      · cases h
        exact shows_left (shows_left (shows_left (shows_ok (List.mem_singleton_self _))))
    · exact shows_left (shows_right (shows_commas hr hshows))
  staticField owner name step h := shows_left (shows_className h)
  arrayOf t onLines rs step h :=
    shows_left (shows_right (shows_elements onLines (h.resolve_left (not_wanted_of_type t step))))
  equal r e r' step h := h.elim (fun h => shows_left (shows_left h)) shows_right
  cast t r step h := h.resolve_left (not_wanted_of_type t step)
  classOf owner step h := shows_className h
  mock owner step h := shows_error _
  declare name t r step h :=
    shows_left (shows_right (h.resolve_left (not_wanted_of_type t step)))
  branch r b b' step hb' h := by
    refine shows_bracedBranch (fun b h => shows_nest h) hb' (h.imp_left fun h => ?_)
    exact shows_left (shows_right h)
  stub r f step h := shows_error _
  mockedStatic handle owner fs r step h := shows_error _
  assertEquals r r' delta deep step h := by
    have h : r.Shows step ∨ r'.Shows step := h.resolve_left nofun
    cases delta with
    | some l =>
        rcases h with h | h
        · iterate 4 apply shows_left
          exact shows_right h
        · iterate 6 apply shows_left
          exact shows_right h
    | none =>
        rcases h with h | h
        · iterate 2 apply shows_left
          exact shows_right h
        · iterate 4 apply shows_left
          exact shows_right h
  assertTrue r step h := shows_left (shows_left (shows_right (h.resolve_left nofun)))
  assertNull r step h := shows_left (shows_left (shows_right (h.resolve_left nofun)))
  assertThrows r b step h := by
    rcases h.resolve_left nofun with h | h
    · iterate 2 apply shows_left
      exact shows_right h
    · iterate 4 apply shows_left
      exact shows_right (shows_nest h.1)

end JavaScript

end Target

end TestWriter
