import TestWriter.Proofs.Pieces
import TestWriter.Suite.Mention

/-!
# Pieces of code

A dialect writes code, and the imports of a file are collected from what the code mentions: two
walks over the same trees.  Main statement: a dialect whose forms meet a demand when what they name
is served meets it in all code whose mentions are served, so a form that one of the walks visits and
the other does not would show up here.
-/

namespace TestWriter

/-! ## Literals outside of expressions -/

mutual

/-- The literals that an expression writes without mentioning them: labels of switches, and
tolerances. -/
def Expr.bareLiterals : Expr → List Literal
  | .literal _ => []
  | .ref _ => []
  | .construct _ arguments => Expr.bareLiteralsOf arguments
  | .callOn receiver _ arguments => receiver.bareLiterals ++ Expr.bareLiteralsOf arguments
  | .callStatic _ _ arguments => Expr.bareLiteralsOf arguments
  | .callModule _ _ arguments => Expr.bareLiteralsOf arguments
  | .callHelper _ arguments => Expr.bareLiteralsOf arguments
  | .field target _ => target.bareLiterals
  | .staticField _ _ => []
  | .element array index => array.bareLiterals ++ index.bareLiterals
  | .allocate _ _ => []
  | .arrayOf _ values => Expr.bareLiteralsOf values
  | .lambda _ body => Stmt.bareLiteralsOf body
  | .equal left right => left.bareLiterals ++ right.bareLiterals
  | .logical _ left right => left.bareLiterals ++ right.bareLiterals
  | .not operand => operand.bareLiterals
  | .cast _ operand => operand.bareLiterals
  | .notNull operand => operand.bareLiterals
  | .classOf _ => []
  | .length operand => operand.bareLiterals
  | .mock _ => []

/-- The bare literals of some expressions. -/
def Expr.bareLiteralsOf : List Expr → List Literal
  | [] => []
  | e :: rest => e.bareLiterals ++ Expr.bareLiteralsOf rest

/-- The literals that a statement writes without mentioning them. -/
def Stmt.bareLiterals : Stmt → List Literal
  | .declare _ _ _ none => []
  | .declare _ _ _ (some e) => e.bareLiterals
  | .assign target value => target.bareLiterals ++ value.bareLiterals
  | .eval e => e.bareLiterals
  | .ret none => []
  | .ret (some e) => e.bareLiterals
  | .branch condition thenBody elseBody =>
    condition.bareLiterals ++ Stmt.bareLiteralsOf thenBody ++ Stmt.bareLiteralsOf elseBody
  | .switch value cases default =>
    value.bareLiterals ++ SwitchCase.bareLiteralsOf cases ++ Stmt.bareLiteralsOf default
  | .throw value => value.bareLiterals
  | .mockedStatic _ _ stubbings body =>
    Stubbing.bareLiteralsOf stubbings ++ Stmt.bareLiteralsOf body
  | .stub mock stubbing => mock.bareLiterals ++ stubbing.bareLiterals
  | .assertEquals expected actual delta _ =>
    delta.toList ++ expected.bareLiterals ++ actual.bareLiterals
  | .assertTrue condition => condition.bareLiterals
  | .assertNull value => value.bareLiterals
  | .assertThrows exception body => exception.bareLiterals ++ Stmt.bareLiteralsOf body
  | .fail _ => []
  | .comment _ => []
  | .comments _ => []
  | .blank => []

/-- The bare literals of some statements. -/
def Stmt.bareLiteralsOf : List Stmt → List Literal
  | [] => []
  | s :: rest => s.bareLiterals ++ Stmt.bareLiteralsOf rest

/-- The bare literals of a stubbed call. -/
def Stubbing.bareLiterals : Stubbing → List Literal
  | .mk _ arguments returns => Expr.bareLiteralsOf arguments ++ returns.bareLiterals

/-- The bare literals of some stubbed calls. -/
def Stubbing.bareLiteralsOf : List Stubbing → List Literal
  | [] => []
  | s :: rest => s.bareLiterals ++ Stubbing.bareLiteralsOf rest

/-- The labels of the cases of a switch, and the bare literals of their statements. -/
def SwitchCase.bareLiteralsOf : List SwitchCase → List Literal
  | [] => []
  | .mk label body :: rest =>
    label :: Stmt.bareLiteralsOf body ++ SwitchCase.bareLiteralsOf rest

end

namespace Target

open Layout Rendering

/-! ## Dialects that meet a demand -/

/-- The forms of a dialect meet a demand when their parts do and what they name is served. -/
structure Dialect.Obeys (D : Demand) (served : Mention → Prop) (d : Dialect) : Prop where
  literal : ∀ l, (l.isNonFinite = true → served .nonFinite) → Doc.Obeys D (d.literal l)
  comment : ∀ text, Doc.Obeys D (d.comment text)
  comments : ∀ lines, Doc.Obeys D (d.comments lines)
  helper : ∀ h, served (.helper h) → D.holds (.helper h) (h.nameIn d.language)
  construct : ∀ owner rs, served (.ofClass owner) → (∀ r ∈ rs, Rendering.Obeys D r) →
    (d.construct owner rs).Obeys D
  callOn : ∀ receiver r method rs, r.Obeys D → (∀ r ∈ rs, Rendering.Obeys D r) →
    (d.callOn receiver r method rs).Obeys D
  callStatic : ∀ owner method rs, served (.ofClass owner) → (∀ r ∈ rs, Rendering.Obeys D r) →
    (d.callStatic owner method rs).Obeys D
  callModule : ∀ module method rs, served (.function module method) →
    (∀ r ∈ rs, Rendering.Obeys D r) → (d.callModule module method rs).Obeys D
  staticField : ∀ owner name, served (.ofClass owner) → (d.staticField owner name).Obeys D
  allocate : ∀ element size, (∀ m ∈ element.mentions, served m) →
    (d.allocate element size).Obeys D
  arrayOf : ∀ element onLines rs, (∀ m ∈ element.mentions, served m) →
    (∀ r ∈ rs, Rendering.Obeys D r) → (d.arrayOf element onLines rs).Obeys D
  lambda : ∀ ps b, (∀ m ∈ parameterMentions ps, served m) → Block.Obeys D b →
    (d.lambda ps b).Obeys D
  equal : ∀ r e r', r.Obeys D → r'.Obeys D → (d.equal r e r').Obeys D
  cast : ∀ type r, (∀ m ∈ type.mentions, served m) → r.Obeys D → (d.cast type r).Obeys D
  notNull : ∀ r, r.Obeys D → (d.notNull r).Obeys D
  classOf : ∀ owner, served (.ofClass owner) → (d.classOf owner).Obeys D
  length : ∀ r, r.Obeys D → (d.length r).Obeys D
  mock : ∀ owner, served (.mocking "mock") → served (.ofClass owner) → (d.mock owner).Obeys D
  declare : ∀ name type isMutable initial, (∀ m ∈ type.mentions, served m) →
    (∀ r ∈ initial, Rendering.Obeys D r) → (d.declare name type isMutable initial).Obeys D
  branch : ∀ r b b', r.Obeys D → b.Obeys D → b'.Obeys D → (d.branch r b b').Obeys D
  switch : ∀ r cases b, r.Obeys D →
    (∀ c ∈ cases, Doc.Obeys D (d.literal c.1) ∧ Block.Obeys D c.2) → b.Obeys D →
    (d.switch r cases b).Obeys D
  throw : ∀ r, r.Obeys D → (d.throw r).Obeys D
  mockedStatic : ∀ handle owner forms r, served .staticMocks → served (.mocking "mockStatic") →
    served (.ofClass owner) → (∀ f ∈ forms, StubForm.Obeys D f) → r.Obeys D →
    (d.mockedStatic handle owner forms r).Obeys D
  stub : ∀ r form, served (.mocking "when") → r.Obeys D → form.Obeys D → (d.stub r form).Obeys D
  assertEquals : ∀ r r' delta deep, served (.assertion "assertEquals") → r.Obeys D →
    r'.Obeys D → (∀ l ∈ delta, Doc.Obeys D (d.literal l)) →
    (d.assertEquals r r' delta deep).Obeys D
  assertTrue : ∀ r, served (.assertion "assertTrue") → r.Obeys D → (d.assertTrue r).Obeys D
  assertNull : ∀ r, served (.assertion "assertNull") → r.Obeys D → (d.assertNull r).Obeys D
  assertThrows : ∀ r b, served (.assertion "assertThrows") → r.Obeys D → b.Obeys D →
    (d.assertThrows r b).Obeys D
  fail : ∀ message, served (.assertion "fail") → (d.fail message).Obeys D

namespace Dialect

variable {D : Demand} {served : Mention → Prop} {d : Dialect}

theorem obeys_comment (hremarks : D.TakesRemarks d.language)
    (hmark : d.words.lineComment = d.language.lineComment) (text : String) :
    Doc.Obeys D (d.comment text) := by
  simp only [comment]
  split
  · exact Doc.obeys_cons (Doc.obeys_plain _) Doc.obeys_newline
  · exact hremarks (.marked _ text) (Or.inl hmark)

@[simp] theorem obeys_finish (d : Dialect) : d.finish.Obeys D := obeys_line _

@[simp] theorem obeys_reference (d : Dialect) (name : String) : (d.reference name).Obeys D :=
  obeys_identifier _ _

theorem obeys_callHelper {h : Helper} {rs : List Rendering}
    (hname : D.holds (.helper h) (h.nameIn d.language)) (hrs : ∀ r ∈ rs, r.Obeys D) :
    (d.callHelper h rs).Obeys D := by
  refine obeys_ite ?_ (obeys_refuse _ _)
  exact obeys_append (obeys_append (obeys_append (obeys_piece hname) (obeys_say _))
    (obeys_commas hrs)) (obeys_say _)

mutual

/-- An expression meets a demand when what it mentions is served. -/
theorem obeys_expr (hd : d.Obeys D served) : ∀ e : Expr, (∀ m ∈ e.mentions, served m) →
    (∀ l ∈ e.bareLiterals, Doc.Obeys D (d.literal l)) → (d.expr e).Obeys D
  | .literal l, h, _ => by
      refine obeys_ok (hd.literal l fun hl => h _ ?_)
      rw [Expr.mentions, if_pos hl]
      exact List.mem_singleton_self _
  | .ref name, _, _ => obeys_reference d name
  | .construct owner arguments, h, hl => by
      simp only [Expr.mentions, List.forall_mem_cons] at h
      exact hd.construct owner _ h.1 (obeys_exprs hd arguments h.2 hl)
  | .callOn receiver method arguments, h, hl => by
      simp only [Expr.mentions, Expr.bareLiterals, List.forall_mem_append] at h hl
      exact hd.callOn receiver _ method _ (obeys_expr hd receiver h.1 hl.1)
        (obeys_exprs hd arguments h.2 hl.2)
  | .callStatic owner method arguments, h, hl => by
      simp only [Expr.mentions, List.forall_mem_cons] at h
      exact hd.callStatic owner method _ h.1 (obeys_exprs hd arguments h.2 hl)
  | .callModule module method arguments, h, hl => by
      simp only [Expr.mentions, List.forall_mem_cons] at h
      exact hd.callModule module method _ h.1 (obeys_exprs hd arguments h.2 hl)
  | .callHelper helper arguments, h, hl => by
      simp only [Expr.mentions, List.forall_mem_cons] at h
      exact obeys_callHelper (hd.helper helper h.1) (obeys_exprs hd arguments h.2 hl)
  | .field target name, h, hl =>
      obeys_append (obeys_append (obeys_expr hd target h hl) (obeys_say _)) (obeys_say _)
  | .staticField owner name, h, _ => hd.staticField owner name (h _ (List.mem_singleton_self _))
  | .element array index, h, hl => by
      simp only [Expr.mentions, Expr.bareLiterals, List.forall_mem_append] at h hl
      exact obeys_append (obeys_append (obeys_append (obeys_expr hd array h.1 hl.1) (obeys_say _))
        (obeys_expr hd index h.2 hl.2)) (obeys_say _)
  | .allocate element size, h, _ => hd.allocate element size h
  | .arrayOf element values, h, hl => by
      simp only [Expr.mentions, List.forall_mem_append] at h
      exact hd.arrayOf element _ _ h.1 (obeys_exprs hd values h.2 hl)
  | .lambda ps body, h, hl => by
      simp only [Expr.mentions, List.forall_mem_append] at h
      exact hd.lambda ps _ h.1 (obeys_blockOf hd body h.2 hl)
  | .equal left right, h, hl => by
      simp only [Expr.mentions, Expr.bareLiterals, List.forall_mem_append] at h hl
      exact hd.equal _ right _ (obeys_expr hd left h.1 hl.1) (obeys_expr hd right h.2 hl.2)
  | .logical op left right, h, hl => by
      simp only [Expr.mentions, Expr.bareLiterals, List.forall_mem_append] at h hl
      exact obeys_append (obeys_append (obeys_append (obeys_append (obeys_say _)
        (obeys_expr hd left h.1 hl.1)) (obeys_say _)) (obeys_expr hd right h.2 hl.2)) (obeys_say _)
  | .not operand, h, hl =>
      obeys_append (obeys_append (obeys_append (obeys_say _) (obeys_say _))
        (obeys_expr hd operand h hl)) (obeys_say _)
  | .cast type operand, h, hl => by
      simp only [Expr.mentions, List.forall_mem_append] at h
      exact hd.cast type _ h.1 (obeys_expr hd operand h.2 hl)
  | .notNull operand, h, hl => hd.notNull _ (obeys_expr hd operand h hl)
  | .classOf owner, h, _ => hd.classOf owner (h _ (List.mem_singleton_self _))
  | .length operand, h, hl => hd.length _ (obeys_expr hd operand h hl)
  | .mock owner, h, _ => by
      simp only [Expr.mentions, List.forall_mem_cons] at h
      exact hd.mock owner h.1 h.2.1

theorem obeys_exprs (hd : d.Obeys D served) : ∀ es : List Expr,
    (∀ m ∈ Expr.mentionsOf es, served m) →
    (∀ l ∈ Expr.bareLiteralsOf es, Doc.Obeys D (d.literal l)) → ∀ r ∈ d.exprs es, r.Obeys D
  | [], _, _ => fun r hr => absurd hr List.not_mem_nil
  | e :: rest, h, hl => by
      simp only [Expr.mentionsOf, Expr.bareLiteralsOf, List.forall_mem_append] at h hl
      simp only [exprs, List.forall_mem_cons]
      exact ⟨obeys_expr hd e h.1 hl.1, obeys_exprs hd rest h.2 hl.2⟩

/-- A statement meets a demand when what it mentions is served. -/
theorem obeys_stmt (hd : d.Obeys D served) : ∀ s : Stmt, (∀ m ∈ s.mentions, served m) →
    (∀ l ∈ s.bareLiterals, Doc.Obeys D (d.literal l)) → (d.stmt s).Obeys D
  | .declare name type isMutable none, h, _ =>
      obeys_append obeys_freshLine (hd.declare name type isMutable none h (by simp))
  | .declare name type isMutable (some e), h, hl => by
      simp only [Stmt.mentions, List.forall_mem_append] at h
      have he := obeys_expr hd e h.2 hl
      refine obeys_append obeys_freshLine (hd.declare name type isMutable _ h.1 ?_)
      simpa [optionalExpr] using he
  | .assign target value, h, hl => by
      simp only [Stmt.mentions, Stmt.bareLiterals, List.forall_mem_append] at h hl
      have hvalue := obeys_expr hd value h.2 hl.2
      exact obeys_append (obeys_append (obeys_append (obeys_append obeys_freshLine
        (obeys_expr hd target h.1 hl.1)) (obeys_say _)) hvalue) (obeys_finish d)
  | .eval e, h, hl =>
      obeys_append (obeys_append obeys_freshLine (obeys_expr hd e h hl)) (obeys_finish d)
  | .ret none, _, _ =>
      obeys_append (obeys_append obeys_freshLine (obeys_say _)) (obeys_finish d)
  | .ret (some e), h, hl =>
      obeys_append (obeys_append (obeys_append (obeys_append obeys_freshLine (obeys_say _))
        (obeys_say _)) (obeys_expr hd e h hl)) (obeys_finish d)
  | .branch condition thenBody elseBody, h, hl => by
      simp only [Stmt.mentions, Stmt.bareLiterals, List.forall_mem_append] at h hl
      exact obeys_append obeys_freshLine (hd.branch _ _ _ (obeys_expr hd condition h.1.1 hl.1.1)
        (obeys_blockOf hd thenBody h.1.2 hl.1.2) (obeys_blockOf hd elseBody h.2 hl.2))
  | .switch value labelled fallback, h, hl => by
      simp only [Stmt.mentions, Stmt.bareLiterals, List.forall_mem_append] at h hl
      exact obeys_append obeys_freshLine (hd.switch _ _ _ (obeys_expr hd value h.1.1 hl.1.1)
        (obeys_cases hd labelled h.1.2 hl.1.2) (obeys_blockOf hd fallback h.2 hl.2))
  | .throw value, h, hl =>
      obeys_append obeys_freshLine (hd.throw _ (obeys_expr hd value h hl))
  | .mockedStatic handle owner stubbings body, h, hl => by
      simp only [Stmt.mentions, Stmt.bareLiterals, List.forall_mem_append, List.forall_mem_cons]
        at h hl
      obtain ⟨⟨⟨hstatic, hmocking, howner, -⟩, hstubbings⟩, hbody⟩ := h
      exact obeys_append obeys_freshLine (hd.mockedStatic handle owner _ _ hstatic hmocking howner
        (obeys_stubForms hd stubbings hstubbings hl.1) (obeys_stmts hd body hbody hl.2))
  | .stub mock stubbing, h, hl => by
      simp only [Stmt.mentions, Stmt.bareLiterals, List.forall_mem_append, List.forall_mem_cons]
        at h hl
      exact obeys_append obeys_freshLine (hd.stub _ _ h.1 (obeys_expr hd mock h.2.1 hl.1)
        (obeys_stubForm hd stubbing h.2.2 hl.2))
  | .assertEquals expected actual delta deep, h, hl => by
      simp only [Stmt.mentions, Stmt.bareLiterals, List.forall_mem_append, List.forall_mem_cons]
        at h hl
      exact obeys_append obeys_freshLine (hd.assertEquals _ _ delta deep h.1
        (obeys_expr hd expected h.2.1 hl.1.2) (obeys_expr hd actual h.2.2 hl.2)
        fun l hmem => hl.1.1 l (Option.mem_toList.mpr hmem))
  | .assertTrue condition, h, hl => by
      simp only [Stmt.mentions, List.forall_mem_cons] at h
      exact obeys_append obeys_freshLine (hd.assertTrue _ h.1 (obeys_expr hd condition h.2 hl))
  | .assertNull value, h, hl => by
      simp only [Stmt.mentions, List.forall_mem_cons] at h
      exact obeys_append obeys_freshLine (hd.assertNull _ h.1 (obeys_expr hd value h.2 hl))
  | .assertThrows exception body, h, hl => by
      simp only [Stmt.mentions, Stmt.bareLiterals, List.forall_mem_append, List.forall_mem_cons]
        at h hl
      exact obeys_append obeys_freshLine (hd.assertThrows _ _ h.1
        (obeys_expr hd exception h.2.1 hl.1) (obeys_blockOf hd body h.2.2 hl.2))
  | .fail message, h, _ =>
      obeys_append obeys_freshLine (hd.fail message (h _ (List.mem_singleton_self _)))
  | .comment text, _, _ => obeys_append obeys_freshLine (obeys_ok (hd.comment text))
  | .comments lines, _, _ => obeys_append obeys_freshLine (obeys_ok (hd.comments lines))
  | .blank, _, _ => obeys_append obeys_freshLine obeys_newline

/-- Statements meet a demand when what they mention is served. -/
theorem obeys_stmts (hd : d.Obeys D served) : ∀ body : List Stmt,
    (∀ m ∈ Stmt.mentionsOf body, served m) →
    (∀ l ∈ Stmt.bareLiteralsOf body, Doc.Obeys D (d.literal l)) → (d.stmts body).Obeys D
  | [], _, _ => obeys_nothing
  | s :: rest, h, hl => by
      simp only [Stmt.mentionsOf, Stmt.bareLiteralsOf, List.forall_mem_append] at h hl
      exact obeys_append (obeys_stmt hd s h.1 hl.1) (obeys_stmts hd rest h.2 hl.2)

/-- A block meets a demand when what its statements mention is served, and so does its sole
expression. -/
theorem obeys_blockOf (hd : d.Obeys D served) : ∀ body : List Stmt,
    (∀ m ∈ Stmt.mentionsOf body, served m) →
    (∀ l ∈ Stmt.bareLiteralsOf body, Doc.Obeys D (d.literal l)) → (d.blockOf body).Obeys D
  | [], _, _ => ⟨obeys_nothing, by simp [blockOf]⟩
  | s :: rest, h, hl => by
      simp only [Stmt.mentionsOf, Stmt.bareLiteralsOf, List.forall_mem_append] at h hl
      have hs := obeys_stmt hd s h.1 hl.1
      have hrest := obeys_stmts hd rest h.2 hl.2
      refine ⟨by rw [content_blockOf]; exact obeys_append hs hrest, ?_⟩
      cases s with
      | eval e =>
          have he := obeys_expr hd e h.1 hl.1
          cases rest with
          | nil => simpa [blockOf] using he
          | cons s' rest' => simp [blockOf]
      | _ => simp [blockOf]

theorem obeys_stubForm (hd : d.Obeys D served) : ∀ s : Stubbing, (∀ m ∈ s.mentions, served m) →
    (∀ l ∈ s.bareLiterals, Doc.Obeys D (d.literal l)) → (d.stubForm s).Obeys D
  | .mk method arguments returns, h, hl => by
      simp only [Stubbing.mentions, Stubbing.bareLiterals, List.forall_mem_append] at h hl
      exact ⟨obeys_exprs hd arguments h.1 hl.1, obeys_expr hd returns h.2 hl.2⟩

theorem obeys_stubForms (hd : d.Obeys D served) : ∀ ss : List Stubbing,
    (∀ m ∈ Stubbing.mentionsOf ss, served m) →
    (∀ l ∈ Stubbing.bareLiteralsOf ss, Doc.Obeys D (d.literal l)) →
    ∀ f ∈ d.stubForms ss, f.Obeys D
  | [], _, _ => fun f hf => absurd hf List.not_mem_nil
  | s :: rest, h, hl => by
      simp only [Stubbing.mentionsOf, Stubbing.bareLiteralsOf, List.forall_mem_append] at h hl
      simp only [stubForms, List.forall_mem_cons]
      exact ⟨obeys_stubForm hd s h.1 hl.1, obeys_stubForms hd rest h.2 hl.2⟩

theorem obeys_cases (hd : d.Obeys D served) : ∀ cs : List SwitchCase,
    (∀ m ∈ SwitchCase.mentionsOf cs, served m) →
    (∀ l ∈ SwitchCase.bareLiteralsOf cs, Doc.Obeys D (d.literal l)) →
    ∀ c ∈ d.cases cs, Doc.Obeys D (d.literal c.1) ∧ c.2.Obeys D
  | [], _, _ => fun c hc => absurd hc List.not_mem_nil
  | .mk label body :: rest, h, hl => by
      simp only [SwitchCase.mentionsOf, SwitchCase.bareLiteralsOf, List.forall_mem_append,
        List.forall_mem_cons] at h hl
      simp only [cases, List.forall_mem_cons]
      exact ⟨⟨hl.1.1, obeys_blockOf hd body h.1 hl.1.2⟩, obeys_cases hd rest h.2 hl.2⟩

end

end Dialect

/-- What the body of a method mentions. -/
theorem Method.mem_mentions_of_mem_body {m : Method} (hkind : ∀ h, m.kind ≠ .helper h)
    {x : Mention} (hx : x ∈ Stmt.mentionsOf m.body) : x ∈ m.mentions := by
  unfold Method.mentions
  split
  · next h heq => exact absurd heq (hkind h)
  · exact List.mem_append_right _ hx

end Target

end TestWriter
