import TestWriter.Proofs.Successes

/-!
# Indentation

A cursor goes a level deeper and comes back, and it stands at the start of a line or within one.
Main statement: a dialect whose forms are level when their parts are writes every expression so that
the level after it is the level before it, and every statement so that a cursor at the start of a
line is at the start of a line again.
-/

namespace TestWriter

namespace Layout

/-! ## Documents -/

/-- The level after a step; there is none when the step takes a level away at level zero. -/
def Step.levelAfter? (level : Nat) : Step → Option Nat
  | .indent => some (level + 1)
  | .dedent => if level = 0 then none else some (level - 1)
  | _ => some level

namespace Doc

/-- The level after a document; there is none when a step takes a level away at level zero. -/
def levelAfter? (level : Nat) (d : Doc) : Option Nat :=
  d.foldlM Step.levelAfter? level

/-- From any cursor a document comes back to the level of the cursor, and on the way no step takes a
level away at level zero. -/
structure Balanced (d : Doc) : Prop where
  level : ∀ tab c, (Cursor.run tab c d).level = c.level
  above : ∀ tab c before after, d = before ++ .dedent :: after →
    0 < (Cursor.run tab c before).level

/-- A document takes a cursor at the start of a line to the start of a line. -/
def KeepsLineStart (d : Doc) : Prop :=
  ∀ tab (c : Cursor), c.atLineStart = true → (c.run tab d).atLineStart = true

/-- A document leads from the first of two levels to the second, and likewise from deeper ones. -/
def Leads (first second : Nat) (d : Doc) : Prop :=
  ∀ n, d.levelAfter? (n + first) = some (n + second)

/-- A document ends on the level on which it begins. -/
def Level (d : Doc) : Prop := d.Leads 0 0

/-- A document leads from one level to another and keeps the start of a line. -/
structure Moves (first second : Nat) (d : Doc) : Prop where
  leads : d.Leads first second
  start : d.KeepsLineStart

variable {d e : Doc} {a b c : Nat}

theorem levelAfter?_append (d e : Doc) (level : Nat) :
    (d ++ e).levelAfter? level = (d.levelAfter? level).bind (e.levelAfter? ·) := by
  simp [levelAfter?, List.foldlM_append]

theorem levelAfter?_cons (step : Step) (d : Doc) (level : Nat) :
    levelAfter? level (step :: d) = (step.levelAfter? level).bind (d.levelAfter? ·) := by
  simp [levelAfter?, List.foldlM_cons]

theorem level_run {tab : String} {start : Cursor} (h : d.levelAfter? start.level = some a) :
    (start.run tab d).level = a := by
  induction d generalizing start with
  | nil => exact Option.some.inj h
  | cons step rest ih =>
      rw [levelAfter?_cons] at h
      obtain ⟨k, hk, hrest⟩ := Option.bind_eq_some_iff.mp h
      have hstep : (start.step tab step).level = k := by
        cases step <;> simp only [Step.levelAfter?] at hk <;>
          simp only [Cursor.step, Cursor.write, Cursor.newline] <;> grind
      exact ih (by rw [hstep]; exact hrest)

/-- A level document is balanced for every cursor. -/
theorem Level.balanced (h : d.Level) : d.Balanced where
  level tab start := level_run (h start.level)
  above tab start before after hd := by
    have hafter := h start.level
    rw [hd, levelAfter?_append] at hafter
    obtain ⟨k, hk, hdedent⟩ := Option.bind_eq_some_iff.mp hafter
    rw [level_run hk]
    -- the step that takes a level away is carried out at level `k`
    simp only [levelAfter?_cons, Step.levelAfter?] at hdedent
    split at hdedent
    · cases hdedent
    · omega

theorem Leads.append (hd : d.Leads a b) (he : e.Leads b c) : (d ++ e).Leads a c := by
  intro n
  rw [levelAfter?_append, hd n]
  exact he n

theorem Leads.deeper (h : d.Leads a b) (k : Nat) : d.Leads (k + a) (k + b) := by
  intro n
  have hdeep := h (n + k)
  rwa [Nat.add_assoc, Nat.add_assoc] at hdeep

theorem leads_indent : Leads 0 1 [.indent] := fun _ => rfl

theorem leads_dedent : Leads 1 0 [.dedent] := fun n => by simp [levelAfter?, Step.levelAfter?]

@[grind ←] theorem level_nil : Level [] := fun _ => rfl

@[grind ←] theorem level_text (role : Role) (s : String) : Level [.text role s] := fun _ => rfl

theorem level_newline : Level [.newline] := fun _ => rfl

@[grind ←] theorem Level.append (hd : d.Level) (he : e.Level) : (d ++ e).Level := Leads.append hd he

theorem level_intersperse {separator : Doc} {ds : List Doc} (hseparator : separator.Level)
    (h : ∀ d ∈ ds, d.Level) : (intersperse separator ds).Level := by
  fun_induction intersperse separator ds with
  | case1 => exact level_nil
  | case2 d => exact h d List.mem_cons_self
  | case3 d rest hrest ih =>
      obtain ⟨hd, hds⟩ := List.forall_mem_cons.mp h
      exact (hd.append hseparator).append (ih hds)

/-- To break pieces into lines changes no level. -/
theorem levelAfter?_breakLines (d : Doc) (level : Nat) :
    d.breakLines.levelAfter? level = d.levelAfter? level := by
  induction d generalizing level with
  | nil => rfl
  | cons step rest ih =>
      have hcons : breakLines (step :: rest) = breakLines [step] ++ breakLines rest := by
        simp [breakLines]
      have hstep : (breakLines [step]).levelAfter? level = step.levelAfter? level := by
        cases step with
        | text role s =>
            have hlevel : (breakLines [.text role s]).Level := by
              simp only [breakLines, List.flatMap_cons, List.flatMap_nil, List.append_nil]
              refine level_intersperse level_newline fun line hline => ?_
              obtain ⟨part, -, rfl⟩ := List.mem_map.mp hline
              exact level_text role _
            exact hlevel level
        | _ => simp [breakLines, levelAfter?]
      rw [hcons, levelAfter?_append, levelAfter?_cons, hstep]
      simp only [ih]

theorem Level.breakLines (h : d.Level) : d.breakLines.Level := by
  intro n
  rw [levelAfter?_breakLines]
  exact h n

theorem KeepsLineStart.append (hd : d.KeepsLineStart) (he : e.KeepsLineStart) :
    (d ++ e).KeepsLineStart := by
  intro tab start h
  rw [Cursor.run_append]
  exact he tab _ (hd tab start h)

theorem keepsLineStart_newline (d : Doc) : (d ++ [Step.newline]).KeepsLineStart := by
  intro tab start _
  rw [Cursor.run_append]
  rfl

theorem Moves.append (hd : d.Moves a b) (he : e.Moves b c) : (d ++ e).Moves a c :=
  ⟨hd.leads.append he.leads, hd.start.append he.start⟩

theorem Moves.deeper (h : d.Moves a b) (k : Nat) : d.Moves (k + a) (k + b) :=
  ⟨h.leads.deeper k, h.start⟩

theorem moves_nil : Moves 0 0 [] := ⟨level_nil, fun _ _ h => h⟩

theorem moves_freshLine : Moves 0 0 [.freshLine] :=
  ⟨fun _ => rfl, fun tab start h => by simp [Cursor.run, Cursor.step, h]⟩

theorem moves_indent : Moves 0 1 [.indent] := ⟨leads_indent, fun _ _ h => h⟩

theorem moves_dedent : Moves 1 0 [.dedent] := ⟨leads_dedent, fun _ _ h => h⟩

/-- A level document with a line end behind it keeps the start of a line. -/
theorem Level.moves (h : d.Level) : Moves 0 0 (d ++ [.newline]) :=
  ⟨h.append level_newline, keepsLineStart_newline d⟩

theorem moves_line (role : Role) (s : String) : Moves 0 0 [.text role s, .newline] :=
  (level_text role s).moves

theorem moves_flatMap {α : Type} {items : List α} {f : α → Doc} (h : ∀ a ∈ items, Moves 0 0 (f a)) :
    Moves 0 0 (items.flatMap f) := by
  induction items with
  | nil => exact moves_nil
  | cons a rest ih =>
      obtain ⟨ha, hrest⟩ := List.forall_mem_cons.mp h
      exact ha.append (ih hrest)

end Doc

/-! ## Renderings -/

namespace Rendering

/-- What a rendering writes ends on the level on which it begins. -/
def Level (r : Rendering) : Prop := ∀ d, r = .ok d → d.Level

/-- What a rendering writes leads from one level to another and keeps the start of a line. -/
def Moves (first second : Nat) (r : Rendering) : Prop := ∀ d, r = .ok d → d.Moves first second

/-- What a rendering writes is level and keeps the start of a line. -/
def Lines (r : Rendering) : Prop := r.Moves 0 0

variable {r s : Rendering} {rs : List Rendering} {d : Doc} {a b c : Nat}

@[grind ←] theorem level_ok (h : d.Level) : Level (.ok d) := by
  intro d' hd
  cases hd
  exact h

theorem moves_ok (h : d.Moves a b) : Moves a b (.ok d) := by
  intro d' hd
  cases hd
  exact h

@[grind ←] theorem lines_ok (h : d.Moves 0 0) : Lines (.ok d) := moves_ok h

theorem Moves.append (hr : r.Moves a b) (hs : s.Moves b c) : (r ++ s).Moves a c := by
  intro d hd
  obtain ⟨x, y, hx, hy, rfl⟩ := append_eq_ok_iff.mp hd
  exact (hr x hx).append (hs y hy)

theorem Lines.append (hr : r.Lines) (hs : s.Lines) : (r ++ s).Lines := Moves.append hr hs

theorem Lines.deeper (h : r.Lines) (k : Nat) : r.Moves k k := fun d hd => (h d hd).deeper k

@[grind ←] theorem level_append (hr : r.Level) (hs : s.Level) : (r ++ s).Level := by
  intro d hd
  obtain ⟨x, y, hx, hy, rfl⟩ := append_eq_ok_iff.mp hd
  exact (hr x hx).append (hs y hy)

/-- Long lines are put together from many parts. -/
@[grind ←] theorem level_append_append {t u : Rendering} (hr : r.Level) (hs : s.Level)
    (ht : t.Level) (hu : u.Level) : (r ++ s ++ t ++ u).Level :=
  level_append (level_append (level_append hr hs) ht) hu

@[grind →] theorem Lines.level (h : r.Lines) : r.Level := fun d hd => (h d hd).leads

@[grind ←] theorem level_error (e : Unsupported) : Level (.error e) := by
  intro d hd
  cases hd

@[grind ←] theorem level_refuse (l : Language) (c : Construct) : Level (Target.refuse l c) :=
  level_error _

theorem moves_refuse (l : Language) (c : Construct) : Moves a b (Target.refuse l c) := by
  intro d hd
  cases hd

@[grind ←] theorem lines_refuse (l : Language) (c : Construct) : Lines (Target.refuse l c) :=
  moves_refuse l c

@[grind ←] theorem level_piece (role : Role) (text : String) : (piece role text).Level :=
  level_ok (Doc.level_text role text)

@[grind ←] theorem level_say (text : String) : (say text).Level := level_piece _ _

@[grind ←] theorem lines_nothing : nothing.Lines := lines_ok Doc.moves_nil

@[grind ←] theorem level_nothing : nothing.Level := lines_nothing.level

@[grind ←] theorem lines_freshLine : freshLine.Lines := lines_ok Doc.moves_freshLine

/-- A level rendering with a line end behind it keeps the start of a line. -/
@[grind ←] theorem lines_append_newline (h : r.Level) : (r ++ newline).Lines := by
  intro d hd
  obtain ⟨x, y, hx, hy, rfl⟩ := append_eq_ok_iff.mp hd
  cases hy
  exact (h x hx).moves

theorem append_line_eq (r : Rendering) (text : String) :
    r ++ line text = r ++ say text ++ newline := by
  rw [append_assoc]
  rfl

@[grind ←] theorem lines_append_line (h : r.Level) (text : String) : (r ++ line text).Lines := by
  rw [append_line_eq]
  exact lines_append_newline (level_append h (level_say text))

@[grind ←] theorem lines_line (text : String) : (line text).Lines :=
  lines_ok (Doc.moves_line .plain text)

@[grind ←] theorem lines_newline : newline.Lines := lines_ok (Doc.level_nil.moves)

@[grind ←] theorem level_line (text : String) : (line text).Level := (lines_line text).level

@[grind ←] theorem level_newline : newline.Level := lines_newline.level

theorem nest_eq (r : Rendering) : r.nest = (.ok [.indent] : Rendering) ++ (r ++ .ok [.dedent]) := rfl

@[grind ←] theorem level_nest (h : r.Level) : r.nest.Level := by
  intro d hd
  rw [nest_eq] at hd
  obtain ⟨_, _, hindent, hrest, rfl⟩ := append_eq_ok_iff.mp hd
  obtain ⟨x, _, hx, hdedent, rfl⟩ := append_eq_ok_iff.mp hrest
  cases hindent
  cases hdedent
  exact Doc.leads_indent.append (((h x hx).deeper 1).append Doc.leads_dedent)

@[grind ←] theorem lines_nest (h : r.Lines) : r.nest.Lines :=
  Moves.append (moves_ok Doc.moves_indent)
    (Moves.append (h.deeper 1) (moves_ok Doc.moves_dedent))

@[grind ←] theorem lines_concat (h : ∀ r ∈ rs, r.Lines) : (concat rs).Lines := by
  induction rs with
  | nil => exact lines_nothing
  | cons r rest ih =>
      obtain ⟨hr, hrest⟩ := List.forall_mem_cons.mp h
      exact hr.append (ih hrest)

theorem lines_separated (hs : s.Lines) (h : ∀ r ∈ rs, r.Lines) : (separated s rs).Lines := by
  fun_induction separated s rs with
  | case1 => exact lines_nothing
  | case2 r => exact h r List.mem_cons_self
  | case3 r rest hrest ih =>
      obtain ⟨hr, hrs⟩ := List.forall_mem_cons.mp h
      exact (hr.append hs).append (ih hrs)

@[grind ←] theorem level_commas (h : ∀ r ∈ rs, r.Level) : (commas rs).Level := by
  unfold commas
  fun_induction separated (say ", ") rs with
  | case1 => exact level_nothing
  | case2 r => exact h r List.mem_cons_self
  | case3 r rest hrest ih =>
      obtain ⟨hr, hrs⟩ := List.forall_mem_cons.mp h
      exact level_append (level_append hr (level_say _)) (ih hrs)

@[grind ←] theorem level_commas_map {α : Type} {items : List α} {f : α → Rendering}
    (h : ∀ a ∈ items, (f a).Level) : (commas (items.map f)).Level :=
  level_commas (List.forall_mem_map.mpr h)

@[grind ←] theorem lines_concat_map {α : Type} {items : List α} {f : α → Rendering}
    (h : ∀ a ∈ items, (f a).Lines) : (concat (items.map f)).Lines :=
  lines_concat (List.forall_mem_map.mpr h)

@[grind ←] theorem level_concat_map {α : Type} {items : List α} {f : α → Rendering}
    (h : ∀ a ∈ items, (f a).Level) : (concat (items.map f)).Level := by
  induction items with
  | nil => exact level_nothing
  | cons a rest ih =>
      obtain ⟨ha, hrest⟩ := List.forall_mem_cons.mp h
      exact level_append ha (ih hrest)

theorem level_ite {p : Prop} [Decidable p] (hr : r.Level) (hs : s.Level) :
    (if p then r else s).Level := by
  split
  · exact hr
  · exact hs

theorem lines_ite {p : Prop} [Decidable p] (hr : r.Lines) (hs : s.Lines) :
    (if p then r else s).Lines := by
  split
  · exact hr
  · exact hs

theorem level_breakLines (h : r.Level) : Level (r.map Doc.breakLines) := by
  intro d hd
  cases r with
  | error e => cases hd
  | ok x =>
      cases hd
      exact (h x rfl).breakLines

end Rendering

end Layout

namespace Target

open Layout Rendering

/-! ## Dialects -/

/-- What a block writes keeps the start of a line, and the expression in it is level. -/
structure Block.Lines (b : Block) : Prop where
  content : b.content.Lines
  sole : ∀ r ∈ b.sole, r.Level

/-- The parts of a stubbing are level. -/
structure StubForm.Level (f : StubForm) : Prop where
  arguments : ∀ r ∈ f.arguments, r.Level
  returns : f.returns.Level

attribute [grind →] Block.Lines.content Block.Lines.sole StubForm.Level.arguments
  StubForm.Level.returns

variable {rs : List Rendering}

theorem lines_linesWithCommas (h : ∀ r ∈ rs, r.Level) : (linesWithCommas rs).Lines := by
  fun_induction linesWithCommas rs with
  | case1 => exact lines_nothing
  | case2 r => exact lines_append_newline (h r List.mem_cons_self)
  | case3 r rest hrest ih =>
      obtain ⟨hr, hrs⟩ := List.forall_mem_cons.mp h
      exact (lines_append_newline (level_append hr (level_say _))).append (ih hrs)

@[grind ←] theorem level_elements (onLines : Bool) (h : ∀ r ∈ rs, r.Level) :
    (elements onLines rs).Level := by
  simp only [elements]
  split
  · exact level_append level_newline (level_nest (lines_linesWithCommas h).level)
  · exact level_commas h

/-- The forms of a dialect are level when their parts are, and those of statements keep the start of
a line. -/
structure Dialect.IsLevel (d : Dialect) : Prop where
  literal : ∀ l, (d.literal l).Level
  comments : ∀ lines, (d.comments lines).Moves 0 0
  documentation : ∀ lines, (d.documentation lines).Moves 0 0
  construct : ∀ owner rs, (∀ r ∈ rs, Rendering.Level r) → (d.construct owner rs).Level
  callOn : ∀ receiver r method rs, r.Level → (∀ r ∈ rs, Rendering.Level r) →
    (d.callOn receiver r method rs).Level
  callStatic : ∀ owner method rs, (∀ r ∈ rs, Rendering.Level r) →
    (d.callStatic owner method rs).Level
  callModule : ∀ module method rs, (∀ r ∈ rs, Rendering.Level r) →
    (d.callModule module method rs).Level
  staticField : ∀ owner name, (d.staticField owner name).Level
  allocate : ∀ element size, (d.allocate element size).Level
  arrayOf : ∀ element onLines rs, (∀ r ∈ rs, Rendering.Level r) →
    (d.arrayOf element onLines rs).Level
  lambda : ∀ ps b, Block.Lines b → (d.lambda ps b).Level
  equal : ∀ r e r', r.Level → r'.Level → (d.equal r e r').Level
  cast : ∀ type r, r.Level → (d.cast type r).Level
  notNull : ∀ r, r.Level → (d.notNull r).Level
  classOf : ∀ owner, (d.classOf owner).Level
  length : ∀ r, r.Level → (d.length r).Level
  mock : ∀ owner, (d.mock owner).Level
  declare : ∀ name type isMutable initial, (∀ r ∈ initial, Rendering.Level r) →
    (d.declare name type isMutable initial).Lines
  branch : ∀ r b b', r.Level → b.Lines → b'.Lines → (d.branch r b b').Lines
  switch : ∀ r cases b, r.Level → (∀ c ∈ cases, Block.Lines c.2) → b.Lines →
    (d.switch r cases b).Lines
  throw : ∀ r, r.Level → (d.throw r).Lines
  mockedStatic : ∀ handle owner forms r, (∀ f ∈ forms, StubForm.Level f) → r.Lines →
    (d.mockedStatic handle owner forms r).Lines
  stub : ∀ r form, r.Level → form.Level → (d.stub r form).Lines
  assertEquals : ∀ r r' delta deep, r.Level → r'.Level → (d.assertEquals r r' delta deep).Lines
  assertTrue : ∀ r, r.Level → (d.assertTrue r).Lines
  assertNull : ∀ r, r.Level → (d.assertNull r).Lines
  assertThrows : ∀ r b, r.Level → b.Lines → (d.assertThrows r b).Lines
  fail : ∀ message, (d.fail message).Lines

namespace Dialect

variable {d : Dialect}

@[grind ←] theorem level_reference (d : Dialect) (name : String) : (d.reference name).Level :=
  level_piece _ _

theorem lines_append_finish {r : Rendering} (h : r.Level) : (r ++ d.finish).Lines :=
  lines_append_line h _

theorem level_callHelper {h : Helper} (hrs : ∀ r ∈ rs, r.Level) : (d.callHelper h rs).Level := by
  simp only [callHelper]
  split
  · exact level_append (level_append (level_append (level_piece _ _) (level_say _))
      (level_commas hrs)) (level_say _)
  · exact level_refuse _ _

theorem moves_comment (d : Dialect) (text : String) : (d.comment text).Moves 0 0 := by
  simp only [comment]
  split
  · exact Doc.moves_line _ _
  · exact Doc.Level.moves (d := [.text .plain _, .text .plain _, .text .remark _]) fun _ => rfl

mutual

/-- An expression is level. -/
theorem level_expr (hd : d.IsLevel) : ∀ e : Expr, (d.expr e).Level
  | .literal l => level_ok (hd.literal l)
  | .ref name => level_reference d name
  | .construct owner arguments => hd.construct owner _ (level_exprs hd arguments)
  | .callOn receiver method arguments =>
      hd.callOn receiver _ method _ (level_expr hd receiver) (level_exprs hd arguments)
  | .callStatic owner method arguments => hd.callStatic owner method _ (level_exprs hd arguments)
  | .callModule module method arguments =>
      hd.callModule module method _ (level_exprs hd arguments)
  | .callHelper _ arguments => level_callHelper (level_exprs hd arguments)
  | .field target _ =>
      level_append (level_append (level_expr hd target) (level_say _)) (level_say _)
  | .staticField owner name => hd.staticField owner name
  | .element array index =>
      level_append (level_append (level_append (level_expr hd array) (level_say _))
        (level_expr hd index)) (level_say _)
  | .allocate element size => hd.allocate element size
  | .arrayOf element values => hd.arrayOf element _ _ (level_exprs hd values)
  | .lambda ps body => hd.lambda ps _ (lines_blockOf hd body)
  | .equal left right => hd.equal _ right _ (level_expr hd left) (level_expr hd right)
  | .logical _ left right =>
      level_append (level_append (level_append (level_append (level_say _) (level_expr hd left))
        (level_say _)) (level_expr hd right)) (level_say _)
  | .not operand =>
      level_append (level_append (level_append (level_say _) (level_say _))
        (level_expr hd operand)) (level_say _)
  | .cast type operand => hd.cast type _ (level_expr hd operand)
  | .notNull operand => hd.notNull _ (level_expr hd operand)
  | .classOf owner => hd.classOf owner
  | .length operand => hd.length _ (level_expr hd operand)
  | .mock owner => hd.mock owner

theorem level_exprs (hd : d.IsLevel) : ∀ es : List Expr, ∀ r ∈ d.exprs es, r.Level
  | [] => fun _ hr => absurd hr List.not_mem_nil
  | e :: rest => List.forall_mem_cons.mpr ⟨level_expr hd e, level_exprs hd rest⟩

/-- A statement is level, and it ends its last line. -/
theorem lines_stmt (hd : d.IsLevel) : ∀ s : Stmt, (d.stmt s).Lines
  | .declare name type isMutable none =>
      lines_freshLine.append (hd.declare name type isMutable none (by simp))
  | .declare name type isMutable (some e) => by
      refine lines_freshLine.append (hd.declare name type isMutable _ ?_)
      simpa [optionalExpr] using level_expr hd e
  | .assign target value =>
      lines_append_finish (level_append (level_append (level_append lines_freshLine.level
        (level_expr hd target)) (level_say _)) (level_expr hd value))
  | .eval e => lines_append_finish (level_append lines_freshLine.level (level_expr hd e))
  | .ret none => lines_append_finish (level_append lines_freshLine.level (level_say _))
  | .ret (some e) =>
      lines_append_finish (level_append (level_append (level_append lines_freshLine.level
        (level_say _)) (level_say _)) (level_expr hd e))
  | .branch condition thenBody elseBody =>
      lines_freshLine.append (hd.branch _ _ _ (level_expr hd condition)
        (lines_blockOf hd thenBody) (lines_blockOf hd elseBody))
  | .switch value labelled fallback =>
      lines_freshLine.append (hd.switch _ _ _ (level_expr hd value) (lines_cases hd labelled)
        (lines_blockOf hd fallback))
  | .throw value => lines_freshLine.append (hd.throw _ (level_expr hd value))
  | .mockedStatic handle owner stubbings body =>
      lines_freshLine.append (hd.mockedStatic handle owner _ _ (level_stubForms hd stubbings)
        (lines_stmts hd body))
  | .stub mock stubbing =>
      lines_freshLine.append (hd.stub _ _ (level_expr hd mock) (level_stubForm hd stubbing))
  | .assertEquals expected actual delta deep =>
      lines_freshLine.append (hd.assertEquals _ _ delta deep (level_expr hd expected)
        (level_expr hd actual))
  | .assertTrue condition => lines_freshLine.append (hd.assertTrue _ (level_expr hd condition))
  | .assertNull value => lines_freshLine.append (hd.assertNull _ (level_expr hd value))
  | .assertThrows exception body =>
      lines_freshLine.append (hd.assertThrows _ _ (level_expr hd exception)
        (lines_blockOf hd body))
  | .fail message => lines_freshLine.append (hd.fail message)
  | .comment text => lines_freshLine.append (lines_ok (moves_comment d text))
  | .comments lines => lines_freshLine.append (lines_ok (hd.comments lines))
  | .blank => lines_freshLine.append lines_newline

theorem lines_stmts (hd : d.IsLevel) : ∀ body : List Stmt, (d.stmts body).Lines
  | [] => lines_nothing
  | s :: rest => (lines_stmt hd s).append (lines_stmts hd rest)

/-- The statements of a block keep the start of a line. -/
theorem lines_blockOf (hd : d.IsLevel) : ∀ body : List Stmt, (d.blockOf body).Lines
  | [] => ⟨lines_nothing, by simp [blockOf]⟩
  | s :: rest => by
      have hs := lines_stmt hd s
      have hrest := lines_stmts hd rest
      refine ⟨by rw [content_blockOf]; exact hs.append hrest, ?_⟩
      cases s with
      | eval e =>
          have he := level_expr hd e
          cases rest with
          | nil => simpa [blockOf] using he
          | cons s' rest' => simp [blockOf]
      | _ => simp [blockOf]

theorem level_stubForm (hd : d.IsLevel) : ∀ s : Stubbing, (d.stubForm s).Level
  | .mk _ arguments returns => ⟨level_exprs hd arguments, level_expr hd returns⟩

theorem level_stubForms (hd : d.IsLevel) :
    ∀ ss : List Stubbing, ∀ f ∈ d.stubForms ss, StubForm.Level f
  | [] => fun _ hf => absurd hf List.not_mem_nil
  | s :: rest => List.forall_mem_cons.mpr ⟨level_stubForm hd s, level_stubForms hd rest⟩

theorem lines_cases (hd : d.IsLevel) :
    ∀ cs : List SwitchCase, ∀ c ∈ d.cases cs, Block.Lines c.2
  | [] => fun _ hc => absurd hc List.not_mem_nil
  | .mk _ body :: rest => List.forall_mem_cons.mpr ⟨lines_blockOf hd body, lines_cases hd rest⟩

end

end Dialect

end Target

end TestWriter
