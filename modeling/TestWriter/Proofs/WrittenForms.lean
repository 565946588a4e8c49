import TestWriter.Proofs.BuiltForms
import TestWriter.Proofs.Successes
import TestWriter.Target.Go
import TestWriter.Target.JavaScript
import TestWriter.Target.Kotlin
import TestWriter.Target.Python

/-!
# Forms that languages write

A language lacks some of the forms that statements may have, and the builders keep away from those.
Main statement: a dialect that writes the forms of built statements writes every built statement, as
long as it has names for the element types of the arrays.
-/

namespace TestWriter.Target

open Layout Rendering

/-! ## Dialects that write built code -/

/-- A dialect writes what it needs for built code, with arrays of the element types that it
names. -/
structure Dialect.Writes (d : Dialect) (config : Config) (named : DataType → Prop) : Prop where
  language_eq : d.language = config.language
  staticField : ∀ owner name, (d.staticField owner name).Succeeds
  construct : ∀ owner rs, (∀ r ∈ rs, r.Succeeds) → (config.language = .go → rs = []) →
    (d.construct owner rs).Succeeds
  callOn : ∀ receiver r method rs, r.Succeeds → (∀ r ∈ rs, r.Succeeds) →
    (d.callOn receiver r method rs).Succeeds
  callStatic : ∀ owner method rs, (∀ r ∈ rs, r.Succeeds) → (d.callStatic owner method rs).Succeeds
  callModule : ∀ module method rs, (∀ r ∈ rs, r.Succeeds) →
    (d.callModule module method rs).Succeeds
  arrayOf : ∀ element onLines rs, named element → (∀ r ∈ rs, r.Succeeds) →
    (d.arrayOf element onLines rs).Succeeds
  equal : ∀ r e r', r.Succeeds → r'.Succeeds → (d.equal r e r').Succeeds
  cast : ∀ type r, config.language ≠ .go → r.Succeeds → (d.cast type r).Succeeds
  classOf : ∀ owner, config.language ≠ .go → (d.classOf owner).Succeeds
  mock : ∀ owner, config.language.supportsMocking = true → (d.mock owner).Succeeds
  declare : ∀ name type r, r.Succeeds → (d.declare name type false (some r)).Succeeds
  branch : ∀ r b b', r.Succeeds → b.Succeeds → b'.Succeeds → (d.branch r b b').Succeeds
  stub : ∀ r form, config.language.supportsMocking = true → r.Succeeds → form.Succeeds →
    (d.stub r form).Succeeds
  mockedStatic : ∀ handle owner forms r, config.language.supportsMocking = true →
    (∀ f ∈ forms, f.Succeeds) → r.Succeeds → (d.mockedStatic handle owner forms r).Succeeds
  assertEquals : ∀ r r' delta deep, r.Succeeds → r'.Succeeds →
    (d.assertEquals r r' delta deep).Succeeds
  assertTrue : ∀ r, r.Succeeds → (d.assertTrue r).Succeeds
  assertNull : ∀ r, r.Succeeds → (d.assertNull r).Succeeds
  assertThrows : ∀ r b, (config.language ≠ .go → r.Succeeds) → b.Succeeds →
    (d.assertThrows r b).Succeeds
  rows : config.language ≠ .go → ∀ t, named t

namespace Dialect

variable {d : Dialect} {config : Config} {named : DataType → Prop}
  {e : Executable} {tested : Option Executable}

theorem succeeds_reference (d : Dialect) (name : String) : (d.reference name).Succeeds :=
  succeeds_piece _ _

theorem succeeds_finish (d : Dialect) : d.finish.Succeeds := succeeds_line _

theorem succeeds_callHelper {h : Helper} {rs : List Rendering}
    (hh : h.supported d.language = true) (hrs : ∀ r ∈ rs, r.Succeeds) :
    (d.callHelper h rs).Succeeds := by
  simp only [callHelper, if_pos hh, succeeds_append_iff, succeeds_commas_iff]
  exact ⟨⟨⟨succeeds_piece _ _, succeeds_say _⟩, hrs⟩, succeeds_say _⟩

theorem forall_exprs_iff {es : List Expr} {P : Rendering → Prop} :
    (∀ r ∈ d.exprs es, P r) ↔ ∀ e ∈ es, P (d.expr e) := by
  induction es with
  | nil => simp [exprs]
  | cons e rest ih => simp [exprs, ih]

theorem forall_stubForms_iff {ss : List Stubbing} {P : StubForm → Prop} :
    (∀ f ∈ d.stubForms ss, P f) ↔ ∀ s ∈ ss, P (d.stubForm s) := by
  induction ss with
  | nil => simp [stubForms]
  | cons s rest ih => simp [stubForms, ih]

theorem succeeds_stmts_iff {body : List Stmt} :
    (d.stmts body).Succeeds ↔ ∀ s ∈ body, (d.stmt s).Succeeds := by
  induction body with
  | nil => simp [stmts]
  | cons s rest ih => simp [stmts, ih]

/-- The expression of a block that evaluates one succeeds when the block does. -/
theorem succeeds_blockOf {body : List Stmt} (h : ∀ s ∈ body, (d.stmt s).Succeeds) :
    (d.blockOf body).Succeeds := by
  refine ⟨?_, ?_⟩
  · rw [content_blockOf]
    exact succeeds_stmts_iff.mpr h
  · fun_cases blockOf d body with
    | case1 => simp
    | case2 x sole =>
        have hx := h _ List.mem_cons_self
        simp only [stmt, succeeds_append_iff] at hx
        simpa [sole] using hx.1.2
    | case3 s rest => simp

namespace Writes

variable (hd : d.Writes config named)

include hd

theorem atom {x : Expr} (hx : x.IsAtom) : (d.expr x).Succeeds := by
  cases hx with
  | literal l => exact succeeds_ok _
  | ref name => exact succeeds_reference d name
  | staticField owner name => exact hd.staticField owner name

theorem atoms {es : List Expr} (hes : ∀ e ∈ es, e.IsAtom) : ∀ r ∈ d.exprs es, r.Succeeds :=
  forall_exprs_iff.mpr fun e he => hd.atom (hes e he)

/-- The call of an executable is written. -/
theorem call {x : Expr} (hx : x.Calls config.language e) : (d.expr x).Succeeds := by
  cases hx with
  | mk hreceiver harguments hgo =>
      have hreceiver' := hd.atom hreceiver
      have harguments' := hd.atoms harguments
      simp only [Executable.call]
      cases hkind : e.kind with
      | method => exact hd.callOn _ _ _ _ hreceiver' harguments'
      | staticMethod => exact hd.callStatic _ _ _ harguments'
      | function => exact hd.callModule _ _ _ harguments'
      | constructor =>
          exact hd.construct _ _ harguments' fun hlanguage => absurd hkind (hgo hlanguage)

theorem allocation (owner : ClassName) :
    (d.expr (Draft.allocation config.language owner)).Succeeds := by
  have hlanguage := hd.language_eq
  cases hconfig : config.language with
  | java | kotlin =>
      rw [hconfig] at hlanguage
      refine hd.cast _ _ (by simp [hconfig]) (succeeds_callHelper ?_ ?_)
      · rw [hlanguage]
        rfl
      · exact hd.atoms (List.forall_mem_singleton.mpr (.literal _))
  | python =>
      refine hd.callStatic _ _ _ (List.forall_mem_singleton.mpr ?_)
      exact hd.classOf owner (by simp [hconfig])
  | javascript =>
      exact hd.callStatic _ _ _ (List.forall_mem_singleton.mpr (hd.staticField _ _))
  | go => exact hd.construct _ _ (List.forall_mem_nil _) fun _ => rfl

/-- Only the JVM writes fields by a helper, which it has. -/
theorem field {way : Draft.FieldWriting} {object value : Expr} (name : String)
    (hway : way = .assignment ∨ way = .withoutConstructor config.language)
    (hobject : object.IsAtom) (hvalue : value.IsAtom) :
    (d.stmt (way.statement object name value)).Succeeds := by
  have hobject' := hd.atom hobject
  have hvalue' := hd.atom hvalue
  have hall : ∀ r ∈ d.exprs [object, .str name, value], r.Succeeds :=
    hd.atoms (by simp [hobject, hvalue, Expr.str, Expr.IsAtom.literal])
  have hfinish := succeeds_finish d
  cases way with
  | assignment =>
      simp only [Draft.FieldWriting.statement, stmt, expr, succeeds_append_iff]
      simp [hobject', hvalue', hfinish]
  | helper =>
      have hsupported : Helper.setField.supported d.language = true := by
        rw [hd.language_eq]
        cases hlanguage : config.language <;>
          simp_all [Draft.FieldWriting.withoutConstructor, Helper.supported]
      have hcall := succeeds_callHelper hsupported hall
      simp only [Draft.FieldWriting.statement, stmt, expr, succeeds_append_iff]
      exact ⟨⟨succeeds_freshLine, hcall⟩, hfinish⟩
  | setattr =>
      have hcall := hd.callModule (.global "builtins") "setattr" _ hall
      simp only [Draft.FieldWriting.statement, stmt, expr, succeeds_append_iff]
      exact ⟨⟨succeeds_freshLine, hcall⟩, hfinish⟩

/-- A statement that rebuilds a value is written when there are names for its arrays. -/
theorem rebuilds {s : Stmt} (hs : s.Rebuilds config.language)
    (hnamed : ∀ t ∈ s.arrayTypes, named t) : (d.stmt s).Succeeds := by
  cases hs with
  | array name element hvalues =>
      have helement : named element := hnamed element (List.mem_singleton_self _)
      refine succeeds_append_iff.mpr ⟨succeeds_freshLine, hd.declare _ _ _ ?_⟩
      exact hd.arrayOf element _ _ helement (hd.atoms hvalues)
  | object name owner harguments hgo =>
      refine succeeds_append_iff.mpr ⟨succeeds_freshLine, hd.declare _ _ _ ?_⟩
      refine hd.construct owner _ (hd.atoms harguments) fun hlanguage => ?_
      rw [hgo hlanguage]
      rfl
  | allocated name owner =>
      exact succeeds_append_iff.mpr
        ⟨succeeds_freshLine, hd.declare _ _ _ (hd.allocation owner)⟩
  | field name hway hobject hvalue =>
      exact hd.field name hway hobject hvalue
  | mock name owner hmocks =>
      exact succeeds_append_iff.mpr
        ⟨succeeds_freshLine, hd.declare _ _ _ (hd.mock owner hmocks)⟩
  | stub method hmocks hobject harguments hreturns =>
      refine succeeds_append_iff.mpr ⟨succeeds_freshLine, ?_⟩
      exact hd.stub _ _ hmocks (hd.atom hobject) ⟨hd.atoms harguments, hd.atom hreturns⟩

/-- The evaluation of a call, as a block of its own. -/
theorem callBlock {x : Expr} (hx : x.Calls config.language e) :
    (d.blockOf [.eval x]).Succeeds := by
  refine succeeds_blockOf (List.forall_mem_singleton.mpr ?_)
  simp only [stmt, succeeds_append_iff]
  exact ⟨⟨succeeds_freshLine, hd.call hx⟩, succeeds_finish d⟩

theorem cell {x : Expr} (hgo : config.language ≠ .go) (hx : x.IsCell) : (d.expr x).Succeeds := by
  cases hx with
  | atom hatom => exact hd.atom hatom
  | classOf owner => exact hd.classOf owner hgo

theorem row {x : Expr} (hgo : config.language ≠ .go) (hx : x.IsRow) : (d.expr x).Succeeds := by
  cases hx with
  | mk hcells =>
      exact hd.arrayOf .any _ _ (hd.rows hgo _)
        (forall_exprs_iff.mpr fun c hc => hd.cell hgo (hcells c hc))

theorem stubForm {s : Stubbing} (hs : s.IsAtomic) : (d.stubForm s).Succeeds := by
  cases hs with
  | mk method hreturns => exact ⟨List.forall_mem_nil _, hd.atom hreturns⟩

/-- A built statement is written when there are names for its arrays.  Static methods are mocked
only where there are mocks. -/
theorem built {s : Stmt} (hmocks : config.staticMocking ≠ .off →
      config.language.supportsMocking = true)
    (hs : s.Built config tested) (hnamed : ∀ t ∈ s.arrayTypes, named t) : (d.stmt s).Succeeds := by
  have hfresh := succeeds_freshLine
  induction hs with
  | rebuilds h => exact hd.rebuilds h hnamed
  | run he hcall =>
      simp only [stmt, succeeds_append_iff]
      exact ⟨⟨hfresh, hd.call hcall⟩, succeeds_finish d⟩
  | result name he hcall =>
      exact succeeds_append_iff.mpr ⟨hfresh, hd.declare _ _ _ (hd.call hcall)⟩
  | isNull hactual =>
      exact succeeds_append_iff.mpr ⟨hfresh, hd.assertNull _ (hd.atom hactual)⟩
  | isNaN hactual =>
      have hx := hd.atom hactual
      refine succeeds_append_iff.mpr ⟨hfresh, hd.assertTrue _ ?_⟩
      simp only [expr, succeeds_append_iff]
      exact ⟨⟨⟨succeeds_say _, succeeds_say _⟩, hd.equal _ _ _ hx hx⟩, succeeds_say _⟩
  | deepEquals hlanguage hexpected hactual =>
      refine succeeds_append_iff.mpr ⟨hfresh, hd.assertTrue _ (succeeds_callHelper ?_ ?_)⟩
      · rw [hd.language_eq]
        exact hlanguage
      · exact hd.atoms (by simp [hexpected, hactual])
  | equals deep hexpected hactual hdelta =>
      exact succeeds_append_iff.mpr
        ⟨hfresh, hd.assertEquals _ _ _ _ (hd.atom hexpected) (hd.atom hactual)⟩
  | throws exception he hcall =>
      exact succeeds_append_iff.mpr
        ⟨hfresh, hd.assertThrows _ _ (hd.classOf exception) (hd.callBlock hcall)⟩
  | blank => exact succeeds_append_iff.mpr ⟨hfresh, succeeds_newline⟩
  | comment text => exact succeeds_append_iff.mpr ⟨hfresh, succeeds_ok _⟩
  | comments lines => exact succeeds_append_iff.mpr ⟨hfresh, succeeds_ok _⟩
  | mocked handle owner hstatic hstubbings hbody ih =>
      refine succeeds_append_iff.mpr ⟨hfresh, hd.mockedStatic _ _ _ _ (hmocks hstatic) ?_ ?_⟩
      · exact forall_stubForms_iff.mpr fun s hs => hd.stubForm (hstubbings s hs)
      · refine succeeds_stmts_iff.mpr fun s hs => ih s hs fun t ht => hnamed t ?_
        exact Stmt.mem_arrayTypesOf_iff.mpr ⟨s, hs, ht⟩
  | rows htables hrows =>
      have hgo := htables.ne_go
      simp only [stmt, expr, succeeds_append_iff]
      refine ⟨⟨⟨⟨hfresh, succeeds_say _⟩, succeeds_say _⟩, ?_⟩, succeeds_finish d⟩
      exact hd.arrayOf _ _ _ (hd.rows hgo _)
        (forall_exprs_iff.mpr fun row hrow => hd.row hgo (hrows row hrow))
  | castEquals type htables hexpected hactual hdelta =>
      exact succeeds_append_iff.mpr ⟨hfresh, hd.assertEquals _ _ _ _
        (hd.cast _ _ htables.ne_go (hd.atom hexpected)) (hd.atom hactual)⟩
  | branch htables herror hsuccess he hcall ih =>
      have herror' := hd.atom herror
      refine succeeds_append_iff.mpr ⟨hfresh, hd.branch _ _ _ ?_ ?_ ?_⟩
      · exact hd.equal _ _ _ herror' (hd.atom Expr.isAtom_null)
      · refine succeeds_blockOf fun s hs => ih s hs fun t ht => hnamed t ?_
        exact List.mem_append_left _ (Stmt.mem_arrayTypesOf_iff.mpr ⟨s, hs, ht⟩)
      · refine succeeds_blockOf (List.forall_mem_singleton.mpr ?_)
        exact succeeds_append_iff.mpr
          ⟨hfresh, hd.assertThrows _ _ (fun _ => herror') (hd.callBlock hcall)⟩

end Writes

end Dialect

end TestWriter.Target
