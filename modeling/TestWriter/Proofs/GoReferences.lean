import TestWriter.Proofs.GoRefusals

/-!
# References to packages in Go

A file in Go may not import a package that nothing in it refers to.  Imports are those of the
framework and those of what the code mentions, but Go writes no type for a variable that has a value
and no class for an expected error.  Main statement: the imports of a file with tests are `testing`,
the assertions and the packages that its code mentions, and the packages that its text refers to are
`testing` and those that its code mentions outside of such types and classes.
-/

namespace TestWriter

open Layout

/-! ## Parts of a text -/

namespace Layout.Rendering

variable {r a b : Rendering} {rs : List Rendering} {step : Step}

/-- A rendering holds another one when it writes, in one piece, what the other one writes. -/
def Holds (r part : Rendering) : Prop := ∀ d, r = .ok d → ∃ x, part = .ok x ∧ x <:+: d

variable {part : Rendering}

theorem holds_refl (r : Rendering) : r.Holds r := fun d hd => ⟨d, hd, List.infix_refl d⟩

theorem Holds.trans (h : a.Holds b) (h' : b.Holds part) : a.Holds part := by
  intro d hd
  obtain ⟨x, hx, hinfix⟩ := h d hd
  obtain ⟨y, hy, hinfix'⟩ := h' x hx
  exact ⟨y, hy, hinfix'.trans hinfix⟩

/-- What a part shows is shown by the whole. -/
theorem Holds.shows (h : r.Holds part) (hpart : part.Shows step) : r.Shows step := by
  intro d hd
  obtain ⟨x, hx, hinfix⟩ := h d hd
  exact hinfix.subset (hpart x hx)

theorem holds_left (h : a.Holds part) : (a ++ b).Holds part := by
  intro d hd
  obtain ⟨x, y, hx, -, rfl⟩ := append_eq_ok_iff.mp hd
  obtain ⟨z, hz, hinfix⟩ := h x hx
  exact ⟨z, hz, hinfix.trans (List.prefix_append x y).isInfix⟩

theorem holds_right (h : b.Holds part) : (a ++ b).Holds part := by
  intro d hd
  obtain ⟨x, y, -, hy, rfl⟩ := append_eq_ok_iff.mp hd
  obtain ⟨z, hz, hinfix⟩ := h y hy
  exact ⟨z, hz, hinfix.trans (List.suffix_append x y).isInfix⟩

theorem holds_nest (h : r.Holds part) : r.nest.Holds part :=
  holds_right (a := .ok [.indent]) (holds_left (b := .ok [.dedent]) h)

theorem holds_concat (hr : r ∈ rs) (h : r.Holds part) : (concat rs).Holds part := by
  induction rs with
  | nil => cases hr
  | cons first rest ih =>
      rcases List.mem_cons.mp hr with rfl | hr
      · exact holds_left h
      · exact holds_right (ih hr)

theorem holds_separated (separator : Rendering) (hr : r ∈ rs) (h : r.Holds part) :
    (separated separator rs).Holds part := by
  fun_induction separated separator rs with
  | case1 => cases hr
  | case2 first => exact List.mem_singleton.mp hr ▸ h
  | case3 first rest hrest ih =>
      rcases List.mem_cons.mp hr with rfl | hr
      · exact holds_left (holds_left h)
      · exact holds_right (ih hr)

end Layout.Rendering

namespace Target

open Layout.Rendering

namespace MethodForms

variable {f : MethodForms} {m : Method}

mutual

/-- A region holds each of its methods. -/
theorem holds_region : ∀ r : Region, m ∈ r.methods → (f.region r).Holds (f.method m)
  | .mk header _ items, hm => holds_left (holds_right (holds_items header.isSome items hm))

theorem holds_items (apart : Bool) :
    ∀ items : List RegionItem, m ∈ Region.methodsOf items →
      (f.items apart items).Holds (f.method m)
  | [], hm => nomatch hm
  | .region r :: rest, hm => by
      rcases List.mem_append.mp hm with hm | hm
      · exact holds_left (holds_right (holds_region r hm))
      · exact holds_right (holds_items true rest hm)
  | .method k :: rest, hm => by
      rcases List.mem_cons.mp hm with rfl | hm
      · exact holds_left (holds_right (holds_refl _))
      · exact holds_right (holds_items true rest hm)

end

/-- The regions of a class hold each of its methods. -/
theorem holds_regions {rs : List Region} (hm : m ∈ rs.flatMap Region.methods) :
    (f.regions rs).Holds (f.method m) := by
  have hall : ∀ r ∈ inhabited rs, ∀ m ∈ r.methods, (f.regions rs).Holds (f.method m) :=
    fun r hr m hm => holds_separated _ (List.mem_map_of_mem hr) (holds_region r hm)
  exact (forall_inhabited_iff rs).mp hall m hm

/-- The regions of a class and that of its static methods hold each of its methods. -/
theorem holds_class {c : TestClass} (hm : m ∈ c.methods) :
    (f.regions (c.regions ++ [c.statics])).Holds (f.method m) := by
  refine holds_regions ?_
  rw [List.flatMap_append, List.flatMap_singleton]
  exact hm

end MethodForms

namespace Dialect

variable {d : Dialect} {step : Step}

/-- The statements of a block hold each of them. -/
theorem holds_stmts {s : Stmt} {body : List Stmt} (hs : s ∈ body) :
    (d.stmts body).Holds (d.stmt s) := by
  induction body with
  | nil => cases hs
  | cons first rest ih =>
      rw [stmts]
      rcases List.mem_cons.mp hs with rfl | hs
      · exact holds_left (holds_refl _)
      · exact holds_right (ih hs)

theorem shows_stmts {s : Stmt} {body : List Stmt} (hs : s ∈ body) (h : (d.stmt s).Shows step) :
    (d.stmts body).Shows step :=
  (holds_stmts hs).shows h

theorem mem_exprs {e : Expr} {es : List Expr} (he : e ∈ es) : d.expr e ∈ d.exprs es := by
  induction es with
  | nil => cases he
  | cons first rest ih =>
      rcases List.mem_cons.mp he with rfl | he
      · exact List.mem_cons_self
      · exact List.mem_cons_of_mem _ (ih he)

end Dialect

end Target

/-! ## Mentions of packages -/

/-- A method without parameters and results mentions what its body does. -/
theorem Method.mem_body_of_mem_mentions {m : Method}
    (hplain : m.parameters = [] ∧ m.returnType = .void) {x : Mention} (hx : x ∈ m.mentions) :
    x ∈ Stmt.mentionsOf m.body := by
  simp only [mentions] at hx
  split at hx
  · cases hx
  · simpa [hplain.1, hplain.2, parameterMentions, DataType.mentions] using hx

/-- A number of 32 bits that is not finite is a special value. -/
theorem Decimal.Binary32.exists_special {x : Binary32} (h : x.isFinite = false) :
    ∃ value, x.special? = some value := by
  simp only [isFinite] at h
  simp only [special?]
  cases hx : x.magnitude with
  | finite m q =>
      rw [hx] at h
      cases h
  | _ => exact ⟨_, rfl⟩

/-- A number of 64 bits that is not finite is a special value. -/
theorem Decimal.Binary64.exists_special {x : Binary64} (h : x.isFinite = false) :
    ∃ value, x.special? = some value := by
  simp only [isFinite] at h
  simp only [special?]
  cases hx : x.magnitude with
  | finite m q =>
      rw [hx] at h
      cases h
  | _ => exact ⟨_, rfl⟩

/-- A mention in Go needs a package, in a file of the package `home`. -/
def Mention.Needs (home path : String) : Mention → Prop
  | .ofClass c | .typeClass c | .function c _ => c.package = path ∧ path ≠ "" ∧ path ≠ home
  | .nonFinite => path = "math"
  | .assertion _ => path = Target.Go.assertPackage
  | .helper _ | .mocking _ | .staticMocks => False

instance (home path : String) : (x : Mention) → Decidable (x.Needs home path)
  | .ofClass _ | .typeClass _ | .function .. => inferInstanceAs (Decidable (_ ∧ _ ∧ _))
  | .nonFinite | .assertion _ => inferInstanceAs (Decidable (_ = _))
  | .helper _ | .mocking _ | .staticMocks => inferInstanceAs (Decidable False)

namespace Target.Go

open Layout.Rendering

variable {s : Surroundings} {path : String} {x : Mention} {c : ClassName}

/-- A statement without what Go leaves out of it: the type of a variable that has a value, and the
class of an expected error. -/
def written : Stmt → Stmt
  | .declare name _ isMutable (some e) => .declare name .void isMutable (some e)
  | .assertThrows _ body => .assertThrows .null body
  | y => y

theorem stmt_written (s : Surroundings) (y : Stmt) :
    (dialect s).stmt (written y) = (dialect s).stmt y := by
  cases y with
  | declare name type isMutable initial =>
      cases initial with
      | none => rfl
      | some e => rfl
  | _ => rfl

/-- The step that writes the name of a package. -/
def reference (path : String) : Step := .text (.module path) (packageName path)

theorem reference_mem_qualifier (h : c.package = path ∧ path ≠ "" ∧ path ≠ s.package) :
    reference path ∈ qualifier s c.package := by
  obtain ⟨rfl, hne, hforeign⟩ := h
  have hshort : ¬(c.package.isEmpty || decide (c.package = s.package)) = true := by
    simp [hne, hforeign]
  simp only [qualifier, if_neg hshort]
  exact List.mem_cons_self

theorem reference_mem_className (h : c.package = path ∧ path ≠ "" ∧ path ≠ s.package) :
    reference path ∈ className s c :=
  List.mem_append_left _ (reference_mem_qualifier h)

theorem shows_typeName {t : DataType} (hx : x ∈ t.mentions) (hneeds : x.Needs s.package path) :
    (typeName s t).Shows (reference path) := by
  induction t with
  | ofClass c =>
      cases List.mem_singleton.mp hx
      exact shows_ok (reference_mem_className hneeds)
  | array element ih => exact shows_right (ih hx)
  | _ => cases hx

/-- A number that is not finite is a member of the package `math`. -/
theorem reference_mem_literal {l : Literal} (hl : l.isNonFinite = true) :
    reference "math" ∈ literal l := by
  have hmath : packageName "math" = "math" := by decide
  have hspecial : ∀ value, reference "math" ∈ special value := by
    intro value
    rw [reference, hmath]
    exact List.mem_cons_self
  cases l with
  | float n =>
      obtain ⟨value, hvalue⟩ := n.exists_special (by simpa [Literal.isNonFinite] using hl)
      simp only [literal, float, hvalue]
      exact List.mem_append_left _ (List.mem_append_right _ (hspecial value))
  | double n =>
      obtain ⟨value, hvalue⟩ := n.exists_special (by simpa [Literal.isNonFinite] using hl)
      simp only [literal, double, hvalue]
      exact hspecial value
  | _ => cases hl

/-- An atom names every package that it mentions. -/
theorem shows_atom {e : Expr} (he : e.IsAtom) (hx : x ∈ e.mentions)
    (hneeds : x.Needs s.package path) : ((dialect s).expr e).Shows (reference path) := by
  cases he with
  | literal l =>
      simp only [Expr.mentions] at hx
      split at hx
      · next hl =>
        cases List.mem_singleton.mp hx
        cases hneeds
        exact shows_ok (reference_mem_literal hl)
      · cases hx
  | ref name => cases hx
  | staticField owner name =>
      cases List.mem_singleton.mp hx
      exact shows_left (shows_ok (reference_mem_qualifier hneeds))

theorem shows_atoms {es : List Expr} (hes : ∀ e ∈ es, e.IsAtom) (hx : x ∈ Expr.mentionsOf es)
    (hneeds : x.Needs s.package path) :
    ∃ r ∈ (dialect s).exprs es, r.Shows (reference path) := by
  obtain ⟨e, he, hx⟩ := Expr.mem_mentionsOf_iff.mp hx
  exact ⟨_, Dialect.mem_exprs he, shows_atom (hes e he) hx hneeds⟩

theorem shows_call (method : String) {rs : List Rendering} {step : Step}
    (h : ∃ r ∈ rs, r.Shows step) : (call method rs).Shows step := by
  obtain ⟨r, hr, hshows⟩ := h
  exact shows_left (shows_right (shows_commas hr hshows))

/-- The call of an executable names every package that it mentions. -/
theorem shows_executable {e : Executable} {call : Expr} (hcall : call.Calls .go e)
    (hx : x ∈ call.mentions) (hneeds : x.Needs s.package path) :
    ((dialect s).expr call).Shows (reference path) := by
  cases hcall with
  | mk hreceiver harguments hgo =>
      simp only [Executable.call] at hx ⊢
      cases hkind : e.kind with
      | method =>
          simp only [hkind, Expr.mentions] at hx
          rcases List.mem_append.mp hx with hx | hx
          · exact shows_left (shows_left (shows_atom hreceiver hx hneeds))
          · exact shows_right (shows_call _ (shows_atoms harguments hx hneeds))
      | staticMethod | function =>
          simp only [hkind, Expr.mentions] at hx
          rcases List.mem_cons.mp hx with rfl | hx
          · repeat' apply shows_left
            exact shows_ok (reference_mem_qualifier hneeds)
          · obtain ⟨r, hr, hshows⟩ := shows_atoms harguments hx hneeds
            exact shows_left (shows_right (shows_commas hr hshows))
      | constructor => exact absurd hkind (hgo rfl)

theorem shows_declare (name : String) (type : DataType) {r : Rendering} {step : Step}
    (h : r.Shows step) : ((dialect s).declare name type false (some r)).Shows step :=
  shows_left (shows_right h)

theorem shows_elements (onLines : Bool) {element : DataType} {rs : List Rendering} {step : Step}
    (h : ∃ r ∈ rs, r.Shows step) : ((dialect s).arrayOf element onLines rs).Shows step := by
  obtain ⟨r, hr, hshows⟩ := h
  apply shows_left
  apply shows_right
  cases onLines with
  | false => exact shows_commas hr hshows
  | true =>
      refine shows_right (shows_nest (shows_concat (List.mem_map_of_mem hr) ?_))
      exact shows_left hshows

/-- The value of a new variable names every package that it mentions. -/
theorem shows_newObject (name : String) (type : DataType) {owner : ClassName}
    (hx : x ∈ (Expr.construct owner []).mentions) (hneeds : x.Needs s.package path) :
    ((dialect s).stmt (.declare name type false (some (.construct owner [])))).Shows
      (reference path) := by
  cases List.mem_singleton.mp hx
  refine shows_right (shows_declare name _ (shows_left ?_))
  exact shows_ok (reference_mem_className hneeds)

/-- A statement that rebuilds a value names every package that it mentions in what is written. -/
theorem shows_rebuilds {y : Stmt} (hy : y.Rebuilds .go) (hx : x ∈ (written y).mentions)
    (hneeds : x.Needs s.package path) : ((dialect s).stmt y).Shows (reference path) := by
  cases hy with
  | @array values name element hvalues =>
      refine shows_right (shows_declare name _ ?_)
      have hx' : x ∈ element.mentions ++ Expr.mentionsOf values := hx
      rcases List.mem_append.mp hx' with hx | hx
      · refine shows_left (shows_left (shows_left (shows_right ?_)))
        exact shows_typeName hx hneeds
      · exact shows_elements _ (shows_atoms hvalues hx hneeds)
  | @object arguments name owner harguments hgo =>
      obtain rfl : arguments = [] := hgo rfl
      exact shows_newObject name _ hx hneeds
  | allocated name owner => exact shows_newObject name _ hx hneeds
  | @field way object value name hway hobject hvalue =>
      obtain rfl : way = .assignment := hway.elim id id
      rcases List.mem_append.mp hx with hx | hx
      · refine shows_left (shows_left (shows_left (shows_right (shows_left (shows_left ?_)))))
        exact shows_atom hobject hx hneeds
      · exact shows_left (shows_right (shows_atom hvalue hx hneeds))
  | mock name owner hmocks => cases hmocks
  | stub method hmocks => cases hmocks

/-- The name of the package of the assertions. -/
theorem shows_assertPackage {member : String}
    (hneeds : (Mention.assertion member).Needs s.package path) :
    (piece (.module assertPackage) "assert").Shows (reference path) := by
  have hname : packageName assertPackage = "assert" := by decide
  cases hneeds
  rw [reference, hname]
  exact shows_ok (List.mem_singleton_self _)

/-- An assertion names the package of the assertions and what its parts name. -/
theorem shows_assertionOf {mentioned : String} (member : String) {rs : List Rendering}
    {rest : List Mention} (hx : x ∈ .assertion mentioned :: rest) (hneeds : x.Needs s.package path)
    (hrest : x ∈ rest → ∃ r ∈ rs, r.Shows (reference path)) :
    (assertion member rs).Shows (reference path) := by
  rcases List.mem_cons.mp hx with rfl | hx
  · repeat' apply shows_left
    exact shows_assertPackage hneeds
  · obtain ⟨r, hr, hshows⟩ := hrest hx
    exact shows_left (shows_left (shows_right (shows_commas hr hshows)))

/-- A built statement names every package that it mentions in what is written. -/
theorem shows_built {config : Config} {tested : Option Executable} {y : Stmt}
    (hlanguage : config.language = .go)
    (hmocks : config.staticMocking ≠ .off → config.language.supportsMocking = true)
    (hy : y.Built config tested) (hx : x ∈ (written y).mentions) (hneeds : x.Needs s.package path) :
    ((dialect s).stmt y).Shows (reference path) := by
  have hcallees : ∀ {e : Executable} {call : Expr}, call.Calls config.language e →
      x ∈ call.mentions → ((dialect s).expr call).Shows (reference path) := by
    intro e call hcall hx
    rw [hlanguage] at hcall
    exact shows_executable hcall hx hneeds
  cases hy with
  | rebuilds h =>
      rw [hlanguage] at h
      exact shows_rebuilds h hx hneeds
  | run he hcall => exact shows_left (shows_right (hcallees hcall hx))
  | result name he hcall => exact shows_right (shows_declare name _ (hcallees hcall hx))
  | isNull hactual =>
      refine shows_right (shows_assertionOf _ hx hneeds fun hx => ?_)
      exact ⟨_, List.mem_singleton_self _, shows_atom hactual hx hneeds⟩
  | isNaN hactual =>
      refine shows_right (shows_assertionOf _ hx hneeds fun hx => ?_)
      refine ⟨_, List.mem_singleton_self _, shows_left (shows_right (shows_left (shows_left ?_)))⟩
      exact shows_atom hactual ((List.mem_append.mp hx).elim id id) hneeds
  | deepEquals hsupported =>
      rw [hlanguage] at hsupported
      cases hsupported
  | @equals expected actual delta deep hexpected hactual hdelta =>
      apply shows_right
      have hsides : ∀ rest, x ∈ expected.mentions ++ actual.mentions →
          ∃ r ∈ (dialect s).expr expected :: (dialect s).expr actual :: rest,
            r.Shows (reference path) := by
        intro rest hx
        rcases List.mem_append.mp hx with hx | hx
        · exact ⟨_, List.mem_cons_self, shows_atom hexpected hx hneeds⟩
        · exact ⟨_, List.mem_cons_of_mem _ List.mem_cons_self, shows_atom hactual hx hneeds⟩
      cases delta with
      | some l => exact shows_assertionOf "InDelta" hx hneeds (hsides [.ok (literal l)])
      | none => exact shows_assertionOf "Equal" hx hneeds (hsides [])
  | @throws e call exception he hcall =>
      apply shows_right
      rcases List.mem_cons.mp hx with rfl | hx
      · repeat' apply shows_left
        exact shows_assertPackage hneeds
      · refine shows_left (shows_right (shows_nest ?_))
        rw [Dialect.content_blockOf]
        refine Dialect.shows_stmts (List.mem_singleton_self _) ?_
        have hx' : x ∈ call.mentions ++ [] := hx
        rw [List.append_nil] at hx'
        exact shows_left (shows_right (hcallees hcall hx'))
  | blank => cases hx
  | comment text => cases hx
  | comments lines => cases hx
  | mocked handle owner hstatic =>
      have hsupported := hmocks hstatic
      rw [hlanguage] at hsupported
      cases hsupported
  | rows htables => exact absurd hlanguage htables.ne_go
  | castEquals type htables => exact absurd hlanguage htables.ne_go
  | branch htables => exact absurd hlanguage htables.ne_go

section

variable {config : Config} {m : Method}

/-- A method that is not written as a table or a helper shows what its body does. -/
theorem shows_method {step : Step} (hkind : ∀ h, m.kind ≠ .helper h)
    (h : (opening (dialect s) m).Shows step ∨ ((dialect s).stmts m.body).Shows step) :
    ((methods s).method m).Shows step := by
  rw [MethodForms.method_eq_whole hkind]
  rcases h with h | h
  · exact shows_left (shows_left (shows_right h))
  · exact shows_left (shows_right h)

/-- Every test is a function with a parameter of the package `testing`. -/
theorem shows_testing (m : Method) : (opening (dialect s) m).Shows (reference "testing") := by
  have hname : packageName "testing" = "testing" := by decide
  have hhead : ∀ name, (testHead name).Shows (reference "testing") := by
    intro name
    rw [reference, hname]
    exact shows_left (shows_left (shows_right (shows_ok (List.mem_singleton_self _))))
  simp only [opening]
  split
  · exact shows_left (shows_left (hhead _))
  · exact hhead _
  all_goals exact shows_error _

/-- A file of tests shows what one of its methods does. -/
theorem shows_file {f : SourceFile} (hkind : f.testClass.kind = .test) {step : Step}
    (hm : m ∈ f.testClass.methods) (h : ((methods s).method m).Shows step) :
    (file s f).Shows step := by
  have hregion : ∀ r ∈ MethodForms.inhabited (f.testClass.regions ++ [f.testClass.statics]),
      ∀ k ∈ r.methods, ((methods s).method k).Shows step → (file s f).Shows step := by
    intro r hr k hk hshows
    simp only [file, hkind]
    refine shows_right (shows_concat (List.mem_map_of_mem hr) ?_)
    exact shows_right ((MethodForms.holds_region r hk).shows hshows)
  rw [MethodForms.forall_inhabited_iff, forall_methods_iff] at hregion
  exact hregion m hm h

end

/-! ## Packages that a file refers to -/

theorem stmts_written (s : Surroundings) (body : List Stmt) :
    (dialect s).stmts (body.map written) = (dialect s).stmts body := by
  induction body with
  | nil => rfl
  | cons y rest ih => exact congrArg₂ (· ++ ·) (stmt_written s y) ih

theorem mem_bareLiterals_of_written {y : Stmt} {l : Literal} (h : l ∈ (written y).bareLiterals) :
    l ∈ y.bareLiterals := by
  cases y with
  | declare name type isMutable initial => cases initial <;> exact h
  | assertThrows exception body => exact List.mem_append_right _ h
  | _ => exact h

theorem mem_bareLiteralsOf_of_written {body : List Stmt} {l : Literal}
    (h : l ∈ Stmt.bareLiteralsOf (body.map written)) : l ∈ Stmt.bareLiteralsOf body := by
  induction body with
  | nil => cases h
  | cons y rest ih =>
      exact List.mem_append.mpr ((List.mem_append.mp h).imp mem_bareLiterals_of_written ih)

/-- A package is referred to only if a proposition holds. -/
def onlyIf (path : String) (p : Prop) : Demand :=
  .ofPieces (fun role _ => role = .module path → p) (fun _ => by simp) (fun _ _ => by simp)
    fun _ _ h _ _ => h

/-- A piece that does not refer to the package may stand. -/
theorem holds_onlyIf {p : Prop} {role : Role} {text : String} (h : role = .module path → p) :
    (onlyIf path p).holds role text :=
  Demand.holds_ofPieces.mpr h

/-- Names refer to a package only if a proposition holds, which it does when what is mentioned needs
the package. -/
theorem names_onlyIf {p : Prop} (htesting : path = "testing" → p) :
    Names (onlyIf path p) (fun x => x.Needs s.package path → p) s where
  remarks := Demand.takesRemarks_ofPieces (fun _ => by simp) .go
  ofClass _ _ := holds_onlyIf (by simp)
  function _ _ _ := holds_onlyIf (by simp)
  staticMember _ _ _ := holds_onlyIf (by simp)
  helper _ _ _ := holds_onlyIf (by simp)
  qualifier c hserved := by
    simp only [qualifier]
    split
    · exact Doc.obeys_nil
    · next hforeign =>
      refine Doc.obeys_cons (Doc.obeys_text (holds_onlyIf fun hpath => ?_)) (Doc.obeys_plain _)
      have hneeds : c.package = path ∧ path ≠ "" ∧ path ≠ s.package := by
        cases hpath
        simpa using hforeign
      rcases hserved with hserved | hserved | ⟨name, hserved⟩
      · exact hserved hneeds
      · exact hserved hneeds
      · exact hserved hneeds
  math hserved := holds_onlyIf fun hpath => by
    cases hpath
    exact hserved rfl
  assert member hserved := holds_onlyIf fun hpath => by
    cases hpath
    exact hserved rfl
  testing := holds_onlyIf fun hpath => by
    cases hpath
    exact htesting rfl

/-- A method refers to a package only if a proposition holds, which it does when what is written of
its code needs the package. -/
theorem method_onlyIf {config : Config} {m : Method} {p : Prop} (hm : m.IsBuilt config)
    (hlanguage : config.language = .go) (htesting : path = "testing" → p)
    (hbody : ∀ y ∈ m.body, ∀ x ∈ (written y).mentions, x.Needs s.package path → p) :
    ((methods s).method m).Obeys (onlyIf path p) := by
  have hplain := hm.plain (hm.isTabular_eq_false (Or.inr hlanguage))
  have hsame : (methods s).method { m with body := m.body.map written } =
      (methods s).method m := by
    simp only [MethodForms.method, methods, documentedAbove, stmts_written]
    rfl
  rw [← hsame]
  apply obeys_method (names_onlyIf htesting)
  · intro x hx
    have hmention : x ∈ Stmt.mentionsOf (m.body.map written) :=
      Method.mem_body_of_mem_mentions (m := { m with body := m.body.map written }) hplain hx
    obtain ⟨y', hy', hx⟩ := Stmt.mem_mentionsOf_iff.mp hmention
    obtain ⟨y, hy, rfl⟩ := List.mem_map.mp hy'
    exact hbody y hy x hx
  · intro l hl
    exact hm.isOrdinary.finite l (mem_bareLiteralsOf_of_written hl)

end Target.Go

/-! ## Imports of a file -/

namespace Method

/-- The code of some methods mentions something that needs a package. -/
def Need (ms : List Method) (home path : String) : Prop :=
  ∃ m ∈ ms, ∃ y ∈ m.body, ∃ x ∈ y.mentions, x.Needs home path

/-- The code of some methods needs a package in what Go writes of it. -/
def Refer (ms : List Method) (home path : String) : Prop :=
  ∃ m ∈ ms, ∃ y ∈ m.body, ∃ x ∈ (Target.Go.written y).mentions, x.Needs home path

instance (ms : List Method) (home path : String) : Decidable (Need ms home path) :=
  inferInstanceAs (Decidable (∃ m ∈ ms, ∃ y ∈ m.body, ∃ x ∈ y.mentions, x.Needs home path))

instance (ms : List Method) (home path : String) : Decidable (Refer ms home path) :=
  inferInstanceAs (Decidable (∃ m ∈ ms, ∃ y ∈ m.body,
    ∃ x ∈ (Target.Go.written y).mentions, x.Needs home path))

end Method

/-- What the text of a file refers to is `testing` or mentioned in what is written of the code. -/
theorem Target.Go.writes_of_reference {s : Surroundings} {f : SourceFile} {config : Config}
    {path : String} (hbuilt : ∀ m ∈ f.testClass.methods, m.IsBuilt config)
    (hlanguage : config.language = .go) {d : Layout.Doc} (hd : file s f = .ok d)
    (hreference : reference path ∈ d) :
    path = "testing" ∨ Method.Refer f.testClass.methods s.package path := by
  have hmethods : ∀ m ∈ f.testClass.methods, ((methods s).method m).Obeys
      (onlyIf path (path = "testing" ∨ Method.Refer f.testClass.methods s.package path)) := by
    intro m hm
    apply method_onlyIf (hbuilt m hm) hlanguage Or.inl
    exact fun y hy x hx hneeds => Or.inr ⟨m, hm, y, hy, x, hx, hneeds⟩
  have hremarks : (onlyIf path (path = "testing" ∨
      Method.Refer f.testClass.methods s.package path)).TakesRemarks .go :=
    Demand.takesRemarks_ofPieces (fun _ => by simp) .go
  exact obeys_file_of_methods hremarks hmethods d hd _ _ hreference rfl

namespace Generation

variable {g : Generation} {mentions : List Mention} {x : Mention}

theorem importsOfClass_of_go (hlanguage : g.language = .go) {c : ClassName} {i : Import} :
    i ∈ g.importsOfClass mentions c ↔
      i = .regular c.package none ∧ c.package ≠ "" ∧ c.package ≠ g.testPackage := by
  simp only [importsOfClass, hlanguage, ClassName.isGlobal]
  split
  · next hglobal => simp [String.isEmpty_iff.mp hglobal]
  · next hglobal =>
    have hnonempty : c.package ≠ "" := by simpa using hglobal
    split
    · next hnear => simp [hnear]
    · next hforeign => simp [hnonempty, hforeign]

/-- What a mention imports in Go is a package that it needs. -/
theorem needs_of_mem_importsOfMention (hlanguage : g.language = .go) {i : Import}
    (hx : ∀ h, x ≠ .helper h) (hi : i ∈ g.importsOfMention mentions x) :
    ∃ path, i = .regular path none ∧ x.Needs g.testPackage path := by
  cases x with
  | ofClass c =>
      obtain ⟨rfl, hneeds⟩ := (importsOfClass_of_go hlanguage).mp hi
      exact ⟨c.package, rfl, rfl, hneeds⟩
  | typeClass c =>
      simp only [importsOfMention, hlanguage] at hi
      obtain ⟨rfl, hneeds⟩ := (importsOfClass_of_go hlanguage).mp hi
      exact ⟨c.package, rfl, rfl, hneeds⟩
  | function module name =>
      simp only [importsOfMention, importsOfFunction, hlanguage] at hi
      split at hi
      · cases hi
      · obtain ⟨rfl, hneeds⟩ := (importsOfClass_of_go hlanguage).mp hi
        exact ⟨module.package, rfl, rfl, hneeds⟩
  | helper h => exact absurd rfl (hx h)
  | assertion member =>
      simp only [importsOfMention, isJvm_of_go hlanguage] at hi
      split at hi <;> cases hi
  | mocking member =>
      simp only [importsOfMention, isJvm_of_go hlanguage] at hi
      cases hi
  | staticMocks =>
      simp only [importsOfMention, isJvm_of_go hlanguage] at hi
      cases hi
  | nonFinite =>
      simp only [importsOfMention, hlanguage, if_pos] at hi
      exact ⟨"math", List.mem_singleton.mp hi, rfl⟩

/-- A package that a mention needs in Go is that of the assertions or imported for it. -/
theorem mem_importsOfMention_of_needs (hlanguage : g.language = .go) {path : String}
    (hneeds : x.Needs g.testPackage path) :
    path = Target.Go.assertPackage ∨ .regular path none ∈ g.importsOfMention mentions x := by
  have hclass : ∀ c : ClassName, c.package = path ∧ path ≠ "" ∧ path ≠ g.testPackage →
      .regular path none ∈ g.importsOfClass mentions c := by
    rintro c ⟨rfl, hforeign⟩
    exact (importsOfClass_of_go hlanguage).mpr ⟨rfl, hforeign⟩
  cases x with
  | ofClass c => exact Or.inr (hclass c hneeds)
  | typeClass c =>
      simp only [importsOfMention, hlanguage]
      exact Or.inr (hclass c hneeds)
  | function module name =>
      have hnonempty : module.isGlobal = false := by
        obtain ⟨rfl, hnonempty, -⟩ := hneeds
        simpa [ClassName.isGlobal] using hnonempty
      simp only [importsOfMention, importsOfFunction, hlanguage, hnonempty]
      exact Or.inr (hclass module hneeds)
  | assertion member => exact Or.inl hneeds
  | nonFinite =>
      cases hneeds
      simp [importsOfMention, hlanguage]
  | helper h => exact hneeds.elim
  | mocking member => exact hneeds.elim
  | staticMocks => exact hneeds.elim

end Generation

namespace Construction.Follows

open Layout.Rendering

variable {c : Construction} {g : Generation} {sets : List TestSet} {path : String}

/-- A class for Go mentions what the bodies of its methods do, and no helpers. -/
theorem mem_body_of_go (h : c.Follows g sets) (hlanguage : g.config.language = .go) {x : Mention}
    (hx : x ∈ c.generation.mentionsOfClass c.file.testClass) :
    (∃ m ∈ c.file.testClass.methods, ∃ y ∈ m.body, x ∈ y.mentions) ∧ ∀ k, x ≠ .helper k := by
  have hgo : c.generation.language = .go := h.language_eq.trans hlanguage
  have hjvm := Generation.isJvm_of_go hgo
  have hannotations : c.file.testClass.annotations = [] := by
    rw [h.testClass_eq]
    simp [Generation.testClass, Generation.extensionAnnotations, hjvm]
  simp only [Generation.mentionsOfClass, hannotations, hjvm] at hx
  obtain ⟨m, hm, hx⟩ := List.mem_flatMap.mp hx
  have hbuilt := h.built m hm
  have hplain := hbuilt.plain (hbuilt.isTabular_eq_false (Or.inr hlanguage))
  simp only [Generation.mentionsOfMethod, hjvm, Bool.false_eq_true, if_false,
    List.nil_append] at hx
  have hbody := Method.mem_body_of_mem_mentions hplain hx
  refine ⟨⟨m, hm, Stmt.mem_mentionsOf_iff.mp hbody⟩, ?_⟩
  rintro k rfl
  exact hbuilt.not_call (Or.inr hlanguage) k hbody

/-- A file for Go imports `testing`, the assertions and the packages that its code mentions. -/
theorem mem_imports_iff_of_go (h : c.Follows g sets) (hlanguage : g.config.language = .go)
    (hframework : g.config.framework = .goTesting) {i : Import} :
    i ∈ c.file.imports ↔ ∃ path, i = .regular path none ∧
      (path = "testing" ∨ path = Target.Go.assertPackage ∨
        Method.Need c.file.testClass.methods c.generation.testPackage path) := by
  have hgo : c.generation.language = .go := h.language_eq.trans hlanguage
  have hreach : ∀ i, c.generation.inReach i = false := by
    intro i
    cases i <;> simp [Generation.inReach, hgo]
  have hframework : c.generation.config.framework.imports =
      [.regular "testing" none, .regular Target.Go.assertPackage none] := by
    rw [h.config_eq, hframework]
    rfl
  rw [h.imports_eq]
  constructor
  · intro hi
    rcases Generation.mem_importsInOrder_iff.mp (Generation.mem_importsOf_iff.mp hi).1 with
      hneeded | ⟨x, hx, hi⟩
    · rw [hframework] at hneeded
      rcases List.mem_cons.mp hneeded with rfl | hneeded
      · exact ⟨_, rfl, Or.inl rfl⟩
      · exact ⟨_, List.mem_singleton.mp hneeded, Or.inr (Or.inl rfl)⟩
    · obtain ⟨⟨m, hm, y, hy, hmention⟩, hnohelper⟩ := h.mem_body_of_go hlanguage hx
      obtain ⟨path, rfl, hneeds⟩ := Generation.needs_of_mem_importsOfMention hgo hnohelper hi
      exact ⟨path, rfl, Or.inr (Or.inr ⟨m, hm, y, hy, x, hmention, hneeds⟩)⟩
  · rintro ⟨path, rfl, hcases⟩
    have hneeded : path = "testing" ∨ path = Target.Go.assertPackage →
        .regular path none ∈ c.generation.importsOf c.file.testClass := by
      intro hpath
      refine Generation.importsOf_of_framework ?_ (hreach _)
      rw [hframework]
      simpa using hpath
    rcases hcases with htesting | hassert | ⟨m, hm, y, hy, x, hx, hneeds⟩
    · exact hneeded (Or.inl htesting)
    · exact hneeded (Or.inr hassert)
    · rcases Generation.mem_importsOfMention_of_needs hgo hneeds with hassert | hi
      · exact hneeded (Or.inr hassert)
      · have hkind := (h.built m hm).kind_ne_helper (Or.inr hlanguage)
        have hmention := Target.Method.mem_mentions_of_mem_body hkind
          (Stmt.mem_mentionsOf_iff.mpr ⟨y, hy, hx⟩)
        exact (Generation.importsOf_of_mention
          (Generation.mem_mentionsOfClass_of_method hm hmention) hi).resolve_right
          (by simp [hreach])

/-- The text of a file for Go that has tests refers to `testing` and to the packages that its code
mentions in what is written of it. -/
theorem reference_mem_iff_of_go (h : c.Follows g sets) (hlanguage : g.config.language = .go)
    (hmocks : g.config.staticMocking ≠ .off → g.config.language.supportsMocking = true)
    (htests : c.file.testClass.methods ≠ []) {d : Layout.Doc}
    (hd : Target.fileDoc c.generation.settings c.file = .ok d) :
    Target.Go.reference path ∈ d ↔
      path = "testing" ∨ Method.Refer c.file.testClass.methods c.generation.testPackage path := by
  have hsettings : c.generation.settings.language = .go := h.language_eq.trans hlanguage
  have hkind : c.file.testClass.kind = .test := by
    rw [h.testClass_eq]
    rfl
  have hpackage : (Target.Surroundings.ofFile c.generation.settings c.file).package =
      c.generation.testPackage := by
    rw [h.file_eq]
    exact Generation.package_ofFile h.testClass_package
  simp only [Target.fileDoc, hsettings] at hd
  rw [← hpackage]
  constructor
  · intro hreference
    exact Target.Go.writes_of_reference h.built hlanguage hd hreference
  · have hmethod : ∀ m ∈ c.file.testClass.methods, _ → Target.Go.reference path ∈ d :=
      fun m hm hshows => Target.Go.shows_file hkind hm
        (Target.Go.shows_method ((h.built m hm).kind_ne_helper (Or.inr hlanguage)) hshows) d hd
    rintro (rfl | ⟨m, hm, y, hy, x, hx, hneeds⟩)
    · obtain ⟨m, hm⟩ := List.exists_mem_of_ne_nil _ htests
      exact hmethod m hm (Or.inl (Target.Go.shows_testing m))
    · refine hmethod m hm (Or.inr (Target.Dialect.shows_stmts hy ?_))
      exact Target.Go.shows_built hlanguage hmocks ((h.built m hm).body y hy) hx hneeds

end Construction.Follows

/-- A generated file for Go imports `testing`, the assertions and the packages that its code
mentions; when it has tests, its text refers to `testing` and to those packages alone that its code
mentions outside of the types of variables with a value and of the classes of expected errors. -/
theorem go_imports_and_references {cut : ClassName} {config : Config} {gen : Generator}
    {sets : List TestSet} {className : Option String} {out : GeneratedTests}
    (hnew : Generator.new cut config = .ok gen) (hlanguage : config.language = .go)
    (hout : gen.generate sets className = .ok out) :
    ∃ c d, (gen.base.derive className true).construct sets = .ok c ∧
      Target.fileDoc c.generation.settings c.file = .ok d ∧
      out.code = d.toText
        (Target.Surroundings.ofFile c.generation.settings c.file).methodForms.dialect.tab ∧
      (∀ i, i ∈ c.file.imports ↔ ∃ path, i = .regular path none ∧
        (path = "testing" ∨ path = Target.Go.assertPackage ∨
          Method.Need c.file.testClass.methods c.generation.testPackage path)) ∧
      (c.file.testClass.methods ≠ [] → ∀ path,
        Target.Go.reference path ∈ d ↔ path = "testing" ∨
          Method.Refer c.file.testClass.methods c.generation.testPackage path) := by
  obtain ⟨c, d, hconstruct, hfollows, hdoc, hcode⟩ := Generator.exists_doc_of_generate_ok hout
  obtain ⟨rfl, hvalid⟩ := Generator.eq_of_new_ok hnew
  have hframework : config.framework = .goTesting := by
    have hmem := Config.framework_mem_of_validate hvalid
    rw [hlanguage] at hmem
    exact List.mem_singleton.mp hmem
  refine ⟨c, d, hconstruct, hdoc, hcode, ?_, ?_⟩
  · exact fun i => hfollows.mem_imports_iff_of_go hlanguage hframework
  · intro htests path
    exact hfollows.reference_mem_iff_of_go hlanguage (Config.supportsMocking_of_validate hvalid)
      htests hdoc

/-- A run of a function in Go that gives no point of another package back. -/
def lostPoint : TestSet :=
  ⟨⟨⟨"example.com/calc", "calc"⟩, "Origin", [], .ofClass ⟨"example.com/geo", "Point"⟩, .function⟩,
    [.ofArguments [] (.returning .null)], [], .empty⟩

/-- The type of the result alone mentions the package of points, which is imported and not referred
to. -/
theorem go_imports_and_references_lostPoint :
    ∃ gen out, Generator.new ⟨"example.com/calc", "calc"⟩ (.forLanguage .go) = .ok gen ∧
      (Config.forLanguage .go).language = .go ∧ gen.generate [lostPoint] none = .ok out ∧
      ∃ c d, (gen.base.derive none true).construct [lostPoint] = .ok c ∧
        Target.fileDoc c.generation.settings c.file = .ok d ∧
        .regular "example.com/geo" none ∈ c.file.imports ∧
        Target.Go.reference "example.com/geo" ∉ d := by
  have hvalid : (Config.forLanguage .go).validate = .ok () := rfl
  have hnew : Generator.new ⟨"example.com/calc", "calc"⟩ (.forLanguage .go) =
      .ok ⟨.new ⟨"example.com/calc", "calc"⟩ (.forLanguage .go)⟩ := rfl
  have hrun : ((((Generation.new ⟨"example.com/calc", "calc"⟩ (.forLanguage .go)).derive none
      true).construct [lostPoint]).toOption.any fun c =>
        let ms := c.file.testClass.regions.flatMap Region.methods
        ms ≠ [] ∧ (∀ m ∈ ms, Stmt.arrayTypesOf m.body = []) ∧
          Method.Need ms c.generation.testPackage "example.com/geo" ∧
          ¬Method.Refer ms c.generation.testPackage "example.com/geo") = true := by
    decide +kernel
  obtain ⟨c, hc, hfollows⟩ := ((Generation.new ⟨"example.com/calc", "calc"⟩
    (.forLanguage .go)).derive none true).construct_follows [lostPoint]
  rw [hc] at hrun
  obtain ⟨htests, harrays, hneed, hnone⟩ := of_decide_eq_true hrun
  have hmethods : c.file.testClass.methods = c.file.testClass.regions.flatMap Region.methods := by
    rw [TestClass.methods, hfollows.statics_of_go rfl, List.append_nil]
  have hwritten : (Target.fileDoc c.generation.settings c.file).Succeeds := by
    refine (hfollows.succeeds_fileDoc_iff_of_go rfl (Config.supportsMocking_of_validate hvalid)).mpr
      fun m hm t ht => ?_
    rw [harrays m hm] at ht
    cases ht
  obtain ⟨out, hout⟩ := (Generator.generate_succeeds_iff hc).mpr hwritten
  obtain ⟨c', d, hc', hd, -, himports, hreferences⟩ := go_imports_and_references hnew rfl hout
  rw [hc] at hc'
  cases hc'
  rw [hmethods] at himports hreferences
  refine ⟨_, out, hnew, rfl, hout, c, d, hc, hd, ?_, ?_⟩
  · exact (himports _).mpr ⟨_, rfl, Or.inr (Or.inr hneed)⟩
  · intro hreference
    rcases (hreferences htests _).mp hreference with htesting | hrefer
    · exact absurd htesting (by decide)
    · exact hnone hrefer

end TestWriter
