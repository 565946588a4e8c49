import TestWriter.Proofs.FileHeads
import TestWriter.Proofs.NamedClasses
import TestWriter.Proofs.WrittenFiles

/-!
# Agreement on the names of classes

Two dialects that write some classes alike write code alike that names only these.  Main statement:
in surroundings that differ in their imports, the class of a file of the JVM is written alike when
the imports make no difference to the name of any class in it.
-/

namespace TestWriter

open Layout

namespace Target

open Rendering

/-! ## Dialects -/

/-- Two dialects write everything alike that names only classes of a kind. -/
structure Dialect.AgreeOn (P : ClassName → Prop) (d d' : Dialect) : Prop where
  language : d.language = d'.language
  words : d.words = d'.words
  literal : d.literal = d'.literal
  identifier : d.identifier = d'.identifier
  comments : d.comments = d'.comments
  documentation : d.documentation = d'.documentation
  branch : d.branch = d'.branch
  switch : d.switch = d'.switch
  throw : d.throw = d'.throw
  assertEquals : d.assertEquals = d'.assertEquals
  assertTrue : d.assertTrue = d'.assertTrue
  assertNull : d.assertNull = d'.assertNull
  assertThrows : d.assertThrows = d'.assertThrows
  fail : d.fail = d'.fail
  stub : d.stub = d'.stub
  callOn : d.callOn = d'.callOn
  lambda : d.lambda = d'.lambda
  equal : d.equal = d'.equal
  notNull : d.notNull = d'.notNull
  length : d.length = d'.length
  className : ∀ c, c.isGlobal = true ∨ P c → d.className c = d'.className c
  typeName : ∀ t, NamesOnly P t.mentions → d.typeName t = d'.typeName t
  declare : ∀ name t isMutable initial, NamesOnly P t.mentions →
    d.declare name t isMutable initial = d'.declare name t isMutable initial
  mockedStatic : ∀ handle c forms body, c.isGlobal = true ∨ P c →
    d.mockedStatic handle c forms body = d'.mockedStatic handle c forms body
  construct : ∀ c rs, c.isGlobal = true ∨ P c → d.construct c rs = d'.construct c rs
  callStatic : ∀ c method rs, c.isGlobal = true ∨ P c →
    d.callStatic c method rs = d'.callStatic c method rs
  callModule : ∀ c method rs, c.isGlobal = true ∨ P c →
    d.callModule c method rs = d'.callModule c method rs
  staticField : ∀ c name, c.isGlobal = true ∨ P c → d.staticField c name = d'.staticField c name
  allocate : ∀ t size, NamesOnly P t.mentions → d.allocate t size = d'.allocate t size
  arrayOf : ∀ t onLines rs, NamesOnly P t.mentions →
    d.arrayOf t onLines rs = d'.arrayOf t onLines rs
  cast : ∀ t r, NamesOnly P t.mentions → d.cast t r = d'.cast t r
  classOf : ∀ c, c.isGlobal = true ∨ P c → d.classOf c = d'.classOf c
  mock : ∀ c, c.isGlobal = true ∨ P c → d.mock c = d'.mock c

end Target

namespace NamesOnly

variable {P : ClassName → Prop} {ms : List Mention} {x : Mention}

/-- What holds of the classes of the first mention, and the other mentions. -/
theorem of_cons (h : NamesOnly P (x :: ms)) :
    (∀ c ∈ x.classes, c.isGlobal = true ∨ P c) ∧ NamesOnly P ms :=
  List.forall_mem_cons.mp h

/-- What holds of the class that the first mention names, and the other mentions. -/
theorem of_consClass {c : ClassName} (h : NamesOnly P (x :: ms)) (hx : c ∈ x.classes) :
    (c.isGlobal = true ∨ P c) ∧ NamesOnly P ms :=
  ⟨h.of_cons.1 c hx, h.of_cons.2⟩

end NamesOnly

namespace Target.Dialect.AgreeOn

open Rendering

variable {P : ClassName → Prop} {d d' : Dialect}

theorem finish (hd : AgreeOn P d d') : d.finish = d'.finish := by
  simp only [Dialect.finish, hd.words]

theorem reference (hd : AgreeOn P d d') : d.reference = d'.reference := by
  funext name
  simp only [Dialect.reference, hd.identifier]

theorem callHelper (hd : AgreeOn P d d') : d.callHelper = d'.callHelper := by
  funext h rs
  simp only [Dialect.callHelper, hd.language]

theorem operator (hd : AgreeOn P d d') (op : Connective) : d.operator op = d'.operator op := by
  cases op with
  | and => simp only [Dialect.operator, hd.words]
  | or => simp only [Dialect.operator, hd.words]

theorem comment (hd : AgreeOn P d d') : d.comment = d'.comment := by
  funext text
  simp only [Dialect.comment, hd.words]

mutual

/-- An expression is written alike when it names only the classes of the kind. -/
theorem expr (hd : AgreeOn P d d') :
    ∀ e : Expr, NamesOnly P e.mentions → d.expr e = d'.expr e
  | .literal l, _ => by simp only [Dialect.expr, hd.literal]
  | .ref name, _ => by simp only [Dialect.expr, hd.reference]
  | .construct owner arguments, h => by
      obtain ⟨howner, harguments⟩ := h.of_consClass (List.mem_singleton_self owner)
      simp only [Dialect.expr, exprs hd arguments harguments, hd.construct owner _ howner]
  | .callOn receiver method arguments, h => by
      obtain ⟨hreceiver, harguments⟩ := NamesOnly.append_iff.mp h
      simp only [Dialect.expr, expr hd receiver hreceiver, exprs hd arguments harguments,
        hd.callOn]
  | .callStatic owner method arguments, h => by
      obtain ⟨howner, harguments⟩ := h.of_consClass (List.mem_singleton_self owner)
      simp only [Dialect.expr, exprs hd arguments harguments, hd.callStatic owner _ _ howner]
  | .callModule module method arguments, h => by
      obtain ⟨hmodule, harguments⟩ := h.of_consClass (List.mem_singleton_self module)
      simp only [Dialect.expr, exprs hd arguments harguments, hd.callModule module _ _ hmodule]
  | .callHelper helper arguments, h => by
      simp only [Dialect.expr, exprs hd arguments h.of_cons.2, hd.callHelper]
  | .field target name, h => by
      simp only [Dialect.expr, expr hd target h, hd.identifier]
  | .staticField owner name, h => by
      simp only [Dialect.expr,
        hd.staticField owner name (h.of_consClass (List.mem_singleton_self owner)).1]
  | .element array index, h => by
      obtain ⟨harray, hindex⟩ := NamesOnly.append_iff.mp h
      simp only [Dialect.expr, expr hd array harray, expr hd index hindex]
  | .allocate element size, h => by simp only [Dialect.expr, hd.allocate element size h]
  | .arrayOf element values, h => by
      obtain ⟨helement, hvalues⟩ := NamesOnly.append_iff.mp h
      simp only [Dialect.expr, exprs hd values hvalues, hd.arrayOf element _ _ helement]
  | .lambda ps body, h => by
      simp only [Dialect.expr, blockOf hd body (NamesOnly.append_iff.mp h).2, hd.lambda]
  | .equal left right, h => by
      obtain ⟨hleft, hright⟩ := NamesOnly.append_iff.mp h
      simp only [Dialect.expr, expr hd left hleft, expr hd right hright, hd.equal]
  | .logical op left right, h => by
      obtain ⟨hleft, hright⟩ := NamesOnly.append_iff.mp h
      simp only [Dialect.expr, expr hd left hleft, expr hd right hright, hd.operator]
  | .not operand, h => by simp only [Dialect.expr, expr hd operand h, hd.words]
  | .cast type operand, h => by
      obtain ⟨htype, hoperand⟩ := NamesOnly.append_iff.mp h
      simp only [Dialect.expr, expr hd operand hoperand, hd.cast type _ htype]
  | .notNull operand, h => by simp only [Dialect.expr, expr hd operand h, hd.notNull]
  | .classOf owner, h => by
      simp only [Dialect.expr, hd.classOf owner (h.of_consClass (List.mem_singleton_self owner)).1]
  | .length operand, h => by simp only [Dialect.expr, expr hd operand h, hd.length]
  | .mock owner, h => by
      have howner := (h.of_cons.2.of_consClass (List.mem_singleton_self owner)).1
      simp only [Dialect.expr, hd.mock owner howner]

theorem exprs (hd : AgreeOn P d d') :
    ∀ es : List Expr, NamesOnly P (Expr.mentionsOf es) → d.exprs es = d'.exprs es
  | [], _ => rfl
  | e :: rest, h => by
      obtain ⟨he, hrest⟩ := NamesOnly.append_iff.mp h
      simp only [Dialect.exprs, expr hd e he, exprs hd rest hrest]

/-- A statement is written alike when it names only the classes of the kind. -/
theorem stmt (hd : AgreeOn P d d') :
    ∀ s : Stmt, NamesOnly P s.mentions → d.stmt s = d'.stmt s
  | .declare name type isMutable none, h => by
      simp only [Dialect.stmt, Dialect.optionalExpr, hd.declare name type _ _ h]
  | .declare name type isMutable (some e), h => by
      obtain ⟨htype, he⟩ := NamesOnly.append_iff.mp h
      simp only [Dialect.stmt, Dialect.optionalExpr, expr hd e he, hd.declare name type _ _ htype]
  | .assign target value, h => by
      obtain ⟨htarget, hvalue⟩ := NamesOnly.append_iff.mp h
      simp only [Dialect.stmt, expr hd target htarget, expr hd value hvalue, hd.finish]
  | .eval e, h => by simp only [Dialect.stmt, expr hd e h, hd.finish]
  | .ret none, _ => by simp only [Dialect.stmt, hd.finish]
  | .ret (some e), h => by
      have he : NamesOnly P e.mentions := h
      simp only [Dialect.stmt, expr hd e he, hd.finish]
  | .branch condition thenBody elseBody, h => by
      obtain ⟨hfirst, helse⟩ := NamesOnly.append_iff.mp h
      obtain ⟨hcondition, hthen⟩ := NamesOnly.append_iff.mp hfirst
      simp only [Dialect.stmt, expr hd condition hcondition, blockOf hd thenBody hthen,
        blockOf hd elseBody helse, hd.branch]
  | .switch value labelled fallback, h => by
      obtain ⟨hfirst, hfallback⟩ := NamesOnly.append_iff.mp h
      obtain ⟨hvalue, hlabelled⟩ := NamesOnly.append_iff.mp hfirst
      simp only [Dialect.stmt, expr hd value hvalue, cases hd labelled hlabelled,
        blockOf hd fallback hfallback, hd.switch]
  | .throw value, h => by
      have hvalue : NamesOnly P value.mentions := h
      simp only [Dialect.stmt, expr hd value hvalue, hd.throw]
  | .mockedStatic handle owner stubbings body, h => by
      obtain ⟨hfirst, hbody⟩ := NamesOnly.append_iff.mp h
      obtain ⟨hnames, hstubbings⟩ := NamesOnly.append_iff.mp hfirst
      have howner := (hnames.of_cons.2.of_cons.2.of_consClass (List.mem_singleton_self owner)).1
      simp only [Dialect.stmt, stubForms hd stubbings hstubbings, stmts hd body hbody,
        hd.mockedStatic handle owner _ _ howner]
  | .stub mock stubbing, h => by
      obtain ⟨hmock, hstubbing⟩ := NamesOnly.append_iff.mp h.of_cons.2
      simp only [Dialect.stmt, expr hd mock hmock, stubForm hd stubbing hstubbing, hd.stub]
  | .assertEquals expected actual delta deep, h => by
      obtain ⟨hexpected, hactual⟩ := NamesOnly.append_iff.mp h.of_cons.2
      simp only [Dialect.stmt, expr hd expected hexpected, expr hd actual hactual,
        hd.assertEquals]
  | .assertTrue condition, h => by
      simp only [Dialect.stmt, expr hd condition h.of_cons.2, hd.assertTrue]
  | .assertNull value, h => by
      simp only [Dialect.stmt, expr hd value h.of_cons.2, hd.assertNull]
  | .assertThrows exception body, h => by
      obtain ⟨hexception, hbody⟩ := NamesOnly.append_iff.mp h.of_cons.2
      simp only [Dialect.stmt, expr hd exception hexception, blockOf hd body hbody,
        hd.assertThrows]
  | .fail message, _ => by simp only [Dialect.stmt, hd.fail]
  | .comment text, _ => by simp only [Dialect.stmt, hd.comment]
  | .comments lines, _ => by simp only [Dialect.stmt, hd.comments]
  | .blank, _ => rfl

/-- Statements are written alike when they name only the classes of the kind. -/
theorem stmts (hd : AgreeOn P d d') :
    ∀ body : List Stmt, NamesOnly P (Stmt.mentionsOf body) → d.stmts body = d'.stmts body
  | [], _ => rfl
  | s :: rest, h => by
      obtain ⟨hs, hrest⟩ := NamesOnly.append_iff.mp h
      simp only [Dialect.stmts, stmt hd s hs, stmts hd rest hrest]

theorem blockOf (hd : AgreeOn P d d') :
    ∀ body : List Stmt, NamesOnly P (Stmt.mentionsOf body) → d.blockOf body = d'.blockOf body
  | [], _ => rfl
  | s :: rest, h => by
      obtain ⟨hs, hrest⟩ := NamesOnly.append_iff.mp h
      have hfirst := stmt hd s hs
      have hothers := stmts hd rest hrest
      cases s with
      | eval e =>
          have he := expr hd e hs
          cases rest with
          | nil => simp only [Dialect.blockOf, he, hd.finish]
          | cons s' rest' => simp only [Dialect.blockOf, hfirst, hothers]
      | _ => simp only [Dialect.blockOf, hfirst, hothers]

theorem stubForm (hd : AgreeOn P d d') :
    ∀ s : Stubbing, NamesOnly P s.mentions → d.stubForm s = d'.stubForm s
  | .mk method arguments returns, h => by
      obtain ⟨harguments, hreturns⟩ := NamesOnly.append_iff.mp h
      simp only [Dialect.stubForm, exprs hd arguments harguments, expr hd returns hreturns]

theorem stubForms (hd : AgreeOn P d d') :
    ∀ ss : List Stubbing, NamesOnly P (Stubbing.mentionsOf ss) → d.stubForms ss = d'.stubForms ss
  | [], _ => rfl
  | s :: rest, h => by
      obtain ⟨hs, hrest⟩ := NamesOnly.append_iff.mp h
      simp only [Dialect.stubForms, stubForm hd s hs, stubForms hd rest hrest]

theorem cases (hd : AgreeOn P d d') :
    ∀ cs : List SwitchCase, NamesOnly P (SwitchCase.mentionsOf cs) → d.cases cs = d'.cases cs
  | [], _ => rfl
  | .mk label body :: rest, h => by
      obtain ⟨hbody, hrest⟩ := NamesOnly.append_iff.mp h
      simp only [Dialect.cases, blockOf hd body hbody, cases hd rest hrest]

end

end Target.Dialect.AgreeOn

/-! ## Files of the JVM -/

namespace Target

open Rendering

variable {P : ClassName → Prop}

/-- Other imports make no difference to how classes of a kind are named. -/
def Surroundings.NamesAlike (s : Surroundings) (imports : List Import) (implicitPackage : String)
    (P : ClassName → Prop) : Prop :=
  ∀ c, c.isGlobal = true ∨ P c →
    s.className implicitPackage c = { s with imports := imports }.className implicitPackage c

theorem jvmAnnotations_congr {d d' : Dialect} (hd : d.AgreeOn P d') (suffix : String)
    {annotations : List AnnotationUse}
    (h : NamesOnly P (annotations.flatMap AnnotationUse.mentions)) :
    jvmAnnotations d suffix annotations = jvmAnnotations d' suffix annotations := by
  refine congrArg concat (List.map_congr_left fun a ha => ?_)
  have hmentions : NamesOnly P a.mentions :=
    fun x hx => h x (List.mem_flatMap_of_mem ha hx)
  obtain ⟨howner, harguments⟩ := hmentions.of_consClass (List.mem_singleton_self a.owner)
  have hname := hd.className a.owner howner
  dsimp only
  rw [hname]
  congr 3
  refine congrArg (fun rs => say "(" ++ commas rs ++ say ")") (List.map_congr_left ?_)
  rintro ⟨name, e⟩ hargument
  have he : NamesOnly P e.mentions :=
    fun x hx => harguments x (List.mem_flatMap_of_mem hargument hx)
  cases e with
  | classOf c =>
      have hc := hd.className c (he.of_consClass (List.mem_singleton_self c)).1
      cases name <;> simp only [hc]
  | _ => cases name <;> simp only [hd.expr _ he]

namespace MethodForms

variable {f f' : MethodForms}

mutual

/-- A region is written alike when its methods are, and so are regions and comments. -/
theorem region_congr (hwords : f.dialect.words = f'.dialect.words)
    (hcomments : f.dialect.comments = f'.dialect.comments) :
    ∀ r : Region, (∀ m ∈ r.methods, f.method m = f'.method m) → f.region r = f'.region r
  | .mk header documentation members, h => by
      have hheader : f.regionHeader header = f'.regionHeader header := by
        cases header <;> simp only [regionHeader, hwords]
      have hfooter : f.regionFooter header = f'.regionFooter header := by
        cases header <;> simp only [regionFooter, hwords]
      simp only [region, regionDocumentation, hheader, hfooter, hcomments,
        items_congr hwords hcomments header.isSome members h]

theorem items_congr (hwords : f.dialect.words = f'.dialect.words)
    (hcomments : f.dialect.comments = f'.dialect.comments) (apart : Bool) :
    ∀ members : List RegionItem, (∀ m ∈ Region.methodsOf members, f.method m = f'.method m) →
      f.items apart members = f'.items apart members
  | [], _ => rfl
  | .region r :: rest, h => by
      obtain ⟨hr, hrest⟩ := List.forall_mem_append.mp h
      simp only [items, region_congr hwords hcomments r hr,
        items_congr hwords hcomments true rest hrest]
  | .method m :: rest, h => by
      obtain ⟨hm, hrest⟩ := List.forall_mem_cons.mp h
      simp only [items, hm, items_congr hwords hcomments true rest hrest]

end

theorem regions_congr (hwords : f.dialect.words = f'.dialect.words)
    (hcomments : f.dialect.comments = f'.dialect.comments) {rs : List Region}
    (h : ∀ m ∈ rs.flatMap Region.methods, f.method m = f'.method m) :
    f.regions rs = f'.regions rs :=
  congrArg (separated newline) (List.map_congr_left fun r hr =>
    region_congr hwords hcomments r fun m hm =>
      h m (List.mem_flatMap_of_mem (List.mem_of_mem_filter hr) hm))

end MethodForms

/-- The annotations and the code of a method name classes of a kind only. -/
def NamesIn (P : ClassName → Prop) (framework : Framework) (m : Method) : Prop :=
  NamesOnly P ((methodAnnotations framework m).flatMap AnnotationUse.mentions) ∧
    NamesOnly P m.codeMentions

namespace NamesIn

variable {framework : Framework} {m : Method}

theorem parameter (h : NamesIn P framework m) {p : Parameter} (hp : p ∈ m.parameters) :
    NamesOnly P p.type.mentions :=
  fun x hx => h.2 x (List.mem_append_left _
    (List.mem_append_left _ (List.mem_flatMap_of_mem hp hx)))

theorem returnType (h : NamesIn P framework m) : NamesOnly P m.returnType.mentions :=
  (NamesOnly.append_iff.mp (NamesOnly.append_iff.mp h.2).1).2

theorem body (h : NamesIn P framework m) : NamesOnly P (Stmt.mentionsOf m.body) :=
  (NamesOnly.append_iff.mp h.2).2

end NamesIn

/-- A method is written alike when its opening is. -/
theorem documentedAbove_congr {d d' : Dialect} (hd : d.AgreeOn P d') {m : Method}
    {opening opening' closing : Method → Rendering} (hopening : opening m = opening' m)
    (hbody : NamesOnly P (Stmt.mentionsOf m.body)) :
    documentedAbove d opening closing m = documentedAbove d' opening' closing m := by
  simp only [documentedAbove, hd.documentation, hopening, hd.stmts m.body hbody]

/-- A class, its supertypes and its methods name classes of a kind only. -/
structure ClassNamesIn (P : ClassName → Prop) (framework : Framework) (c : TestClass) : Prop where
  annotations : NamesOnly P (c.annotations.flatMap AnnotationUse.mentions)
  superclass : ∀ k ∈ c.superclass, k.isGlobal = true ∨ P k
  interfaces : ∀ k ∈ c.interfaces, k.isGlobal = true ∨ P k
  methods : ∀ m ∈ c.methods, Target.NamesIn P framework m

namespace Java

variable {s : Surroundings} {imports : List Import}

theorem className_congr (h : s.NamesAlike imports "java.lang" P) {c : ClassName}
    (hc : c.isGlobal = true ∨ P c) :
    className s c = className { s with imports := imports } c := by
  simp only [className, h c hc]

theorem typeName_congr (h : s.NamesAlike imports "java.lang" P) {t : DataType}
    (ht : NamesOnly P t.mentions) :
    typeName s t = typeName { s with imports := imports } t := by
  induction t with
  | ofClass c => exact className_congr h (ht.of_consClass (List.mem_singleton_self c)).1
  | array element ih => simp only [typeName, ih ht]
  | _ => rfl

theorem innermost_mentions (t : DataType) : (innermost t).1.mentions = t.mentions := by
  induction t with
  | array element ih => exact ih
  | _ => rfl

theorem agreeOn (h : s.NamesAlike imports "java.lang" P)
    (hmocks : P ⟨"org.mockito", "MockedStatic"⟩) :
    (dialect s).AgreeOn P (dialect { s with imports := imports }) where
  language := rfl
  words := rfl
  literal := rfl
  identifier := rfl
  comments := rfl
  documentation := rfl
  branch := rfl
  switch := rfl
  throw := rfl
  assertEquals := rfl
  assertTrue := rfl
  assertNull := rfl
  assertThrows := rfl
  fail := rfl
  stub := rfl
  callOn := rfl
  lambda := rfl
  equal := rfl
  notNull := rfl
  length := rfl
  className c hc := className_congr h hc
  typeName t ht := congrArg Except.ok (typeName_congr h ht)
  declare name t isMutable initial ht := by simp only [dialect, typeName_congr h ht]
  mockedStatic handle c forms body hc := by
    simp only [dialect, className_congr h hc, className_congr h (Or.inr hmocks)]
  construct c rs hc := by simp only [dialect, className_congr h hc]
  callStatic c method rs hc := by simp only [dialect, callStatic, className_congr h hc]
  callModule c method rs hc := by simp only [dialect, callStatic, className_congr h hc]
  staticField c name hc := by simp only [dialect, className_congr h hc]
  allocate t size ht := by
    rw [← innermost_mentions] at ht
    simp only [dialect, typeName_congr h ht]
  arrayOf t onLines rs ht := by simp only [dialect, typeName_congr h ht]
  cast t r ht := by simp only [dialect, typeName_congr h ht]
  classOf c hc := by simp only [dialect, className_congr h hc]
  mock c hc := by simp only [dialect, className_congr h hc]

/-- A method is written alike when it names only the classes of the kind. -/
theorem method_congr (h : s.NamesAlike imports "java.lang" P)
    (hmocks : P ⟨"org.mockito", "MockedStatic"⟩) {m : Method}
    (hm : NamesIn P s.settings.framework m) :
    (methods s).method m = (methods { s with imports := imports }).method m := by
  have hd := agreeOn h hmocks
  have hparameters : m.parameters.map (parameter (dialect s)) =
      m.parameters.map (parameter (dialect { s with imports := imports })) :=
    List.map_congr_left fun p hp => by
      simp only [parameter, hd.typeName _ (hm.parameter hp), hd.reference]
  have hopening : opening s (dialect s) m =
      opening { s with imports := imports } (dialect { s with imports := imports }) m := by
    simp only [opening, jvmAnnotations_congr hd ".class" hm.1, hparameters,
      hd.typeName _ hm.returnType]
  cases hkind : m.kind with
  | helper k => simp only [MethodForms.method, hkind, methods]
  | _ =>
      simp only [MethodForms.method, hkind, methods]
      exact documentedAbove_congr hd hopening hm.body

/-- A class is written alike when it names only classes of the kind. -/
theorem classDoc_congr (h : s.NamesAlike imports "java.lang" P)
    (hmocks : P ⟨"org.mockito", "MockedStatic"⟩) {c : TestClass}
    (hc : ClassNamesIn P s.settings.framework c) :
    classDoc s c = classDoc { s with imports := imports } c := by
  have hd : (methods s).dialect.AgreeOn P (methods { s with imports := imports }).dialect :=
    agreeOn h hmocks
  have hregions : (methods s).regions (c.regions ++ [c.statics]) =
      (methods { s with imports := imports }).regions (c.regions ++ [c.statics]) :=
    MethodForms.regions_congr hd.words hd.comments ((forall_methods_iff c).mpr fun m hm =>
      method_congr h hmocks (hc.methods m hm))
  have hinterfaces :
      c.interfaces.map (fun i => (.ok ((methods s).dialect.className i) : Rendering)) =
        c.interfaces.map fun i =>
          .ok ((methods { s with imports := imports }).dialect.className i) :=
    List.map_congr_left fun i hi => congrArg Except.ok (hd.className i (hc.interfaces i hi))
  have hannotations := jvmAnnotations_congr hd ".class" hc.annotations
  have hsuperclass := hc.superclass
  simp only [classDoc, hannotations, hd.documentation, hinterfaces, hregions]
  cases hextends : c.superclass with
  | none => rfl
  | some superclass => simp only [hd.className superclass (hsuperclass superclass hextends)]

end Java

namespace Kotlin

variable {s : Surroundings} {imports : List Import}

theorem className_congr (h : s.NamesAlike imports "kotlin" P) {c : ClassName}
    (hc : c.isGlobal = true ∨ P c) :
    className s c = className { s with imports := imports } c := by
  simp only [className, h c hc]

theorem unmarkedType_congr (h : s.NamesAlike imports "kotlin" P) {t : DataType}
    (ht : NamesOnly P t.mentions) :
    unmarkedType s t = unmarkedType { s with imports := imports } t := by
  induction t with
  | ofClass c => exact className_congr h (ht.of_consClass (List.mem_singleton_self c)).1
  | array element ih =>
      cases element with
      | primitive p => rfl
      | ofClass c =>
          have hc : className s c = className { s with imports := imports } c := ih ht
          simp only [unmarkedType, hc]
      | _ => simp only [unmarkedType, ih ht]
  | _ => rfl

theorem typeName_congr (h : s.NamesAlike imports "kotlin" P) {t : DataType}
    (ht : NamesOnly P t.mentions) :
    typeName s t = typeName { s with imports := imports } t := by
  simp only [typeName, unmarkedType_congr h ht]

theorem agreeOn (h : s.NamesAlike imports "kotlin" P) :
    (dialect s).AgreeOn P (dialect { s with imports := imports }) where
  language := rfl
  words := rfl
  literal := rfl
  identifier := rfl
  comments := rfl
  documentation := rfl
  branch := rfl
  switch := rfl
  throw := rfl
  assertEquals := rfl
  assertTrue := rfl
  assertNull := rfl
  assertThrows := rfl
  fail := rfl
  stub := rfl
  callOn := rfl
  lambda := rfl
  equal := rfl
  notNull := rfl
  length := rfl
  className c hc := className_congr h hc
  typeName t ht := congrArg Except.ok (typeName_congr h ht)
  declare name t isMutable initial ht := by simp only [dialect, typeName_congr h ht]
  mockedStatic handle c forms body hc := by simp only [dialect, className_congr h hc]
  construct c rs hc := by simp only [dialect, className_congr h hc]
  callStatic c method rs hc := by simp only [dialect, className_congr h hc]
  callModule c method rs hc := rfl
  staticField c name hc := by simp only [dialect, className_congr h hc]
  allocate t size ht := by cases t <;> simp only [dialect, unmarkedType_congr h ht]
  arrayOf t onLines rs ht := by cases t <;> simp only [dialect, typeName_congr h ht]
  cast t r ht := by simp only [dialect, unmarkedType_congr h ht]
  classOf c hc := by simp only [dialect, className_congr h hc]
  mock c hc := by simp only [dialect, className_congr h hc]

/-- A method is written alike when it names only the classes of the kind. -/
theorem method_congr (h : s.NamesAlike imports "kotlin" P) {m : Method}
    (hm : NamesIn P s.settings.framework m) :
    (methods s).method m = (methods { s with imports := imports }).method m := by
  have hd := agreeOn h
  have hparameter : ∀ p ∈ m.parameters,
      parameter s p = parameter { s with imports := imports } p := by
    rintro ⟨name, type⟩ hp
    have htype : NamesOnly P type.mentions := hm.parameter hp
    cases type with
    | ofClass c =>
        simp only [parameter, className_congr h (htype.of_consClass (List.mem_singleton_self c)).1]
    | _ => simp only [parameter, typeName_congr h htype]
  have hopening : opening s (dialect s) m =
      opening { s with imports := imports } (dialect { s with imports := imports }) m := by
    simp only [opening, jvmAnnotations_congr hd "::class" hm.1, List.map_congr_left hparameter,
      unmarkedType_congr h hm.returnType]
  cases hkind : m.kind with
  | helper k => simp only [MethodForms.method, hkind, methods]
  | _ =>
      simp only [MethodForms.method, hkind, methods]
      exact documentedAbove_congr hd hopening hm.body

theorem body_congr (h : s.NamesAlike imports "kotlin" P) {c : TestClass}
    (hc : ClassNamesIn P s.settings.framework c) :
    body (methods s) c = body (methods { s with imports := imports }) c := by
  have hd : (methods s).dialect.AgreeOn P (methods { s with imports := imports }).dialect :=
    agreeOn h
  have hmethods : ∀ m ∈ c.methods,
      (methods s).method m = (methods { s with imports := imports }).method m :=
    fun m hm => method_congr h (hc.methods m hm)
  have hall := MethodForms.regions_congr hd.words hd.comments ((forall_methods_iff c).mpr hmethods)
  obtain ⟨hregions, hstatics⟩ := List.forall_mem_append.mp hmethods
  have hregions := MethodForms.regions_congr hd.words hd.comments hregions
  have hstatics := MethodForms.region_congr hd.words hd.comments c.statics hstatics
  simp only [body, hall, hregions, hstatics]

/-- A class is written alike when it names only classes of the kind. -/
theorem classDoc_congr (h : s.NamesAlike imports "kotlin" P) {c : TestClass}
    (hc : ClassNamesIn P s.settings.framework c) :
    classDoc s c = classDoc { s with imports := imports } c := by
  have hd : (methods s).dialect.AgreeOn P (methods { s with imports := imports }).dialect :=
    agreeOn h
  have hinterfaces :
      c.interfaces.map (fun i => (.ok ((methods s).dialect.className i) : Rendering)) =
        c.interfaces.map fun i =>
          .ok ((methods { s with imports := imports }).dialect.className i) :=
    List.map_congr_left fun i hi => congrArg Except.ok (hd.className i (hc.interfaces i hi))
  have hannotations := jvmAnnotations_congr hd "::class" hc.annotations
  have hsuperclass := hc.superclass
  simp only [classDoc, hannotations, hd.documentation, hinterfaces, body_congr h hc]
  cases hextends : c.superclass with
  | none => rfl
  | some superclass =>
      simp only [Option.map_some, hd.className superclass (hsuperclass superclass hextends)]

end Kotlin

end Target

end TestWriter
