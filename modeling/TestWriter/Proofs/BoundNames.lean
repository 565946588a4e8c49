import TestWriter.Proofs.FileHeads
import TestWriter.Proofs.WrittenFiles
import Mathlib.Data.List.Induction
import Mathlib.Data.List.Nodup

/-!
# Names bound by the imports of a script

In Python and JavaScript each line of imports binds the name of a module, or the names of members of
one module.  Main statement: which names the lines at the top of generated tests bind, and that they
are distinct exactly when no two members of different modules share a name and no member has the
name of the module of the framework.
-/

namespace TestWriter

open Layout Target

/-! ## Members by owner -/

namespace OrderedMap

variable {α β γ : Type} [DecidableEq α]

/-- When a write adds something to what its entry holds, it adds this to what all entries hold. -/
theorem flatMap_alter_perm {f : α × β → List γ} {key : α} {write : Option β → β} {added : List γ}
    (hnew : f (key, write none) = added)
    (hold : ∀ old, f (key, write (some old)) = f (key, old) ++ added) (m : OrderedMap α β) :
    ((m.alter key write).entries.flatMap f).Perm (m.entries.flatMap f ++ added) := by
  obtain ⟨entries⟩ := m
  simp only [alter]
  induction entries with
  | nil => simp [alterEntries, hnew]
  | cons entry rest ih =>
      unfold alterEntries
      split
      · next hkey =>
        subst hkey
        rw [List.flatMap_cons, List.flatMap_cons, hold, List.append_assoc, List.append_assoc]
        exact List.perm_append_comm.append_left _
      · rw [List.flatMap_cons, List.flatMap_cons, List.append_assoc]
        exact ih.append_left _

end OrderedMap

/-- The module and the name of an import of a member. -/
def Import.member? : Import → Option (String × String)
  | .regular .. => none
  | .member owner name => some (owner, name)

namespace Target

theorem membersByOwner_append_regular (imports : List Import) (path : String)
    (binding : Option String) :
    membersByOwner (imports ++ [.regular path binding]) = membersByOwner imports := by
  rw [membersByOwner, List.foldl_append]
  rfl

theorem membersByOwner_append_member (imports : List Import) (owner name : String) :
    membersByOwner (imports ++ [.member owner name]) =
      (membersByOwner imports).alter owner fun names => names.getD [] ++ [name] := by
  rw [membersByOwner, List.foldl_append]
  rfl

/-- The entries of the members hold each imported member once. -/
theorem flatMap_membersByOwner_perm (imports : List Import) :
    ((membersByOwner imports).entries.flatMap fun e => e.2.map fun name => (e.1, name)).Perm
      (imports.filterMap Import.member?) := by
  -- imports are added at the end, so the induction takes the last one away
  induction imports using List.reverseRecOn with
  | nil => exact List.Perm.refl _
  | append_singleton imports i ih =>
      rw [List.filterMap_append]
      cases i with
      | regular path binding =>
          rw [membersByOwner_append_regular, List.filterMap_cons_none rfl, List.filterMap_nil,
            List.append_nil]
          exact ih
      | member owner name =>
          rw [membersByOwner_append_member]
          refine (OrderedMap.flatMap_alter_perm rfl (fun old => List.map_append) _).trans ?_
          exact ih.append_right _

end Target

/-! ## Bindings -/

/-- What a line of imports binds in a script. -/
inductive Binding
  /-- A module as a whole, under a name. -/
  | whole (path name : String)
  /-- Members of a module, under their own names. -/
  | members (module : String) (names : List String)

namespace Binding

/-- The bound names, each with its module. -/
def bound : Binding → List (String × String)
  | .whole path name => [(path, name)]
  | .members module names => names.map fun name => (module, name)

/-- The bound names. -/
def names (b : Binding) : List String := b.bound.map Prod.snd

/-- The line of a binding in Python. -/
def pythonLine : Binding → String
  | .whole path name =>
    if name = path then "import " ++ path else "import " ++ path ++ " as " ++ name
  | .members module names => "from " ++ module ++ " import " ++ ", ".intercalate names

/-- The line of a binding in JavaScript. -/
def javaScriptLine : Binding → String
  | .whole path name => "const " ++ name ++ " = require(" ++ JavaScript.quote path ++ ");"
  | .members module names =>
    r"const {" ++ ", ".intercalate names ++ r"} = require(" ++ JavaScript.quote module ++ ");"

/-- The line of a binding in a language of scripts. -/
def line (language : Language) (b : Binding) : String :=
  if language = .python then b.pythonLine else b.javaScriptLine

end Binding

namespace Import

/-- The name that an import binds in a script, with its module. -/
def bound (language : Language) : Import → String × String
  | .regular path binding =>
    (path, binding.getD (if language = .python then path else JavaScript.moduleName path))
  | .member owner name => (owner, name)

/-- What an import of a whole module binds. -/
def whole? (language : Language) : Import → Option Binding
  | .regular path binding =>
    some (.whole path
      (binding.getD (if language = .python then path else JavaScript.moduleName path)))
  | .member .. => none

end Import

/-- The bindings of a script: those of whole modules, then one for each module with members. -/
def Binding.ofImports (language : Language) (imports : List Import) : List Binding :=
  imports.filterMap (Import.whole? language) ++
    (membersByOwner imports).entries.map fun e => .members e.1 e.2

namespace Target

theorem Python.importLines_eq (imports : List Import) :
    importLines imports = (Binding.ofImports .python imports).map (Binding.line .python) := by
  simp only [importLines, Binding.ofImports, List.map_append, List.map_filterMap, List.map_map]
  refine congrArg₂ _ (List.filterMap_congr fun i _ => ?_) rfl
  cases i <;> rfl

theorem JavaScript.requireLines_eq (imports : List Import) :
    requireLines imports =
      (Binding.ofImports .javascript imports).map (Binding.line .javascript) := by
  simp only [requireLines, Binding.ofImports, List.map_append, List.map_filterMap, List.map_map]
  refine congrArg₂ _ (List.filterMap_congr fun i _ => ?_) rfl
  cases i <;> rfl

end Target

/-- The bindings of a script bind what its imports bind. -/
theorem Binding.flatMap_bound_perm (language : Language) (imports : List Import) :
    ((ofImports language imports).flatMap bound).Perm (imports.map (Import.bound language)) := by
  have hmembers : ((membersByOwner imports).entries.map fun e =>
      Binding.members e.1 e.2).flatMap bound =
      (membersByOwner imports).entries.flatMap fun e => e.2.map fun name => (e.1, name) := by
    rw [List.flatMap_map]
    rfl
  rw [ofImports, List.flatMap_append, hmembers]
  refine ((flatMap_membersByOwner_perm imports).append_left _).trans ?_
  clear hmembers
  induction imports with
  | nil => exact List.Perm.refl _
  | cons i rest ih =>
      cases i with
      | regular path binding => exact ih.cons _
      | member owner name =>
          have hhead : (Import.member owner name :: rest).filterMap Import.member? =
              (owner, name) :: rest.filterMap Import.member? := rfl
          rw [List.filterMap_cons_none rfl, hhead]
          exact List.perm_middle.trans (ih.cons _)

/-- The import of one module, bound to its own name, and imports of members bind distinct names
exactly when the names of the members differ from each other and from that of the module. -/
theorem Import.nodup_bound_iff {language : Language} {imports : List Import} {path : String}
    {binding : Option String} {takes : String → String → Prop} (hnodup : imports.Nodup)
    (hbound : (Import.regular path binding).bound language = (path, path))
    (hmem : ∀ i, i ∈ imports ↔ i = .regular path binding ∨
      ∃ module name, takes module name ∧ i = .member module name) :
    (imports.map fun i => (i.bound language).2).Nodup ↔
      (∀ module module' name, takes module name → takes module' name → module = module') ∧
        ∀ module, ¬takes module path := by
  rw [List.nodup_map_iff_inj_on hnodup]
  have hmodule : .regular path binding ∈ imports := (hmem _).mpr (Or.inl rfl)
  have hmember : ∀ {module name}, takes module name → .member module name ∈ imports :=
    fun h => (hmem _).mpr (Or.inr ⟨_, _, h, rfl⟩)
  constructor
  · intro hinjective
    constructor
    · intro module module' name h h'
      cases hinjective _ (hmember h) _ (hmember h') rfl
      rfl
    · intro module h
      have heq := hinjective _ hmodule _ (hmember h) (by rw [hbound]; rfl)
      cases heq
  · rintro ⟨hdiffer, hfree⟩ i hi j hj hname
    rcases (hmem i).mp hi with rfl | ⟨module, name, h, rfl⟩ <;>
      rcases (hmem j).mp hj with rfl | ⟨module', name', h', rfl⟩
    · rfl
    · rw [hbound] at hname
      cases (show path = name' from hname)
      exact absurd h' (hfree module')
    · rw [hbound] at hname
      cases (show name = path from hname)
      exact absurd h (hfree module)
    · cases (show name = name' from hname)
      rw [hdiffer module module' name h h']

/-! ## What the code takes from modules -/

/-- The member of a module that a mention takes in a script, with the module. -/
def Mention.taken? : Mention → Option (String × String)
  | .ofClass c => if c.isGlobal then none else some (c.package, c.name)
  | .function module name => if module.isGlobal then none else some (module.package, name)
  | _ => none

/-- A class takes a member of a module when one of its methods mentions it. -/
def TestClass.Takes (t : TestClass) (module name : String) : Prop :=
  ∃ m ∈ t.methods, ∃ x ∈ m.mentions, x.taken? = some (module, name)

/-- The module of a framework that scripts import as a whole. -/
def Framework.module? : Framework → Option String
  | .unittest => some "unittest"
  | .pytest => some "pytest"
  | .mocha => some "assert"
  | .junit4 | .junit5 | .testng | .goTesting => none

namespace Language

/-- Whether tests of the language are scripts, which import members of modules. -/
def isScript : Language → Bool
  | .python | .javascript => true
  | _ => false

theorem isScript_iff (l : Language) : l.isScript = true ↔ l = .python ∨ l = .javascript := by
  cases l <;> decide

theorem isJvm_of_isScript {l : Language} (h : l.isScript = true) : l.isJvm = false := by
  cases l <;> first | rfl | cases h

/-- The framework of a script has one module, bound to its own name. -/
theorem exists_module_of_isScript {l : Language} (h : l.isScript = true) {f : Framework}
    (hf : f ∈ l.frameworks) :
    ∃ path, f.module? = some path ∧ f.assertionsClass? = none ∧
      ∃ binding, f.imports = [.regular path binding] ∧
        (Import.regular path binding).bound l = (path, path) := by
  rcases (isScript_iff l).mp h with rfl | rfl
  · simp only [frameworks, List.mem_cons, List.not_mem_nil, or_false] at hf
    rcases hf with rfl | rfl
    · exact ⟨_, rfl, rfl, none, rfl, rfl⟩
    · exact ⟨_, rfl, rfl, none, rfl, rfl⟩
  · obtain rfl := List.mem_singleton.mp hf
    exact ⟨_, rfl, rfl, some "assert", rfl, rfl⟩

end Language

namespace Generation

variable {g : Generation} {t : TestClass}

theorem inReach_of_isScript (hscript : g.language.isScript = true) (i : Import) :
    g.inReach i = false := by
  rcases (Language.isScript_iff _).mp hscript with h | h <;> cases i <;> simp [inReach, h]

/-- A mention asks for the import of the member that it takes. -/
theorem importsOfMention_of_isScript (hscript : g.language.isScript = true)
    (hassertions : g.config.framework.assertionsClass? = none) (mentions : List Mention)
    (x : Mention) :
    g.importsOfMention mentions x = (x.taken?.map fun e => Import.member e.1 e.2).toList := by
  have hinlines : g.helperClass? = none := by
    have hjvm := Language.isJvm_of_isScript hscript
    simp only [language] at hjvm
    simp [helperClass?, Config.inlinesHelpers, Language.supportsHelperClass, hjvm]
  rcases (Language.isScript_iff _).mp hscript with h | h <;> cases x <;>
    simp only [importsOfMention, importsOfClass, importsOfFunction, Mention.taken?, h, hinlines,
      hassertions] <;> first | rfl | (split <;> rfl)

theorem nodup_importsOf : (g.importsOf t).Nodup := by
  have horder : (g.importsInOrder t).Nodup := nodup_foldl_insertLast _ List.nodup_nil
  simp only [importsOf]
  split
  · exact (List.mergeSort_perm _ _).nodup_iff.mpr (horder.filter _)
  · exact horder

end Generation

namespace Construction.Follows

variable {c : Construction} {g : Generation} {sets : List TestSet}

/-- Outside the JVM a class mentions what its methods mention. -/
theorem mem_mentionsOfClass_iff_of_not_jvm (h : c.Follows g sets)
    (hjvm : c.generation.language.isJvm = false) {x : Mention} :
    x ∈ c.generation.mentionsOfClass c.file.testClass ↔
      ∃ m ∈ c.file.testClass.methods, x ∈ m.mentions := by
  have hannotations : c.file.testClass.annotations = [] := by
    rw [h.testClass_eq]
    simp [Generation.testClass, Generation.extensionAnnotations, hjvm]
  simp [Generation.mentionsOfClass, Generation.mentionsOfMethod, hannotations, hjvm]

/-- A script imports the module of its framework and the members that its methods take. -/
theorem mem_imports_iff_of_isScript (h : c.Follows g sets)
    (hscript : g.config.language.isScript = true)
    (hframework : g.config.framework ∈ g.config.language.frameworks) {path : String}
    {binding : Option String}
    (himports : g.config.framework.imports = [.regular path binding]) {i : Import} :
    i ∈ c.file.imports ↔ i = .regular path binding ∨
      ∃ module name, c.file.testClass.Takes module name ∧ i = .member module name := by
  have hscript' : c.generation.language.isScript = true := by
    rw [h.language_eq]
    exact hscript
  obtain ⟨-, -, hassertions, -⟩ := Language.exists_module_of_isScript hscript hframework
  rw [← h.config_eq] at hassertions himports
  have htaken := Generation.importsOfMention_of_isScript hscript' hassertions
    (c.generation.mentionsOfClass c.file.testClass)
  rw [h.imports_eq, Generation.mem_importsOf_iff, Generation.mem_importsInOrder_iff, himports,
    List.mem_singleton]
  simp only [Generation.inReach_of_isScript hscript', implies_true, and_true, htaken,
    h.mem_mentionsOfClass_iff_of_not_jvm (Language.isJvm_of_isScript hscript'),
    Option.mem_toList, Option.map_eq_some_iff]
  refine or_congr_right ⟨?_, ?_⟩
  · rintro ⟨x, ⟨m, hm, hx⟩, ⟨module, name⟩, htake, rfl⟩
    exact ⟨module, name, ⟨m, hm, x, hx, htake⟩, rfl⟩
  · rintro ⟨module, name, ⟨m, hm, x, hx, htake⟩, rfl⟩
    exact ⟨x, ⟨m, hm, hx⟩, _, htake, rfl⟩

end Construction.Follows

/-- The file of a script opens with the lines of what its imports bind. -/
theorem Target.exists_below_of_isScript {settings : Settings} {f : SourceFile} {d : Doc}
    (hscript : settings.language.isScript = true) (h : fileDoc settings f = .ok d) (tab : String) :
    ∃ below, d.toText tab =
      textOfLines ((Binding.ofImports settings.language f.imports).map
        (Binding.line settings.language)) ++ below := by
  rcases (Language.isScript_iff _).mp hscript with hlanguage | hlanguage
  · simp only [fileDoc, hlanguage, formsOf, Python.forms] at h
    obtain ⟨below, hbelow⟩ := Python.exists_below_of_file_eq_ok h
    obtain ⟨rest, -, htext⟩ := (Rendering.writesLines_lines _).toText hbelow
    rw [hlanguage, ← Python.importLines_eq]
    exact ⟨_, htext tab⟩
  · simp only [fileDoc, hlanguage, formsOf, JavaScript.forms, JavaScript.file_eq] at h
    obtain ⟨rest, -, htext⟩ := (Rendering.writesLines_group _).toText h
    rw [hlanguage, ← JavaScript.requireLines_eq, htext tab, textOfGroup]
    split
    · next hempty =>
      rw [List.isEmpty_iff.mp hempty]
      exact ⟨_, rfl⟩
    · exact ⟨_, String.append_assoc⟩

/-- The lines at the top of generated tests in Python or JavaScript bind the module of the framework
and the members that the tests take from modules.  The bound names are distinct exactly when members
of different modules never share a name, and none has the name of the module of the framework. -/
theorem bound_names_differ_iff {config : Config} (hvalid : config.validate = .ok ())
    (hscript : config.language.isScript = true) (cut : ClassName) (sets : List TestSet)
    (className : Option String) :
    ∃ gen c out path, ∃ bindings : List Binding, ∃ below, Generator.new cut config = .ok gen ∧
      (gen.base.derive className true).construct sets = .ok c ∧
      gen.generate sets className = .ok out ∧ config.framework.module? = some path ∧
      out.code = textOfLines (bindings.map (Binding.line config.language)) ++ below ∧
      (∀ module name, (module, name) ∈ bindings.flatMap Binding.bound ↔
        module = path ∧ name = path ∨ c.file.testClass.Takes module name) ∧
      ((bindings.flatMap Binding.names).Nodup ↔
        (∀ module module' name, c.file.testClass.Takes module name →
          c.file.testClass.Takes module' name → module = module') ∧
        ∀ module, ¬c.file.testClass.Takes module path) := by
  have hgo : config.language ≠ .go := by
    intro hgo
    rw [hgo] at hscript
    cases hscript
  obtain ⟨c, d, hc, hfollows, hdoc, gen, hnew, hbase, hout⟩ :=
    Generator.exists_doc_of_validate hvalid hgo cut sets className
  have hframework := Config.framework_mem_of_validate hvalid
  obtain ⟨path, hpath, -, binding, himports, hbound⟩ :=
    Language.exists_module_of_isScript hscript hframework
  have hlanguage : c.generation.settings.language = config.language := hfollows.language_eq
  obtain ⟨below, hbelow⟩ := Target.exists_below_of_isScript (hlanguage ▸ hscript) hdoc
    (Target.Surroundings.ofFile c.generation.settings c.file).methodForms.dialect.tab
  rw [hlanguage] at hbelow
  have hmem : ∀ i, i ∈ c.file.imports ↔ i = .regular path binding ∨
      ∃ module name, c.file.testClass.Takes module name ∧ i = .member module name :=
    fun i => hfollows.mem_imports_iff_of_isScript hscript hframework himports
  have hperm := Binding.flatMap_bound_perm config.language c.file.imports
  refine ⟨gen, c, _, path, Binding.ofImports config.language c.file.imports, below, hnew,
    hbase ▸ hc, hout, hpath, hbelow, ?_, ?_⟩
  · intro module name
    rw [hperm.mem_iff, List.mem_map]
    constructor
    · rintro ⟨i, hi, heq⟩
      rcases (hmem i).mp hi with rfl | ⟨module', name', htakes, rfl⟩
      · rw [hbound] at heq
        cases heq
        exact Or.inl ⟨rfl, rfl⟩
      · cases heq
        exact Or.inr htakes
    · rintro (⟨rfl, rfl⟩ | htakes)
      · exact ⟨_, (hmem _).mpr (Or.inl rfl), hbound⟩
      · exact ⟨_, (hmem _).mpr (Or.inr ⟨_, _, htakes, rfl⟩), rfl⟩
  · have hnames : ((Binding.ofImports config.language c.file.imports).flatMap Binding.names).Nodup ↔
        (c.file.imports.map fun i => (i.bound config.language).2).Nodup := by
      have hmap := (hperm.map Prod.snd).nodup_iff
      rw [List.map_flatMap, List.map_map] at hmap
      exact hmap
    have hnodup : c.file.imports.Nodup := by
      rw [hfollows.imports_eq]
      exact Generation.nodup_importsOf
    rw [hnames]
    exact Import.nodup_bound_iff hnodup hbound hmem

/-- A call with two points of different modules. -/
def twoPoints : TestSet :=
  let plane : ClassName := ⟨"geo", "Point"⟩
  let screen : ClassName := ⟨"grid", "Point"⟩
  ⟨⟨⟨"shapes", "Shapes"⟩, "snap", [⟨"a", .ofClass plane⟩, ⟨"b", .ofClass screen⟩], .void,
    .staticMethod⟩,
    [.ofArguments [.composite plane [] [], .composite screen [] []] .completed], [], .empty⟩

/-- Both modules are asked for a `Point`, and the second line binds the name again. -/
theorem bound_names_differ_iff_twoPoints :
    (Config.forLanguage .python).validate = .ok () ∧
      (Config.forLanguage .python).language.isScript = true ∧
      ∃ gen out, ∃ bindings : List Binding, ∃ below,
        Generator.new ⟨"shapes", "Shapes"⟩ (.forLanguage .python) = .ok gen ∧
        gen.generate [twoPoints] none = .ok out ∧
        out.code = textOfLines (bindings.map (Binding.line .python)) ++ below ∧
        ("geo", "Point") ∈ bindings.flatMap Binding.bound ∧
        ("grid", "Point") ∈ bindings.flatMap Binding.bound ∧
        ¬(bindings.flatMap Binding.names).Nodup := by
  obtain ⟨gen, c, out, path, bindings, below, hnew, hc, hout, hpath, hcode, hbound, hnodup⟩ :=
    @bound_names_differ_iff (.forLanguage .python) rfl rfl ⟨"shapes", "Shapes"⟩ [twoPoints] none
  obtain rfl : ⟨.new ⟨"shapes", "Shapes"⟩ (.forLanguage .python)⟩ = gen := Except.ok.inj hnew
  have hrun : ((((Generation.new ⟨"shapes", "Shapes"⟩ (.forLanguage .python)).derive none
      true).construct [twoPoints]).toOption.any fun c =>
        c.file.testClass.methods.any fun m =>
          .ofClass ⟨"geo", "Point"⟩ ∈ m.mentions ∧ .ofClass ⟨"grid", "Point"⟩ ∈ m.mentions) =
      true := by
    decide +kernel
  rw [hc] at hrun
  obtain ⟨m, hm, hmentions⟩ := List.any_eq_true.mp hrun
  obtain ⟨hplane, hscreen⟩ := of_decide_eq_true hmentions
  have hgeo : c.file.testClass.Takes "geo" "Point" := ⟨m, hm, _, hplane, rfl⟩
  have hgrid : c.file.testClass.Takes "grid" "Point" := ⟨m, hm, _, hscreen, rfl⟩
  refine ⟨rfl, rfl, _, out, bindings, below, rfl, hout, hcode, ?_, ?_, ?_⟩
  · exact (hbound _ _).mpr (Or.inr hgeo)
  · exact (hbound _ _).mpr (Or.inr hgrid)
  · intro hdistinct
    exact absurd ((hnodup.mp hdistinct).1 _ _ _ hgeo hgrid) (by decide)

end TestWriter
