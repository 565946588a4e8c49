import Mathlib.Data.List.DropRight
import TestWriter.Proofs.Literals
import TestWriter.Proofs.TableRows
import TestWriter.Text.Lines

/-!
# Rows in pytest

A parametrization of pytest names the parameters in one text, and each row gives them their values:
one value per name when there are several names, the whole row when there is one.  Main statement:
the parameters of a table get the values of their columns exactly when there is not just one column
and the names are different and survive the way through the text.
-/

namespace TestWriter

namespace Pytest

/-! ## Names in a parametrization -/

/-- Whether Python takes a character for white space. -/
def isSpace (c : Char) : Bool := Text.isBlank c || (0x1c ≤ c.toNat && c.toNat ≤ 0x1f)

/-- A text without the white space at either end. -/
def strip (cs : List Char) : List Char := (cs.dropWhile isSpace).rdropWhile isSpace

/-- The names in the first argument of a parametrization: the parts between commas, without the
white space around them and without empty ones. -/
def argumentNames (text : List Char) : List String :=
  (((Text.parts ',' text).map strip).filter (· ≠ [])).map String.ofList

/-- A name is whole if it is the one name of the text that it makes up. -/
def IsWhole (name : String) : Prop := argumentNames name.toList = [name]

instance (name : String) : Decidable (IsWhole name) :=
  inferInstanceAs (Decidable (_ = _))

theorem strip_cons_of_isSpace {c : Char} (hc : isSpace c = true) (cs : List Char) :
    strip (c :: cs) = strip cs := by
  rw [strip, List.dropWhile_cons_of_pos hc, strip]

theorem strip_strip (cs : List Char) : strip (strip cs) = strip cs :=
  Text.stripped_twice isSpace cs

theorem notMem_strip {c : Char} {cs : List Char} (h : c ∉ cs) : c ∉ strip cs := by
  intro hc
  have hdrop := (List.rdropWhile_prefix isSpace _).subset hc
  exact h ((List.dropWhile_suffix isSpace).subset hdrop)

theorem argumentNames_append_comma (before after : List Char) :
    argumentNames (before ++ ',' :: after) = argumentNames before ++ argumentNames after := by
  simp only [argumentNames, Text.parts_append_cons, List.map_append, List.filter_append]

theorem argumentNames_cons_blank (text : List Char) :
    argumentNames (' ' :: text) = argumentNames text := by
  obtain ⟨part, more, hparts⟩ := List.exists_cons_of_ne_nil (Text.parts_ne_nil ',' text)
  rw [argumentNames, argumentNames, Text.parts_cons_of_ne (by decide) hparts, hparts]
  rw [List.map_cons, List.map_cons, strip_cons_of_isSpace (by decide)]

/-- The names in a joined text are those in its members, one after the other. -/
theorem argumentNames_intercalate (names : List String) :
    argumentNames (", ".intercalate names).toList =
      names.flatMap fun name => argumentNames name.toList := by
  induction names with
  | nil => rfl
  | cons name rest ih =>
      cases rest with
      | nil => rw [String.intercalate_singleton, List.flatMap_singleton]
      | cons next rest =>
          rw [String.intercalate_cons_cons, String.toList_append, String.toList_append,
            List.append_assoc, List.flatMap_cons, ← ih]
          change argumentNames (name.toList ++ ',' :: ' ' :: _) = _
          rw [argumentNames_append_comma, argumentNames_cons_blank]
          rfl

theorem argumentNames_intercalate_of_isWhole {names : List String}
    (h : ∀ name ∈ names, IsWhole name) :
    argumentNames (", ".intercalate names).toList = names := by
  rw [argumentNames_intercalate]
  calc names.flatMap (fun name => argumentNames name.toList)
      = names.flatMap fun name => [name] := by
        rw [List.flatMap_def, List.flatMap_def, List.map_congr_left h]
    _ = names := List.flatMap_singleton' names

/-- Every name that is found in a text is whole. -/
theorem isWhole_of_mem {text : List Char} {name : String} (h : name ∈ argumentNames text) :
    IsWhole name := by
  simp only [argumentNames, List.mem_map, List.mem_filter, decide_eq_true_eq] at h
  obtain ⟨cs, ⟨⟨part, hpart, rfl⟩, hne⟩, rfl⟩ := h
  have hcomma : ',' ∉ strip part := notMem_strip (Text.not_mem_of_mem_parts hpart)
  rw [IsWhole, String.toList_ofList, argumentNames, Text.parts_of_notMem hcomma, List.map_singleton,
    strip_strip, List.filter_cons_of_pos (by simpa using hne)]
  rfl

/-! ## Values of parameters -/

/-- The values of a row. -/
def rowCells : Expr → List Expr
  | .arrayOf _ cells => cells
  | _ => []

/-- What a parameter gets from a row: the whole row if it is the only name, otherwise the value at
its place among the names.  Names have to be different, and a row has to have a value for each. -/
def bound? (names : List String) (row : Expr) (parameter : String) : Option Expr :=
  if names.Nodup ∧ parameter ∈ names then
    if names.length = 1 then some row
    else if (rowCells row).length = names.length then (rowCells row)[names.idxOf parameter]?
    else none
  else none

/-- Each parameter gets from each row the value of its own column. -/
def BindsColumns (text : String) (rows : List Expr) (parameters : List String) : Prop :=
  ∀ row ∈ rows, ∀ (j : Nat) (name : String), parameters[j]? = some name →
    ∃ cell, (rowCells row)[j]? = some cell ∧
      bound? (argumentNames text.toList) row name = some cell

/-- No row is one of its own values. -/
theorem arrayOf_notMem_rowCells (row : Expr) : row ∉ rowCells row := by
  intro h
  cases row with
  | arrayOf element cells =>
      have hsize := List.sizeOf_lt_of_mem h
      simp only [rowCells, Expr.arrayOf.sizeOf_spec] at hsize
      omega
  | _ => exact List.not_mem_nil h

variable {rows : List Expr} {parameters : List String}

/-- Different names that are whole share out the values of a row, unless there is one name only. -/
theorem bound?_of_isWhole (hlength : parameters.length ≠ 1) (hnodup : parameters.Nodup)
    {row : Expr} (hwidth : (rowCells row).length = parameters.length) {j : Nat} {name : String}
    (hname : parameters[j]? = some name) :
    bound? parameters row name = (rowCells row)[j]? := by
  obtain ⟨hj, rfl⟩ := List.getElem?_eq_some_iff.mp hname
  rw [bound?, if_pos ⟨hnodup, List.getElem_mem hj⟩, if_neg hlength, if_pos hwidth,
    hnodup.idxOf_getElem]

/-- The parameters get the values of their columns exactly when there is not just one of them and
their names are different and whole. -/
theorem bindsColumns_iff (hrows : rows ≠ [])
    (hwidth : ∀ row ∈ rows, (rowCells row).length = parameters.length) :
    BindsColumns (", ".intercalate parameters) rows parameters ↔
      parameters.length ≠ 1 ∧ parameters.Nodup ∧ ∀ name ∈ parameters, IsWhole name := by
  constructor
  · intro hbinds
    obtain ⟨row, hrow⟩ := List.exists_mem_of_ne_nil rows hrows
    have hwhole : ∀ name ∈ parameters, IsWhole name := by
      intro name hname
      obtain ⟨j, hj⟩ := List.mem_iff_getElem?.mp hname
      obtain ⟨cell, -, hbound⟩ := hbinds row hrow j name hj
      rw [bound?] at hbound
      split at hbound
      · next hgood => exact isWhole_of_mem hgood.2
      · cases hbound
    have hnames := argumentNames_intercalate_of_isWhole hwhole
    rw [BindsColumns, hnames] at hbinds
    refine ⟨?_, ?_, hwhole⟩
    · intro hlength
      obtain ⟨name, rfl⟩ := List.length_eq_one_iff.mp hlength
      obtain ⟨cell, hcell, hbound⟩ := hbinds row hrow 0 name rfl
      have hsame : row = cell := by simpa [bound?] using hbound
      rw [← hsame] at hcell
      exact arrayOf_notMem_rowCells row (List.mem_of_getElem? hcell)
    · cases parameters with
      | nil => exact List.nodup_nil
      | cons name rest =>
          obtain ⟨cell, -, hbound⟩ := hbinds row hrow 0 name rfl
          rw [bound?] at hbound
          split at hbound
          · next hgood => exact hgood.1
          · cases hbound
  · rintro ⟨hlength, hnodup, hwhole⟩ row hrow j name hname
    have hj : j < (rowCells row).length := by
      rw [hwidth row hrow]
      exact (List.getElem?_eq_some_iff.mp hname).1
    refine ⟨(rowCells row)[j], List.getElem?_eq_getElem hj, ?_⟩
    rw [argumentNames_intercalate_of_isWhole hwhole,
      bound?_of_isWhole hlength hnodup (hwidth row hrow) hname, List.getElem?_eq_getElem hj]

end Pytest

/-! ## The head of a parameterized test -/

open Layout

namespace Layout.Rendering

/-- A rendering prints a text where nothing is indented. -/
def Prints (r : Rendering) (text : String) : Prop :=
  ∃ d, r = .ok d ∧ ∀ (tab : String) (c : Cursor), c.level = 0 →
    (c.run tab d).text = c.text ++ text ∧ (c.run tab d).level = 0

theorem prints_piece (role : Role) (s : String) : Prints (piece role s) s := by
  refine ⟨_, rfl, fun tab c hlevel => ?_⟩
  obtain ⟨text, level, atLineStart⟩ := c
  dsimp only at hlevel
  subst hlevel
  by_cases hs : s = ""
  · simp [Cursor.run, Cursor.step, Cursor.write, hs]
  · cases atLineStart <;> simp [Cursor.run, Cursor.step, Cursor.write, Cursor.copies, hs]

theorem prints_say (s : String) : Prints (say s) s := prints_piece .plain s

theorem Prints.append {r r' : Rendering} {s s' : String} (h : Prints r s) (h' : Prints r' s') :
    Prints (r ++ r') (s ++ s') := by
  obtain ⟨d, rfl, hd⟩ := h
  obtain ⟨d', rfl, hd'⟩ := h'
  refine ⟨d ++ d', rfl, fun tab c hlevel => ?_⟩
  obtain ⟨htext, hzero⟩ := hd tab c hlevel
  obtain ⟨htext', hzero'⟩ := hd' tab _ hzero
  rw [Cursor.run_append, htext', htext, String.append_assoc]
  exact ⟨rfl, hzero'⟩

theorem prints_newline : Prints newline "\n" :=
  ⟨_, rfl, fun _ _ hlevel => ⟨rfl, hlevel⟩⟩

theorem prints_line (s : String) : Prints (line s) (s ++ "\n") :=
  (prints_say s).append prints_newline

theorem prints_commas {rs : List Rendering} {texts : List String}
    (h : List.Forall₂ Prints rs texts) : Prints (commas rs) (", ".intercalate texts) := by
  induction h with
  | nil => exact ⟨[], rfl, fun _ _ hlevel => ⟨(String.append_empty).symm, hlevel⟩⟩
  | @cons r text rs texts hr hrest ih =>
      cases hrest with
      | nil => exact hr
      | cons hnext hmore =>
          rw [String.intercalate_cons_cons]
          exact (hr.append (prints_say ", ")).append ih

end Layout.Rendering

namespace Target

open Rendering

/-- The names of the parameters of a method as they are printed. -/
def Surroundings.parameterNames (s : Surroundings) (m : Method) : List String :=
  m.parameters.map fun p => s.methodForms.dialect.identifier p.name

namespace Python

variable {s : Surroundings} {m : Method} {e : Executable} {provider : String}

theorem prints_decorators (hframework : s.settings.framework = .pytest)
    (hkind : m.kind = .parameterized e provider) :
    Prints (decorators s (dialect s) m)
      ("@pytest.mark.parametrize(" ++
        quote (", ".intercalate (m.parameters.map fun p => (dialect s).identifier p.name)) ++
        (", " ++ provider ++ "())" ++ "\n")) := by
  have hpytest : Prints (say "@" ++ pytest "mark.parametrize(") "@pytest.mark.parametrize(" :=
    (prints_say "@").append ((prints_piece (.module "pytest") "pytest").append (prints_say _))
  simp only [decorators, hkind, isPytest, hframework, decide_true, if_true]
  exact (hpytest.append (prints_say _)).append (prints_line _)

theorem prints_parameters (hstatic : m.isStatic = false) :
    Prints
      (commas ((if m.isStatic then [] else [say "self"]) ++
        m.parameters.map fun p => (dialect s).reference p.name))
      (", ".intercalate ("self" :: m.parameters.map fun p => (dialect s).identifier p.name)) := by
  rw [hstatic, if_neg Bool.false_ne_true]
  refine prints_commas (.cons (prints_say "self") ?_)
  induction m.parameters with
  | nil => exact .nil
  | cons p rest ih => exact .cons (prints_piece (.identifier p.name) _) ih

/-- A parameterized test for pytest begins with its parametrization and the names of its
parameters. -/
theorem exists_opening_of_parameterized (hframework : s.settings.framework = .pytest)
    (hkind : m.kind = .parameterized e provider) (hstatic : m.isStatic = false) :
    ∃ head, (methods s).opening m = .ok head ∧
      head.toText (dialect s).tab =
        "@pytest.mark.parametrize(" ++
          quote (", ".intercalate (m.parameters.map fun p => (dialect s).identifier p.name)) ++
          ", " ++ provider ++ "())" ++ "\n" ++ "def " ++ m.name ++ "(" ++
          ", ".intercalate ("self" :: m.parameters.map fun p => (dialect s).identifier p.name) ++
          "):" ++ "\n" := by
  obtain ⟨d, hd, hprints⟩ :=
    (((prints_decorators hframework hkind).append (prints_say ("def " ++ m.name ++ "("))).append
      (prints_parameters hstatic)).append (prints_line "):")
  refine ⟨d ++ [.indent], ?_, ?_⟩
  · exact append_eq_ok_iff.mpr ⟨d, _, hd, rfl, rfl⟩
  · rw [Doc.toText, Cursor.run_append]
    refine (hprints (dialect s).tab .start rfl).1.trans ?_
    simp only [Cursor.start, String.empty_append, String.append_assoc]

end Python

end Target

/-! ## Tables -/

/-- Rows have a value for each column. -/
theorem Memory.length_rowCells_of_fillsRow {m : Memory} {first : Nat} {columns : List Column}
    {runs : List Execution} {rows : List Expr}
    (h : List.Forall₂ (fun run row => m.FillsRow first columns run row) runs rows) :
    ∀ row ∈ rows, (Pytest.rowCells row).length = columns.length := by
  induction h with
  | nil => exact List.forall_mem_nil _
  | cons hrow _ ih =>
      obtain ⟨cells, rfl, hcells⟩ := hrow
      exact List.forall_mem_cons.mpr ⟨hcells.length_eq.symm, ih⟩

namespace TestSet

variable {set : TestSet} {g g' : Generation} {t : ParameterizedTest}

/-- Only a set with rows becomes a table. -/
theorem rows_ne_nil_of_toTable_ok (h : set.toTable g = .ok t g') : set.rows ≠ [] := by
  intro hnil
  have hmeets := set.toTableUnder_meets g.config g
  have hobstacle : ∃ cause, set.tableObstacle g.config = some cause := by
    simp only [tableObstacle, hnil, List.isEmpty_nil, if_true]
    split <;> exact ⟨_, rfl⟩
  obtain ⟨cause, hcause⟩ := hobstacle
  rw [hcause] at hmeets
  obtain ⟨g'', herror⟩ := hmeets
  rw [toTable, herror] at h
  cases h

/-- pytest runs tables for Python only. -/
theorem language_eq_of_pytest (hpytest : g.config.framework = .pytest)
    (h : set.toTable g = .ok t g') : g.config.language = .python := by
  have htables := hasTables_of_toTable_ok h
  rw [Config.HasTables, hpytest] at htables
  cases hlanguage : g.config.language with
  | python => rfl
  | java => simp [hlanguage, Language.supportsParameterized] at htables
  | kotlin => simp [hlanguage, Language.supportsParameterized] at htables
  | javascript => simp [hlanguage, Language.supportsParameterized] at htables
  | go => simp [hlanguage, Language.supportsParameterized] at htables

/-- A table has a test with the columns of the runs for parameters, and a data provider that gives
their rows. -/
theorem parts_of_toTable_ok (h : set.toTable g = .ok t g') :
    t.test.kind = .parameterized set.executable t.provider.name ∧ t.test.isStatic = false ∧
      t.test.parameters =
        (Column.ofRuns g.config set.executable set.rows).map Column.parameter ∧
      Stmt.GivesRows t.provider.body (Column.ofRuns g.config set.executable set.rows) set.rows := by
  have hgo := (hasTables_of_toTable_ok h).ne_go
  obtain ⟨providerBody, d, testBody, d', hprovider, -, rfl, -⟩ := exists_drafts_of_toTable_ok h
  exact ⟨rfl, rfl, rfl, Draft.providerBody_givesRows hgo
    (fun c hc i hrole => Column.lt_of_argument hc hrole) hprovider⟩

open Pytest

/-- The head of a table for pytest refers to its data provider and reads as the printed names of its
parameters, which are the columns of the runs; the data provider returns a row for each run, with
what each column stands for.  pytest gives the parameters the values of their columns from every row
exactly when there is not just one of them and their printed names are different and whole. -/
theorem pytest_binds_columns_iff {s : Target.Surroundings}
    (hlanguage : s.settings.language = g.config.language)
    (hframework : s.settings.framework = g.config.framework)
    (hpytest : g.config.framework = .pytest) (h : set.toTable g = .ok t g') :
    ∃ head literal arrange rows,
      t.test.parameters =
        (Column.ofRuns g.config set.executable set.rows).map Column.parameter ∧
      s.methodForms.opening t.test = .ok head ∧
      head.toText s.methodForms.dialect.tab =
        "@pytest.mark.parametrize(" ++ literal ++ ", " ++ t.provider.name ++ "())" ++ "\n" ++
          "def " ++ t.test.name ++ "(" ++ ", ".intercalate ("self" :: s.parameterNames t.test) ++
          "):" ++ "\n" ∧
      Text.Quoted.ReadsAs ['"'] literal (", ".intercalate (s.parameterNames t.test)) ∧
      t.provider.body = apart arrange [.ret (some (.arrayOf (.array .any) rows))] ∧
      (∀ m, ∃ m', Stmt.runAll arrange m = some m' ∧
        List.Forall₂ (fun run row => m'.FillsRow m.objects.length
          (Column.ofRuns g.config set.executable set.rows) run row) set.rows rows) ∧
      (BindsColumns (", ".intercalate (s.parameterNames t.test)) rows
          (s.parameterNames t.test) ↔
        t.test.parameters.length ≠ 1 ∧ (s.parameterNames t.test).Nodup ∧
          ∀ name ∈ s.parameterNames t.test, IsWhole name) := by
  have hforms : s.methodForms = Target.Python.methods s := by
    rw [Target.Surroundings.methodForms, hlanguage, language_eq_of_pytest hpytest h]
    rfl
  obtain ⟨hkind, hstatic, hparameters, arrange, rows, hbody, hgives⟩ := parts_of_toTable_ok h
  obtain ⟨head, hopening, htext⟩ := Target.Python.exists_opening_of_parameterized
    (hframework.trans hpytest) hkind hstatic
  have hnames : s.parameterNames t.test =
      t.test.parameters.map fun p => (Target.Python.dialect s).identifier p.name := by
    rw [Target.Surroundings.parameterNames, hforms]
    rfl
  have hcount : (s.parameterNames t.test).length = t.test.parameters.length := List.length_map ..
  -- The rows are as many and as wide in any memory, so one is enough to tell.
  obtain ⟨m', -, hfills⟩ := hgives ⟨[], []⟩
  have hwidth := Memory.length_rowCells_of_fillsRow hfills
  have hne : rows ≠ [] := by
    rintro rfl
    exact rows_ne_nil_of_toTable_ok h (List.forall₂_nil_right_iff.mp hfills)
  have hcells : ∀ row ∈ rows, (rowCells row).length = (s.parameterNames t.test).length := by
    intro row hrow
    rw [hwidth row hrow, hcount, hparameters, List.length_map]
  have hbinds := bindsColumns_iff hne hcells
  rw [hcount] at hbinds
  refine ⟨head, Target.Python.quote (", ".intercalate (s.parameterNames t.test)), arrange, rows,
    hparameters, ?_, ?_, ?_, hbody, hgives, hbinds⟩
  · rw [hforms]
    exact hopening
  · rw [hforms, hnames]
    exact htext
  · refine Text.Quoted.readsAs_literal (fun m hm => ?_) _
    exact (Language.marks_spec .python m hm).2

end TestSet

/-- One table per executable for pytest. -/
def pytestConfig : Config :=
  { Config.forLanguage .python with framework := .pytest, parameterization := .oneTable }

/-- A run of a function that takes a text and gives nothing back. -/
def shouts : TestSet :=
  ⟨⟨⟨"demo", "demo"⟩, "shout", [⟨"text", .str⟩], .void, .function⟩,
    [.ofArguments [.literal (.str "hi")] .completed], [], .empty⟩

/-- The function has one parameter and no result, so its table has one column, and the test does not
get the text from the row. -/
theorem TestSet.pytest_binds_columns_iff_shouts :
    pytestConfig.validate = .ok () ∧ ∃ t g' arrange rows,
      shouts.toTable (.new ⟨"demo", "demo"⟩ pytestConfig) = .ok t g' ∧
      t.test.parameters = [⟨"text", .str⟩] ∧
      t.provider.body = apart arrange [.ret (some (.arrayOf (.array .any) rows))] ∧
      ¬Pytest.BindsColumns "text" rows ["text"] := by
  let s : Target.Surroundings := .bare ⟨.python, .pytest, none⟩
  obtain ⟨t, g', htable⟩ :
      ∃ t g', shouts.toTable (.new ⟨"demo", "demo"⟩ pytestConfig) = .ok t g' :=
    shouts.toTableUnder_meets pytestConfig (.new ⟨"demo", "demo"⟩ pytestConfig)
  obtain ⟨head, literal, arrange, rows, hparameters, -, -, -, hbody, -, hbinds⟩ :=
    TestSet.pytest_binds_columns_iff (s := s) rfl rfl rfl htable
  have hone : t.test.parameters = [⟨"text", .str⟩] := hparameters
  have hnames : s.parameterNames t.test = ["text"] := by
    rw [Target.Surroundings.parameterNames, hone]
    rfl
  rw [hnames, hone] at hbinds
  exact ⟨rfl, t, g', arrange, rows, htable, hone, hbody, fun h => (hbinds.mp h).1 rfl⟩

end TestWriter
