import TestWriter.Proofs.Enclosure
import TestWriter.Target.Render

/-!
# Heads of files

A file in Java, Kotlin, JavaScript or Python opens with the line of its package and the block of its
imports, and the class stands below.  Main statement: the code is the text of the head, which is a
text of whole lines, followed by the text of the class.
-/

namespace TestWriter

open Layout Target

/-! ## Whole lines -/

namespace Layout

/-- The text of some lines. -/
def textOfLines (lines : List String) : String := String.join (lines.map fun text => text ++ "\n")

/-- The text of a group of lines, ended by a blank line unless it is empty. -/
def textOfGroup (lines : List String) : String :=
  if lines.isEmpty then "" else textOfLines lines ++ "\n"

namespace Rendering

/-- A rendering writes a text of whole lines where nothing is indented. -/
def WritesLines (r : Rendering) (text : String) : Prop :=
  ∃ d, r = .ok d ∧ ∀ tab before,
    (⟨before, 0, true⟩ : Cursor).run tab d = ⟨before ++ text, 0, true⟩

theorem writesLines_nothing : WritesLines nothing "" :=
  ⟨[], rfl, fun _ _ => by rw [String.append_empty]; rfl⟩

theorem WritesLines.append {r r' : Rendering} {text text' : String} (h : WritesLines r text)
    (h' : WritesLines r' text') : WritesLines (r ++ r') (text ++ text') := by
  obtain ⟨d, rfl, hd⟩ := h
  obtain ⟨d', rfl, hd'⟩ := h'
  refine ⟨d ++ d', rfl, fun tab before => ?_⟩
  rw [Cursor.run_append, hd, hd', String.append_assoc]

theorem writesLines_newline : WritesLines newline "\n" :=
  ⟨_, rfl, fun _ _ => rfl⟩

theorem writesLines_line (text : String) : WritesLines (line text) (text ++ "\n") := by
  refine ⟨_, rfl, fun tab before => ?_⟩
  by_cases htext : text = "" <;>
    simp [Cursor.run, Cursor.step, Cursor.write, Cursor.newline, Cursor.copies, htext,
      String.append_assoc]

theorem writesLines_lines (lines : List String) :
    WritesLines (concat (lines.map line)) (textOfLines lines) := by
  induction lines with
  | nil => exact writesLines_nothing
  | cons text rest ih =>
      rw [textOfLines, List.map_cons, List.map_cons, String.join_cons]
      exact (writesLines_line text).append ih

theorem writesLines_group (lines : List String) :
    WritesLines (Java.importGroup lines) (textOfGroup lines) := by
  unfold Java.importGroup textOfGroup
  split
  · exact writesLines_nothing
  · exact (writesLines_lines lines).append writesLines_newline

/-- What stands behind whole lines is written as at the start of a text. -/
theorem WritesLines.toText {r r' : Rendering} {text : String} (h : WritesLines r text) {d : Doc}
    (hd : r ++ r' = .ok d) :
    ∃ below, r' = .ok below ∧ ∀ tab, d.toText tab = text ++ below.toText tab := by
  obtain ⟨above, rfl, habove⟩ := h
  obtain ⟨x, below, hx, hbelow, rfl⟩ := append_eq_ok_iff.mp hd
  cases hx
  refine ⟨below, hbelow, fun tab => ?_⟩
  calc Doc.toText tab (above ++ below)
      = ((Cursor.start.run tab above).run tab below).text := by rw [Doc.toText, Cursor.run_append]
    _ = ((⟨"" ++ text, 0, true⟩ : Cursor).run tab below).text := by rw [Cursor.start, habove]
    _ = text ++ below.toText tab := by rw [Cursor.text_run, String.empty_append]; rfl

/-- A rendering behind whole lines is written as at the start of a text. -/
theorem WritesLines.textOf {r r' : Rendering} {text : String} (h : WritesLines r text) {below : Doc}
    (hbelow : r' = .ok below) (tab : String) :
    Target.textOf tab (r ++ r') = .ok (text ++ below.toText tab) := by
  obtain ⟨above, habove, -⟩ := id h
  have hd : r ++ r' = .ok (above ++ below) :=
    append_eq_ok_iff.mpr ⟨above, below, habove, hbelow, rfl⟩
  obtain ⟨below', hbelow', htext⟩ := h.toText hd
  obtain rfl : below = below' := Except.ok.inj (hbelow.symm.trans hbelow')
  rw [hd, Target.textOf, htext]

end Rendering

end Layout

/-! ## Heads and classes -/

namespace Target

open Rendering

namespace Java

/-- The lines of the regular imports. -/
def regularLines (imports : List Import) : List String :=
  imports.filterMap fun i =>
    match i with
    | .regular path _ => some ("import " ++ path ++ ";")
    | .member .. => none

/-- The lines of the static imports. -/
def memberLines (imports : List Import) : List String :=
  imports.filterMap fun i =>
    match i with
    | .member owner name => some ("import static " ++ owner ++ "." ++ name ++ ";")
    | .regular .. => none

/-- The line of the package. -/
def packageLines (package : Option String) : List String :=
  package.toList.map fun package => "package " ++ package ++ ";"

/-- What stands below the imports. -/
def classDoc (s : Surroundings) (c : TestClass) : Rendering :=
  let forms := methods s
  let d := forms.dialect
  (if c.documentation.isEmpty then nothing else .ok (d.documentation c.documentation)) ++
    jvmAnnotations d ".class" c.annotations ++
    say ("public final class " ++ c.id.name) ++
    (match c.superclass with
     | none => nothing
     | some superclass => say " extends " ++ .ok (d.className superclass)) ++
    (if c.interfaces.isEmpty then nothing
     else say " implements " ++ commas (c.interfaces.map fun i => .ok (d.className i))) ++
    line r" {" ++
    nest (forms.regions (c.regions ++ [c.statics])) ++
    line r"}"

theorem importGroup_singleton (text : String) : importGroup [text] = line text ++ newline := by
  rw [← append_nothing (line text)]
  rfl

theorem file_eq (s : Surroundings) (f : SourceFile) :
    file s f = importGroup (packageLines f.package) ++
      (importGroup (regularLines f.imports) ++ importGroup (memberLines f.imports)) ++
      classDoc s f.testClass := by
  obtain ⟨package, imports, c⟩ := f
  cases package with
  | none =>
      simp only [file, classDoc, append_assoc]
      rfl
  | some package =>
      simp only [file, classDoc, packageLines, Option.toList_some, List.map_cons, List.map_nil,
        importGroup_singleton, append_assoc]
      rfl

end Java

namespace Kotlin

/-- The line of the package. -/
def packageLines (package : Option String) : List String :=
  package.toList.map fun package => "package " ++ path package

/-- The lines of the imports. -/
def importLines (imports : List Import) : List String :=
  (importPaths imports).map fun p => "import " ++ p

/-- What stands below the imports. -/
def classDoc (s : Surroundings) (c : TestClass) : Rendering :=
  let forms := methods s
  let d := forms.dialect
  let supertypes : List Rendering :=
    (c.superclass.map fun superclass => .ok (d.className superclass) ++ say "()").toList ++
      c.interfaces.map fun i => .ok (d.className i)
  (if c.documentation.isEmpty then nothing else .ok (d.documentation c.documentation)) ++
    jvmAnnotations d "::class" c.annotations ++
    say
      (match c.kind with
       | .test => "class " ++ c.id.name
       | .helpers => "object " ++ c.id.name) ++
    (if supertypes.isEmpty then nothing else say " : " ++ commas supertypes) ++
    line r" {" ++ nest (body forms c) ++ line r"}"

theorem file_eq (s : Surroundings) (f : SourceFile) :
    file s f = Java.importGroup (packageLines f.package) ++
      Java.importGroup (importLines f.imports) ++ classDoc s f.testClass := by
  obtain ⟨package, imports, c⟩ := f
  cases package with
  | none =>
      simp only [file, classDoc, append_assoc]
      rfl
  | some package =>
      simp only [file, classDoc, packageLines, Option.toList_some, List.map_cons, List.map_nil,
        Java.importGroup_singleton, append_assoc]
      rfl

end Kotlin

namespace JavaScript

/-- What stands below the imports. -/
def suiteDoc (s : Surroundings) (c : TestClass) : Rendering :=
  (if c.documentation.isEmpty then nothing else .ok (dialect.documentation c.documentation)) ++
    line ("describe(" ++ quote c.id.name ++ r", function () {") ++
    nest ((methods s).regions (c.regions ++ [c.statics])) ++ line r"});"

theorem file_eq (s : Surroundings) (f : SourceFile) :
    file s f = Java.importGroup (requireLines f.imports) ++ suiteDoc s f.testClass := by
  simp only [file, suiteDoc, append_assoc]
  rfl

end JavaScript

namespace Python

/-- A file opens with the lines of its imports. -/
theorem exists_below_of_file_eq_ok {s : Surroundings} {f : SourceFile} {d : Doc}
    (h : file s f = .ok d) :
    ∃ below, concat ((importLines f.imports).map line) ++ .ok below = .ok d := by
  rw [concat_lines]
  unfold file at h
  dsimp only at h
  split at h
  · cases h
  · obtain ⟨above, rest, habove, -, rfl⟩ := append_eq_ok_iff.mp h
    cases habove
    exact ⟨_, append_eq_ok_iff.mpr ⟨_, _, rfl, rfl, by simp only [List.append_assoc]; rfl⟩⟩

end Python

/-! ## Heads in general -/

/-- The text above the imports of a file. -/
def packageBlock (language : Language) (package : Option String) : String :=
  match language with
  | .java => textOfGroup (Java.packageLines package)
  | .kotlin => textOfGroup (Kotlin.packageLines package)
  | .javascript | .python | .go => ""

/-- The block of imports in a text, with the blank lines that end its groups. -/
def importBlock (language : Language) (imports : List Import) : String :=
  match language with
  | .java => textOfGroup (Java.regularLines imports) ++ textOfGroup (Java.memberLines imports)
  | .kotlin => textOfGroup (Kotlin.importLines imports)
  | .javascript => textOfGroup (JavaScript.requireLines imports)
  | .python | .go => ""

/-- What a file has below its imports in Java, Kotlin and JavaScript. -/
def classDocOf (language : Language) (s : Surroundings) (c : TestClass) : Rendering :=
  match language with
  | .kotlin => Kotlin.classDoc s c
  | .javascript => JavaScript.suiteDoc s c
  | .java | .python | .go => Java.classDoc s c

/-- In Java, Kotlin and JavaScript a file has its package and its imports above its class. -/
theorem exists_head_of_fileDoc {settings : Settings} (hpython : settings.language ≠ .python)
    (hgo : settings.language ≠ .go) (f : SourceFile) :
    ∃ head,
      fileDoc settings f =
        head ++ classDocOf settings.language (.ofFile settings f) f.testClass ∧
      WritesLines head
        (packageBlock settings.language f.package ++ importBlock settings.language f.imports) := by
  simp only [fileDoc]
  cases hlanguage : settings.language with
  | java =>
      exact ⟨_, Java.file_eq _ f, (writesLines_group _).append
        ((writesLines_group _).append (writesLines_group _))⟩
  | kotlin => exact ⟨_, Kotlin.file_eq _ f, (writesLines_group _).append (writesLines_group _)⟩
  | javascript =>
      refine ⟨_, JavaScript.file_eq _ f, ?_⟩
      rw [packageBlock, String.empty_append]
      exact writesLines_group _
  | python => exact absurd hlanguage hpython
  | go => exact absurd hlanguage hgo

end Target

end TestWriter
