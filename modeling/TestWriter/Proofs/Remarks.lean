import TestWriter.Target.Python

/-!
# Remarks

The comments of a text, with the texts that they hold: behind a mark on a line of its own, on lines
between slashes with stars, or between three quotes.  Main statement: a remark is written with
pieces that are meant for comments, and fixed words.
-/

namespace TestWriter

/-- The word that starts a comment up to the end of the line. -/
def Language.lineComment : Language → String
  | .python => "#"
  | _ => "//"

/-- The word that opens a region. -/
def Language.regionMark : Language → String
  | .java => "///region"
  | .python => "# region"
  | _ => "//region"

namespace Target

open Layout

/-- A comment with its texts. -/
inductive Remark
  /-- A text behind a mark, on a line of its own. -/
  | marked (mark text : String)
  /-- Texts on lines between slashes with stars, with one more star if they document something. -/
  | starred (documents : Bool) (texts : List String)
  /-- Texts between three quotes. -/
  | quoted (texts : List String)

namespace Remark

/-- The text that opens a comment with stars. -/
def star (documents : Bool) : String := if documents then "/**" else "/*"

/-- How a remark is written. -/
def doc : Remark → Doc
  | .marked mark text => [.text .plain mark, .text .plain " ", .text .remark text, .newline]
  | .starred documents texts => starComment (star documents) texts
  | .quoted texts => Python.docstring texts

/-- The remarks that a language writes. -/
def IsOf (l : Language) : Remark → Prop
  | .marked mark _ => mark = l.lineComment ∨ mark = l.regionMark
  | .starred .. => l = .java ∨ l = .kotlin ∨ l = .javascript
  | .quoted _ => l = .python

/-- A remark consists of fixed words and of texts meant for comments. -/
theorem role_of_mem {r : Remark} {role : Role} {s : String} (h : .text role s ∈ r.doc) :
    role = .plain ∨ role = .remark := by
  cases r with
  | marked mark text =>
      simp only [doc] at h
      grind
  | starred documents texts =>
      simp only [doc, starComment, List.mem_append, List.mem_flatMap] at h
      rcases h with (h | ⟨text, -, h⟩) | h
      · grind
      · split at h <;> grind
      · grind
  | quoted texts =>
      simp only [doc, Python.docstring] at h
      split at h
      · grind
      · simp only [List.mem_append, List.mem_flatMap] at h
        rcases h with (h | ⟨text, -, h⟩) | h <;> grind

end Remark

end Target

end TestWriter
