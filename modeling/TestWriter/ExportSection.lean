import TestWriter.OrderedMap
import TestWriter.Text.Blank
import TestWriter.Text.Lines

/-!
# ExportSection of a JavaScript module

Tests take names from the module under test, so the module has to export them.  The exports stand
in a section between two marker comments, which grows in place; all other text is kept.
-/

namespace TestWriter.ExportSection

/-- The line that opens the section. -/
def beginMarker : String := "// testsmith:exports:begin"

/-- The line that closes the section. -/
def endMarker : String := "// testsmith:exports:end"

/-- A source text that holds a section: the text before it, in it and after it. -/
structure Sectioned where
  before : List Char
  body : List Char
  after : List Char

/-- The first section of a source text. -/
def section? (source : List Char) : Option Sectioned := do
  let (before, rest) ← Text.cut? beginMarker.toList source
  let (body, after) ← Text.cut? endMarker.toList rest
  return ⟨before, body, after⟩

/-- The text up to the last closing brace, or all of it if there is none. -/
def withoutClosing (cs : List Char) : List Char :=
  match Text.splitLast? '}' cs with
  | some (inner, _) => inner
  | none => cs

/-- The name of a member of an object: the text before a colon, without blanks around it. -/
def memberName (cs : List Char) : List Char :=
  Text.trim (cs.takeWhile (· ≠ ':'))

/-- The names that a section exports. -/
def names (body : List Char) : List String :=
  match Text.cut? ['{'] body with
  | none => []
  | some (_, rest) =>
    (((Text.parts ',' (withoutClosing rest)).map memberName).filter fun cs => !cs.isEmpty).foldl
      (fun known cs => insertLast known (String.ofList cs)) []

/-- The text of a section with its markers. -/
def block (exported : List String) : String :=
  beginMarker ++ ("\n" ++ r"module.exports = {" ++ "\n") ++
    String.join (exported.map fun name => "    " ++ name ++ ",\n") ++
    (r"};" ++ "\n") ++ endMarker

/-- A source text with a section behind it, one blank line apart. -/
def append (source : String) (exported : List String) : String :=
  let ended :=
    if source.isEmpty || source.toList.getLast? = some '\n' then source else source ++ "\n"
  (if ended.isEmpty then "" else ended ++ "\n") ++ block exported ++ "\n"

/-- The source text with names added to its section.  Names that are exported keep their position,
new ones follow; `none` means that there is nothing to add. -/
def update? (source : String) (added : List String) : Option String :=
  let found := section? source.toList
  let old := (found.map fun s => names s.body).getD []
  let new := (added.filter fun name => !name.isEmpty).foldl insertLast old
  if new.length = old.length then none
  else
    match found with
    | some s => some (String.ofList s.before ++ block new ++ String.ofList s.after)
    | none => some (append source new)

end TestWriter.ExportSection
