import TestWriter.Target.Dialect
import TestWriter.Target.Settings

/-!
# Methods, regions and files

A target adds to a dialect how methods open and close and how a file is put together.  The walk
over regions is the same for all targets: a region opens with its header, its members stand apart
by blank lines, and only a region with a header has a closing line.
-/

namespace TestWriter.Target

open Layout Rendering

/-- How a language writes methods. -/
structure MethodForms where
  dialect : Dialect
  /-- Annotations and signature, up to the first line of the body. -/
  opening : Method → Rendering
  closing : Method → Rendering
  helper : Helper → Rendering
  /-- The documentation and the body between opening and closing. -/
  whole : Method → Rendering

/-- A method with its documentation above it. -/
def documentedAbove (d : Dialect) (opening closing : Method → Rendering) (m : Method) : Rendering :=
  (if m.documentation.isEmpty then nothing else .ok (d.documentation m.documentation)) ++
    opening m ++ d.stmts m.body ++ closing m

namespace MethodForms

/-- A method; the body of a helper comes from the target. -/
def method (f : MethodForms) (m : Method) : Rendering :=
  match m.kind with
  | .helper h => f.helper h
  | _ => f.whole m

/-- The line that opens a region. -/
def regionHeader (f : MethodForms) : Option String → Rendering
  | none => nothing
  | some header =>
    say f.dialect.words.regionOpen ++ say " " ++ piece .remark header ++ newline

/-- The comment that documents a region. -/
def regionDocumentation (f : MethodForms) (lines : List String) : Rendering :=
  if lines.isEmpty then nothing else .ok (f.dialect.comments lines)

/-- The line that closes a region with a header. -/
def regionFooter (f : MethodForms) : Option String → Rendering
  | none => nothing
  | some _ => line f.dialect.words.regionClose

mutual

/-- A region with its members. -/
def region (f : MethodForms) : Region → Rendering
  | .mk header documentation items =>
    f.regionHeader header ++ f.regionDocumentation documentation ++
      f.items header.isSome items ++ f.regionFooter header

/-- The members of a region; the first one stands apart when `apart` holds. -/
def items (f : MethodForms) (apart : Bool) : List RegionItem → Rendering
  | [] => nothing
  | .region r :: rest =>
    (if apart then newline else nothing) ++ f.region r ++ f.items true rest
  | .method m :: rest =>
    (if apart then newline else nothing) ++ f.method m ++ f.items true rest

end

/-- The regions that have members. -/
def inhabited (regions : List Region) : List Region :=
  regions.filter fun r => !r.isEmpty

/-- The regions that have members, with a blank line between each two. -/
def regions (f : MethodForms) (rs : List Region) : Rendering :=
  separated newline ((inhabited rs).map f.region)

end MethodForms

/-- How a language writes files. -/
structure FileForms where
  methods : Surroundings → MethodForms
  file : Surroundings → SourceFile → Rendering

/-- A comment between slashes with stars. -/
def starComment (opening : String) (lines : List String) : Doc :=
  [.text .plain opening, .newline] ++
    lines.flatMap (fun text =>
      if text.isEmpty then [.text .plain " *", .newline]
      else [.text .plain " * ", .text .remark text, .newline]) ++
    [.text .plain " */", .newline]

/-- A block in braces after the text that leads to it, with an optional second block. -/
def bracedBranch (d : Block → Rendering) (lead : Rendering) (thenBlock elseBlock : Block) :
    Rendering :=
  lead ++ d thenBlock ++
    (if elseBlock.isEmpty then nothing else line r"} else {" ++ d elseBlock) ++
    line r"}"

/-- Renderings on lines of their own, one level deeper, with commas between them. -/
def linesWithCommas : List Rendering → Rendering
  | [] => nothing
  | [r] => r ++ newline
  | r :: rest => r ++ say "," ++ newline ++ linesWithCommas rest

/-- The elements of an array, in one line or on lines of their own. -/
def elements (onLines : Bool) (values : List Rendering) : Rendering :=
  if onLines then newline ++ nest (linesWithCommas values) else commas values

/-- A name with an underscore when it is a reserved word. -/
def avoid (reserved : List String) (name : String) : String :=
  if reserved.contains name then name ++ "_" else name

/-- The names of parameters. -/
def parameterNames (d : Dialect) (ps : List Parameter) : Rendering :=
  commas (ps.map fun p => d.reference p.name)

/-- Members of one owner, the owners in order of their first member. -/
def membersByOwner (imports : List Import) : OrderedMap String (List String) :=
  imports.foldl
    (fun acc i =>
      match i with
      | .member owner name => acc.alter owner fun names => names.getD [] ++ [name]
      | .regular .. => acc)
    .empty

end TestWriter.Target
