import TestWriter.Error

/-!
# Layout of a text

A cursor writes text and indents each line when its first piece arrives.  A document is a list of
steps for the cursor; a piece of text has a role that says what it names, and the roles leave no
trace in the text.  Main statement: running two documents one after the other is running their
concatenation.
-/

namespace TestWriter

namespace Layout

/-- The text so far, the indentation level, and whether the next piece starts a line. -/
structure Cursor where
  text : String
  level : Nat
  atLineStart : Bool
  deriving DecidableEq, Repr

/-- What a piece of text stands for. -/
inductive Role
  /-- Fixed words and signs. -/
  | plain
  /-- Text meant for a comment. -/
  | remark
  /-- The name of a variable or parameter. -/
  | identifier (name : String)
  /-- The name of a class. -/
  | ofClass (c : ClassName)
  /-- The name of a function of a module. -/
  | function (module : ClassName) (name : String)
  /-- The name of a static member that stands without its class. -/
  | staticMember (owner : ClassName) (name : String)
  /-- The name of a member of a framework class. -/
  | member (owner name : String)
  /-- The name of a helper. -/
  | helper (h : Helper)
  /-- The name by which a module or package is referred to. -/
  | module (path : String)
  deriving DecidableEq, Repr

/-- A step of the cursor. -/
inductive Step
  | text (role : Role) (s : String)
  /-- End the line. -/
  | newline
  /-- Start a line, unless the cursor is at the start of one. -/
  | freshLine
  | indent
  | dedent
  deriving DecidableEq, Repr

/-- A document. -/
abbrev Doc := List Step

namespace Cursor

/-- The cursor at the start of an empty text. -/
def start : Cursor := ⟨"", 0, true⟩

/-- Copies of a text, one after the other. -/
def copies (s : String) : Nat → String
  | 0 => ""
  | n + 1 => s ++ copies s n

/-- Write a piece on the current line; an empty piece does nothing. -/
def write (c : Cursor) (tab s : String) : Cursor :=
  if s.isEmpty then c
  else if c.atLineStart then
    { c with text := c.text ++ copies tab c.level ++ s, atLineStart := false }
  else { c with text := c.text ++ s }

/-- End the current line. -/
def newline (c : Cursor) : Cursor :=
  { c with text := c.text ++ "\n", atLineStart := true }

/-- Carry out a step. -/
def step (tab : String) (c : Cursor) : Step → Cursor
  | .text _ s => c.write tab s
  | .newline => c.newline
  | .freshLine => if c.atLineStart then c else c.newline
  | .indent => { c with level := c.level + 1 }
  | .dedent => { c with level := c.level - 1 }

/-- Carry out the steps of a document. -/
def run (tab : String) (c : Cursor) (d : Doc) : Cursor :=
  d.foldl (step tab) c

theorem run_append (tab : String) (c : Cursor) (d e : Doc) :
    c.run tab (d ++ e) = (c.run tab d).run tab e := by
  simp [run]

end Cursor

namespace Doc

/-- The text of a document. -/
def toText (tab : String) (d : Doc) : String :=
  (Cursor.start.run tab d).text

/-- The pieces of a document joined without line ends and indentation. -/
def flat (d : Doc) : String :=
  d.foldl
    (fun acc step =>
      match step with
      | .text _ s => acc ++ s
      | _ => acc)
    ""

/-- Steps with something between each two of them. -/
def intersperse (separator : Doc) : List Doc → Doc
  | [] => []
  | [d] => d
  | d :: rest => d ++ separator ++ intersperse separator rest

/-- End a line wherever a piece holds a line end. -/
def breakLines (d : Doc) : Doc :=
  d.flatMap fun step =>
    match step with
    | .text role s =>
      intersperse [.newline] ((Text.lineParts s.toList).map fun cs =>
        [Step.text role (String.ofList cs)])
    | other => [other]

end Doc

/-- A document, or what keeps it from being written. -/
abbrev Rendering := Except Unsupported Doc

namespace Rendering

/-- One rendering after the other; the first failure wins. -/
def append (a b : Rendering) : Rendering :=
  match a with
  | .error e => .error e
  | .ok d => b.map (d ++ ·)

instance : Append Rendering := ⟨append⟩

/-- The rendering that writes nothing. -/
def nothing : Rendering := .ok []

/-- A rendering that writes a document. -/
def doc (d : Doc) : Rendering := .ok d

/-- Fixed words and signs. -/
def say (s : String) : Rendering := .ok [.text .plain s]

/-- A piece with a role. -/
def piece (role : Role) (s : String) : Rendering := .ok [.text role s]

/-- The end of a line. -/
def newline : Rendering := .ok [.newline]

/-- Fixed words that end a line. -/
def line (s : String) : Rendering := .ok [.text .plain s, .newline]

/-- The start of a line. -/
def freshLine : Rendering := .ok [.freshLine]

/-- A rendering one level deeper. -/
def nest (r : Rendering) : Rendering :=
  Rendering.append (.ok [.indent]) (r.append (.ok [.dedent]))

/-- Renderings in order. -/
def concat : List Rendering → Rendering
  | [] => nothing
  | r :: rest => r ++ concat rest

/-- Renderings in order with another one between each two. -/
def separated (separator : Rendering) : List Rendering → Rendering
  | [] => nothing
  | [r] => r
  | r :: rest => r ++ separator ++ separated separator rest

/-- The renderings of a list in order, separated by commas. -/
def commas (rs : List Rendering) : Rendering := separated (say ", ") rs

theorem append_nothing (a : Rendering) : a ++ nothing = a := by
  show Rendering.append a nothing = a
  cases a <;> simp [append, nothing, Except.map]

theorem nothing_append (a : Rendering) : nothing ++ a = a := by
  show Rendering.append nothing a = a
  cases a <;> rfl

theorem append_assoc (a b c : Rendering) : a ++ b ++ c = a ++ (b ++ c) := by
  show Rendering.append (Rendering.append a b) c = Rendering.append a (Rendering.append b c)
  cases a with
  | error e => rfl
  | ok x =>
    cases b with
    | error e => rfl
    | ok y => cases c <;> simp [append, Except.map]

theorem append_eq_ok_iff {a b : Rendering} {d : Doc} :
    a ++ b = .ok d ↔ ∃ x y, a = .ok x ∧ b = .ok y ∧ d = x ++ y := by
  show Rendering.append a b = .ok d ↔ _
  cases a with
  | error e => simp [append]
  | ok x =>
    cases b with
    | error e => simp [append, Except.map]
    | ok y => simp [append, Except.map, eq_comm]

theorem concat_lines (lines : List String) :
    concat (lines.map line) = .ok (lines.flatMap fun l => [.text .plain l, .newline]) := by
  induction lines with
  | nil => rfl
  | cons l rest ih => exact append_eq_ok_iff.mpr ⟨_, _, rfl, ih, rfl⟩

end Rendering

end Layout

end TestWriter
