import TestWriter.Layout
import TestWriter.Suite.File

/-!
# Dialects

How a target language writes code.  A dialect is a table of forms: each form gets its parts already
rendered, and puts them together in the order in which the language writes them.  The walk over
expressions and statements is the same for all dialects.
-/

namespace TestWriter

open Layout

namespace Target

/-- A rendered block of statements. -/
structure Block where
  content : Rendering
  /-- Whether there are no statements at all. -/
  isEmpty : Bool
  /-- Whether no statement does anything when it runs. -/
  isIdle : Bool
  /-- The expression, when the block evaluates one and does nothing else. -/
  sole : Option Rendering

/-- A rendered stubbing: the method, its arguments and its result. -/
structure StubForm where
  method : String
  arguments : List Rendering
  returns : Rendering

/-- The words of a language. -/
structure Words where
  ending : String
  conjunction : String
  disjunction : String
  negation : String
  lineComment : String
  regionOpen : String
  regionClose : String
  absent : String
  yes : String
  no : String
  /-- The word that starts the declaration of a variable that changes or does not change. -/
  declaration : Bool → Option String

/-- How a language writes code. -/
structure Dialect where
  language : Language
  /-- One level of indentation. -/
  tab : String
  words : Words
  literal : Literal → Doc
  /-- A text as a literal. -/
  quote : String → String
  /-- A name that is no reserved word. -/
  identifier : String → String
  typeName : DataType → Rendering
  className : ClassName → Doc
  /-- Several lines of comment. -/
  comments : List String → Doc
  /-- The documentation of a class or method. -/
  documentation : List String → Doc
  /-- The statements of a block, one level deeper. -/
  block : Block → Rendering
  declare : String → DataType → Bool → Option Rendering → Rendering
  branch : Rendering → Block → Block → Rendering
  switch : Rendering → List (Literal × Block) → Block → Rendering
  throw : Rendering → Rendering
  assertEquals : Rendering → Rendering → Option Literal → Bool → Rendering
  assertTrue : Rendering → Rendering
  assertNull : Rendering → Rendering
  assertThrows : Rendering → Block → Rendering
  fail : String → Rendering
  stub : Rendering → StubForm → Rendering
  mockedStatic : String → ClassName → List StubForm → Rendering → Rendering
  construct : ClassName → List Rendering → Rendering
  /-- A call on an object; the receiver is given also as it is, for the sake of brackets. -/
  callOn : Expr → Rendering → String → List Rendering → Rendering
  callStatic : ClassName → String → List Rendering → Rendering
  callModule : ClassName → String → List Rendering → Rendering
  staticField : ClassName → String → Rendering
  allocate : DataType → Nat → Rendering
  /-- An array with its elements, on lines of their own when the second argument holds. -/
  arrayOf : DataType → Bool → List Rendering → Rendering
  lambda : List Parameter → Block → Rendering
  /-- The equality of two values; the second is given also as it is. -/
  equal : Rendering → Expr → Rendering → Rendering
  cast : DataType → Rendering → Rendering
  notNull : Rendering → Rendering
  classOf : ClassName → Rendering
  length : Rendering → Rendering
  mock : ClassName → Rendering

open Rendering

/-- The refusal of a construct by a language. -/
def refuse (l : Language) (c : Construct) : Rendering := .error ⟨l, c⟩

namespace Dialect

/-- A comment on one line. -/
def comment (d : Dialect) (text : String) : Doc :=
  if text.isEmpty then [.text .plain d.words.lineComment, .newline]
  else [.text .plain d.words.lineComment, .text .plain " ", .text .remark text, .newline]

/-- The end of a simple statement. -/
def finish (d : Dialect) : Rendering := line d.words.ending

/-- A variable or parameter. -/
def reference (d : Dialect) (name : String) : Rendering :=
  piece (.identifier name) (d.identifier name)

/-- A call of a helper, refused when the language lacks it. -/
def callHelper (d : Dialect) (h : Helper) (arguments : List Rendering) : Rendering :=
  if h.supported d.language then
    piece (.helper h) (h.nameIn d.language) ++ say "(" ++ commas arguments ++ say ")"
  else refuse d.language (.helper h)

/-- The word of a logical operator. -/
def operator (d : Dialect) : Connective → String
  | .and => d.words.conjunction
  | .or => d.words.disjunction

mutual

/-- Write an expression. -/
def expr (d : Dialect) : Expr → Rendering
  | .literal l => .ok (d.literal l)
  | .ref name => d.reference name
  | .construct owner arguments => d.construct owner (d.exprs arguments)
  | .callOn receiver method arguments =>
    d.callOn receiver (d.expr receiver) method (d.exprs arguments)
  | .callStatic owner method arguments => d.callStatic owner method (d.exprs arguments)
  | .callModule module method arguments => d.callModule module method (d.exprs arguments)
  | .callHelper h arguments => d.callHelper h (d.exprs arguments)
  | .field target name => d.expr target ++ say "." ++ say (d.identifier name)
  | .staticField owner name => d.staticField owner name
  | .element array index => d.expr array ++ say "[" ++ d.expr index ++ say "]"
  | .allocate element size => d.allocate element size
  | .arrayOf element values => d.arrayOf element (values.any Expr.isArrayOf) (d.exprs values)
  | .lambda parameters body => d.lambda parameters (d.blockOf body)
  | .equal left right => d.equal (d.expr left) right (d.expr right)
  | .logical op left right =>
    say "(" ++ d.expr left ++ say (" " ++ d.operator op ++ " ") ++ d.expr right ++ say ")"
  | .not operand => say d.words.negation ++ say "(" ++ d.expr operand ++ say ")"
  | .cast type operand => d.cast type (d.expr operand)
  | .notNull operand => d.notNull (d.expr operand)
  | .classOf owner => d.classOf owner
  | .length operand => d.length (d.expr operand)
  | .mock owner => d.mock owner

/-- Write each of some expressions. -/
def exprs (d : Dialect) : List Expr → List Rendering
  | [] => []
  | e :: rest => d.expr e :: d.exprs rest

/-- Write a statement, from the start of a line. -/
def stmt (d : Dialect) : Stmt → Rendering
  | .declare name type isMutable initial =>
    freshLine ++ d.declare name type isMutable (d.optionalExpr initial)
  | .assign target value =>
    freshLine ++ d.expr target ++ say " = " ++ d.expr value ++ d.finish
  | .eval e => freshLine ++ d.expr e ++ d.finish
  | .ret none => freshLine ++ say "return" ++ d.finish
  | .ret (some value) => freshLine ++ say "return" ++ say " " ++ d.expr value ++ d.finish
  | .branch condition thenBody elseBody =>
    freshLine ++ d.branch (d.expr condition) (d.blockOf thenBody) (d.blockOf elseBody)
  | .switch value cases fallback =>
    freshLine ++ d.switch (d.expr value) (d.cases cases) (d.blockOf fallback)
  | .throw value => freshLine ++ d.throw (d.expr value)
  | .mockedStatic handle owner stubbings body =>
    freshLine ++ d.mockedStatic handle owner (d.stubForms stubbings) (d.stmts body)
  | .stub mock stubbing => freshLine ++ d.stub (d.expr mock) (d.stubForm stubbing)
  | .assertEquals expected actual delta deep =>
    freshLine ++ d.assertEquals (d.expr expected) (d.expr actual) delta deep
  | .assertTrue condition => freshLine ++ d.assertTrue (d.expr condition)
  | .assertNull value => freshLine ++ d.assertNull (d.expr value)
  | .assertThrows exception body =>
    freshLine ++ d.assertThrows (d.expr exception) (d.blockOf body)
  | .fail message => freshLine ++ d.fail message
  | .comment text => freshLine ++ .ok (d.comment text)
  | .comments lines => freshLine ++ .ok (d.comments lines)
  | .blank => freshLine ++ newline

/-- Write statements in order. -/
def stmts (d : Dialect) : List Stmt → Rendering
  | [] => nothing
  | s :: rest => d.stmt s ++ d.stmts rest

/-- Write an expression that may be absent. -/
def optionalExpr (d : Dialect) : Option Expr → Option Rendering
  | none => none
  | some e => some (d.expr e)

/-- Write a block. -/
def blockOf (d : Dialect) : List Stmt → Block
  | [] => ⟨nothing, true, true, none⟩
  | [.eval e] =>
    let sole := d.expr e
    ⟨freshLine ++ sole ++ d.finish, false, false, some sole⟩
  | s :: rest => ⟨d.stmt s ++ d.stmts rest, false, s.isIdle && rest.all Stmt.isIdle, none⟩

/-- Write the parts of a stubbing. -/
def stubForm (d : Dialect) : Stubbing → StubForm
  | .mk method arguments returns => ⟨method, d.exprs arguments, d.expr returns⟩

/-- Write the parts of some stubbings. -/
def stubForms (d : Dialect) : List Stubbing → List StubForm
  | [] => []
  | s :: rest => d.stubForm s :: d.stubForms rest

/-- Write the bodies of the cases of a switch. -/
def cases (d : Dialect) : List SwitchCase → List (Literal × Block)
  | [] => []
  | .mk label body :: rest => (label, d.blockOf body) :: d.cases rest

end

theorem content_blockOf (d : Dialect) (body : List Stmt) :
    (d.blockOf body).content = d.stmts body := by
  fun_cases blockOf d body with
  | case1 => simp [stmts]
  | case2 e sole => simp [stmts, stmt, append_nothing, sole]
  | case3 s rest => simp [stmts]

theorem isEmpty_blockOf (d : Dialect) (body : List Stmt) :
    (d.blockOf body).isEmpty = body.isEmpty := by
  fun_cases blockOf d body <;> simp

theorem isIdle_blockOf (d : Dialect) (body : List Stmt) :
    (d.blockOf body).isIdle = body.all Stmt.isIdle := by
  fun_cases blockOf d body <;> simp [Stmt.isIdle]

end Dialect

end Target

end TestWriter
