import TestWriter.Proofs.FreshNames
import TestWriter.Proofs.Indentation
import TestWriter.Proofs.SuiteReading
import TestWriter.Target.Render

/-!
# Suites of statements in Python

`pass` is written in a suite when none of its statements does anything, which is judged by the kinds
of the statements alone.  A switch without cases counts as doing something, but it is written as its
default, and that may be nothing or comments.  Main statements: an expression is code, and the lines
of statements hold code and have their headings filled exactly as the statements tell.
-/

namespace TestWriter.Target.Python

open Layout Rendering
open Decimal (Scientific positional exponential)

/-! ## Literals -/

/-- A character of a number. -/
def isNumeral (c : Char) : Bool := c.isDigit || c = '-' || c = '.' || c = 'e'

/-- A text consists of characters of numbers, at least one. -/
structure IsNumeral (cs : List Char) : Prop where
  ne_nil : cs ≠ []
  numeral : ∀ c ∈ cs, isNumeral c

theorem IsNumeral.negate {cs : List Char} (h : IsNumeral cs) : IsNumeral ('-' :: cs) :=
  ⟨List.cons_ne_nil _ _, List.forall_mem_cons.mpr ⟨rfl, h.numeral⟩⟩

theorem isNumeral_toDigits (n : Nat) : IsNumeral (Nat.toDigits 10 n) := by
  refine ⟨Nat.toDigits_ne_nil, fun c hc => ?_⟩
  simp [isNumeral, Nat.isDigit_of_mem_toDigits (by omega) (by omega) hc]

theorem isNumeral_toString (n : Int) : IsNumeral (toString n).toList := by
  cases n with
  | ofNat n =>
      have heq : (toString (Int.ofNat n)).toList = Nat.toDigits 10 n := Nat.toList_repr
      rw [heq]
      exact isNumeral_toDigits n
  | negSucc n =>
      have heq : (toString (Int.negSucc n)).toList = '-' :: Nat.toDigits 10 (n + 1) := by
        show ("-" ++ (n + 1).repr).toList = _
        rw [String.toList_append, Nat.toList_repr]
        rfl
      rw [heq]
      exact (isNumeral_toDigits _).negate

theorem isNumeral_positional {digits : List Char} (h : IsNumeral digits) (places : Int) :
    IsNumeral (positional digits places) := by
  have hdigits := h.numeral
  have hzero : isNumeral '0' = true := rfl
  have hpoint : isNumeral '.' = true := rfl
  simp only [positional]
  split
  · exact ⟨List.cons_ne_nil _ _, by grind⟩
  · split
    · exact ⟨by simp, by grind⟩
    · exact ⟨by simp, by grind [List.mem_of_mem_take, List.mem_of_mem_drop]⟩

theorem isNumeral_exponential {digits : List Char} (h : IsNumeral digits) (exponent : Int) :
    IsNumeral (exponential digits exponent) := by
  have hdigits := h.numeral
  have hexponent := (isNumeral_toString exponent).numeral
  have hpoint : isNumeral '.' = true := rfl
  have hmark : isNumeral 'e' = true := rfl
  simp only [exponential]
  split <;> exact ⟨by simp, by grind⟩

theorem isNumeral_text (x : Scientific) : IsNumeral x.text := by
  simp only [Scientific.text]
  split
  · exact ⟨List.cons_ne_nil _ _, by simp [isNumeral]⟩
  · split
    · exact isNumeral_positional (isNumeral_toDigits _) _
    · exact isNumeral_exponential (isNumeral_toDigits _) _

/-- A number that is finite is written as such. -/
theorem isNumeral_textOf (f : Decimal.Format) (negative : Bool) (m : Nat) (q : Int) :
    IsNumeral (Decimal.textOf f negative (.finite m q)).toList := by
  have hdigits : IsNumeral (if m = 0 then Scientific.text ⟨0, 0⟩
      else (Decimal.shortest f m q).text) := by
    split <;> exact isNumeral_text _
  simp only [Decimal.textOf, String.toList_ofList]
  split
  · exact hdigits.negate
  · exact hdigits

/-- A number starts no comment and no heading, as each heading has another letter. -/
theorem IsNumeral.isCode {s : String} (h : IsNumeral s.toList) : IsCode [.text .plain s] := by
  obtain ⟨c, cs, hs⟩ := List.exists_cons_of_ne_nil h.ne_nil
  have hc : isNumeral c = true := h.numeral c (hs ▸ List.mem_cons_self)
  have hblank : c ≠ ' ' := by
    rintro rfl
    cases hc
  have hmark : c ≠ '#' := by
    rintro rfl
    cases hc
  have hunindented : unindented s = s.toList := by simp [unindented, hs, hblank]
  refine isCode_words (by simp [startsCode, hunindented, hs, hmark]) ?_
  simp only [startsHeading, hunindented, List.any_eq_false, List.isPrefixOf_iff_prefix]
  intro word hword hstart
  have hletter : ∀ word ∈ headingWords, word.toList.any fun c => !isNumeral c := by decide
  obtain ⟨letter, hmem, hnot⟩ := List.any_eq_true.mp (hletter word hword)
  rw [h.numeral letter (hstart.subset hmem)] at hnot
  cases hnot

theorem isCode_quote (s : String) : IsCode [.text .plain (quote s)] :=
  isCode_words (by simp [quote, Text.Quoted.literal, startsCode, unindented])
    (by simp [quote, Text.Quoted.literal, startsHeading, unindented, headingWords, List.isPrefixOf])

theorem isCode_special (x : Decimal.Special) : IsCode [.text .plain (special x)] := by
  cases x <;> exact isCode_words rfl rfl

theorem isCode_literal (l : Literal) : IsCode [.text .plain (literal l)] := by
  cases l with
  | null => exact isCode_words rfl rfl
  | bool b => cases b <;> exact isCode_words rfl rfl
  | byte n => exact (isNumeral_toString _).isCode
  | short n => exact (isNumeral_toString _).isCode
  | int n => exact (isNumeral_toString _).isCode
  | long n => exact (isNumeral_toString _).isCode
  | char c => exact isCode_quote _
  | str s => exact isCode_quote s
  | float x =>
      simp only [literal, float, Decimal.Binary32.special?, Decimal.Binary32.text]
      cases x.magnitude with
      | finite m q => exact (isNumeral_textOf _ _ m q).isCode
      | _ => exact isCode_special _
  | double x =>
      simp only [literal, double, Decimal.Binary64.special?, Decimal.Binary64.text]
      cases x.magnitude with
      | finite m q => exact (isNumeral_textOf _ _ m q).isCode
      | _ => exact isCode_special _

/-! ## Renderings -/

/-- What a rendering writes has a property. -/
def Writes (P : Doc → Prop) (r : Rendering) : Prop := ∀ d, r = .ok d → P d

section Renderings

variable {P Q R : Doc → Prop} {r r' : Rendering} {rs : List Rendering} {code code' filled : Bool}
  {filled' : Bool}

theorem writes_ok {d : Doc} (h : P d) : Writes P (.ok d) := by
  intro d' hd
  cases hd
  exact h

theorem writes_refuse (l : Language) (c : Construct) : Writes P (refuse l c) := by
  intro d hd
  cases hd

theorem Writes.append (hr : Writes P r) (hr' : Writes Q r') (h : ∀ d e, P d → Q e → R (d ++ e)) :
    Writes R (r ++ r') := by
  intro d hd
  obtain ⟨x, y, hx, hy, rfl⟩ := append_eq_ok_iff.mp hd
  exact h x y (hr x hx) (hr' y hy)

theorem Writes.mono (hr : Writes P r) (h : ∀ d, P d → Q d) : Writes Q r :=
  fun d hd => h d (hr d hd)

theorem writes_ite {c : Prop} [Decidable c] (hr : Writes P r) (hr' : Writes P r') :
    Writes P (if c then r else r') := by
  split
  · exact hr
  · exact hr'

theorem continues_of_isCode (h : Writes IsCode r) : Writes Continues r :=
  h.mono fun _ => IsCode.continues

theorem continues_say (text : String) : Writes Continues (say text) :=
  writes_ok (continues_text _ _)

theorem continues_piece (role : Role) (text : String) :
    Writes Continues (piece role text) :=
  writes_ok (continues_text _ _)

theorem continues_append (hr : Writes Continues r) (hr' : Writes Continues r') :
    Writes Continues (r ++ r') :=
  hr.append hr' fun _ _ => Continues.append

theorem continues_commas (h : ∀ r ∈ rs, Writes IsCode r) :
    Writes Continues (commas rs) := by
  unfold commas
  fun_induction separated (say ", ") rs with
  | case1 => exact writes_ok continues_nil
  | case2 r => exact continues_of_isCode (h r List.mem_cons_self)
  | case3 r rest hrest ih =>
      obtain ⟨hr, hrs⟩ := List.forall_mem_cons.mp h
      exact continues_append (continues_append (continues_of_isCode hr) (continues_say _)) (ih hrs)

theorem isCode_append (hr : Writes IsCode r) (hr' : Writes Continues r') :
    Writes IsCode (r ++ r') :=
  hr.append hr' fun _ _ => IsCode.append

theorem isCode_say {text : String} (hcode : startsCode .plain text)
    (hheading : startsHeading text = false) : Writes IsCode (say text) :=
  writes_ok (isCode_words hcode hheading)

theorem isCode_piece {role : Role} (hrole : role ≠ .plain) (text : String) :
    Writes IsCode (piece role text) :=
  writes_ok (isCode_name hrole text)

theorem writes_nest (hr : Writes P r)
    (h : ∀ d, P d → Q ([.indent] ++ (d ++ [.dedent]))) : Writes Q r.nest := by
  intro d hd
  rw [nest_eq] at hd
  obtain ⟨_, _, hindent, hrest, rfl⟩ := append_eq_ok_iff.mp hd
  obtain ⟨x, _, hx, hdedent, rfl⟩ := append_eq_ok_iff.mp hrest
  cases hindent
  cases hdedent
  exact h x (hr x hx)

theorem Writes.append_ok (hr : Writes P r) {e : Doc} (h : ∀ d, P d → Q (d ++ e)) :
    Writes Q (r ++ .ok e) :=
  hr.append (writes_ok (P := (· = e)) rfl) fun d _ hd he => he ▸ h d hd

theorem writes_ok_append {e : Doc} (hr : Writes P r) (h : ∀ d, P d → Q (e ++ d)) :
    Writes Q (.ok e ++ r) :=
  (writes_ok (P := (· = e)) rfl).append hr fun _ d he hd => he ▸ h d hd

theorem innerLines_linesWithCommas (h : ∀ r ∈ rs, Writes IsCode r) :
    Writes InnerLines (linesWithCommas rs) := by
  have hline {r : Rendering} (hr : Writes IsCode r) : Writes InnerLines (r ++ newline) :=
    hr.append_ok fun _ => IsCode.innerLines
  fun_induction linesWithCommas rs with
  | case1 => exact writes_ok innerLines_nil
  | case2 r => exact hline (h r List.mem_cons_self)
  | case3 r rest hrest ih =>
      obtain ⟨hr, hrs⟩ := List.forall_mem_cons.mp h
      have hfirst := hline (isCode_append hr (continues_say ","))
      exact hfirst.append (ih hrs) fun _ _ => InnerLines.append

theorem isCode_elements (onLines : Bool) (h : ∀ r ∈ rs, Writes IsCode r) :
    Writes IsCode (say "[" ++ elements onLines rs ++ say "]") := by
  cases onLines with
  | false =>
      exact isCode_append (isCode_append (isCode_say rfl rfl) (continues_commas h))
        (continues_say _)
  | true =>
      have hnest : Writes (fun d => Breaks ([.newline] ++ d)) (nest (linesWithCommas rs)) :=
        writes_nest (innerLines_linesWithCommas h) fun _ => InnerLines.breaks
      have hbreaks : Writes Breaks (newline ++ nest (linesWithCommas rs)) :=
        writes_ok_append hnest fun _ hd => hd
      have hopening : Writes (fun d => IsCode (d ++ [.text .plain "]"]))
          (say "[" ++ (newline ++ nest (linesWithCommas rs))) :=
        writes_ok_append hbreaks fun _ => Breaks.isCode_array
      exact hopening.append_ok fun _ hd => hd

theorem reads_append (hr : Writes (Reads code filled) r)
    (hr' : Writes (Reads code' filled') r') :
    Writes (Reads (code || code') (filled && filled')) (r ++ r') :=
  hr.append hr' fun _ _ => Reads.append

/-- The same when it is not known whether there is a line of code. -/
theorem exists_reads_append (hr : ∃ code, Writes (Reads code true) r)
    (hr' : ∃ code, Writes (Reads code true) r') : ∃ code, Writes (Reads code true) (r ++ r') := by
  obtain ⟨code, hr⟩ := hr
  obtain ⟨code', hr'⟩ := hr'
  exact ⟨_, reads_append hr hr'⟩

theorem reads_nothing : Writes (Reads false true) nothing := writes_ok reads_nil

theorem writes_newline : Writes (Reads false true) newline := writes_ok reads_newline

theorem reads_freshLine_append (hr : Writes (Reads code filled) r) :
    Writes (Reads code filled) (freshLine ++ r) :=
  writes_ok_append hr fun _ hd => hd

theorem reads_line {text : String} (hcode : startsCode .plain text)
    (hheading : startsHeading text = false) : Writes (Reads true true) (line text) :=
  writes_ok (isCode_words hcode hheading).reads

theorem opensLine_fresh (hr : Writes IsCode r) : Writes OpensLine (freshLine ++ r) :=
  writes_ok_append hr fun _ hd => hd.begins.opensLine.fresh

theorem opensLine_of_isCode (hr : Writes IsCode r) : Writes OpensLine r :=
  hr.mono fun _ hd => hd.begins.opensLine

theorem opensLine_append (hr : Writes OpensLine r) (hr' : Writes Continues r') :
    Writes OpensLine (r ++ r') :=
  hr.append hr' fun _ _ => OpensLine.append

/-- The end of a line of code. -/
theorem reads_append_line (hr : Writes OpensLine r) (text : String) :
    Writes (Reads true true) (r ++ line text) := by
  rw [append_line_eq]
  exact (opensLine_append hr (continues_say text)).append_ok fun _ => OpensLine.reads

/-- An expression on a line of its own. -/
theorem reads_append_newline (hr : Writes IsCode r) :
    Writes (Reads true true) (r ++ newline) :=
  hr.append_ok fun _ => IsCode.reads

theorem opensHeading_say (word : String) (hword : word ∈ headingWords) :
    Writes OpensHeading (say word) := by
  have hopens := opensHeading_word word hword ""
  rw [String.append_empty] at hopens
  exact writes_ok hopens

theorem opensHeading_append (hr : Writes OpensHeading r) (hr' : Writes Continues r') :
    Writes OpensHeading (r ++ r') :=
  hr.append hr' fun _ _ => OpensHeading.append

/-- A heading with lines one level deeper. -/
theorem reads_heading (hr : Writes IsHeading r) (hr' : Writes (Reads code filled) r') :
    Writes (Reads true (code && filled)) (r ++ r'.nest) :=
  hr.append (writes_nest (Q := fun e => ∃ d, Reads code filled d ∧
      e = [.indent] ++ (d ++ [.dedent])) hr' fun d hd => ⟨d, hd, rfl⟩)
    fun _ _ hheading => by
      rintro ⟨d, hd, rfl⟩
      exact hheading.reads_suite hd

theorem isHeading_append_line (hr : Writes OpensHeading r) (text : String)
    (htext : endsInColon text) : Writes IsHeading (r ++ line text) :=
  hr.append_ok fun _ hd => hd.isHeading htext

end Renderings

/-! ## Expressions and statements -/

variable {rs : List Rendering} (s : Surroundings)

theorem isCode_className (c : ClassName) : Writes IsCode (.ok (className s c)) := by
  refine writes_ok ?_
  have hclass : IsCode [.text (.ofClass c) c.name] := isCode_name (by simp) c.name
  unfold className
  split
  · exact hclass
  · split
    · exact (isCode_name (by simp) _).append ((continues_text .plain ".").append
        (continues_text .plain c.name))
    · exact hclass

theorem continues_call (method : String) (h : ∀ r ∈ rs, Writes IsCode r) :
    Writes Continues (call method rs) :=
  continues_append (continues_append (continues_say _) (continues_commas h)) (continues_say _)

theorem isCode_pytest (member : String) : Writes IsCode (pytest member) :=
  isCode_append (isCode_piece (by simp) _) (continues_say _)

theorem isCode_reference (name : String) : Writes IsCode ((dialect s).reference name) :=
  isCode_piece (by simp) _

mutual

/-- Whether a statement is written without a line of code: it does nothing, or it is a switch
without cases and with such a default. -/
def isSilent : Stmt → Bool
  | .comment _ | .comments _ | .blank => true
  | .switch _ cases fallback => cases.isEmpty && areSilent fallback
  | _ => false

/-- Whether statements are written without a line of code. -/
def areSilent : List Stmt → Bool
  | [] => true
  | x :: rest => isSilent x && areSilent rest

end

/-- Whether the suite of some statements has a line of code: a statement, or `pass` when all of them
are of a kind that does nothing. -/
def hasCode (body : List Stmt) : Bool := body.all Stmt.isIdle || !areSilent body

mutual

/-- Whether the headings with which a statement is written have lines of code below them. -/
def isFilled : Stmt → Bool
  | .branch _ thenBody elseBody =>
    (hasCode thenBody && areFilled thenBody) && (hasCode elseBody && areFilled elseBody)
  | .switch _ cases fallback =>
    if cases.isEmpty then areFilled fallback
    else areCasesFilled cases && (hasCode fallback && areFilled fallback)
  | .assertThrows _ body => hasCode body && areFilled body
  | _ => true

/-- Whether the headings with which statements are written have lines of code below them. -/
def areFilled : List Stmt → Bool
  | [] => true
  | x :: rest => isFilled x && areFilled rest

/-- Whether the cases of a switch have lines of code, and the headings in them. -/
def areCasesFilled : List SwitchCase → Bool
  | [] => true
  | .mk _ body :: rest => (hasCode body && areFilled body) && areCasesFilled rest

end

section Suites

variable {r : Rendering} {body : List Stmt}

theorem reads_suite
    (h : Writes (Reads (!areSilent body) (areFilled body)) ((dialect s).stmts body)) :
    Writes (Reads (hasCode body) (areFilled body)) (suite ((dialect s).blockOf body)) := by
  rw [suite, Dialect.content_blockOf, Dialect.isIdle_blockOf]
  cases hidle : body.all Stmt.isIdle with
  | false =>
      have hsuite := reads_append h reads_nothing
      simpa [hasCode, hidle] using hsuite
  | true =>
      have hpass : Writes (Reads true true) (freshLine ++ line "pass") :=
        reads_freshLine_append (reads_line rfl rfl)
      have hsuite := reads_append h hpass
      simpa [hasCode, hidle] using hsuite

theorem reads_block (hr : Writes IsHeading r)
    (h : Writes (Reads (!areSilent body) (areFilled body)) ((dialect s).stmts body)) :
    Writes (Reads true (hasCode body && areFilled body))
      (r ++ nest (suite ((dialect s).blockOf body))) :=
  reads_heading hr (reads_suite s h)

end Suites

mutual

/-- An expression is code. -/
theorem isCode_expr : ∀ e : Expr, Writes IsCode ((dialect s).expr e)
  | .literal l => writes_ok (isCode_literal l)
  | .ref name => isCode_reference s name
  | .construct owner arguments =>
      isCode_append (isCode_append (isCode_append (isCode_className s owner) (continues_say _))
        (continues_commas (isCode_exprs arguments))) (continues_say _)
  | .callOn receiver method arguments =>
      isCode_append (isCode_append (isCode_expr receiver) (continues_say _))
        (continues_call method (isCode_exprs arguments))
  | .callStatic owner method arguments =>
      isCode_append (isCode_append (isCode_className s owner) (continues_say _))
        (continues_call method (isCode_exprs arguments))
  | .callModule module method arguments =>
      isCode_append (isCode_append (isCode_append (isCode_piece (by simp) _) (continues_say _))
        (continues_commas (isCode_exprs arguments))) (continues_say _)
  | .callHelper h arguments => by
      have harguments := isCode_exprs arguments
      simp only [Dialect.expr, Dialect.callHelper]
      split
      · exact isCode_append (isCode_append (isCode_append (isCode_piece (by simp) _)
          (continues_say _)) (continues_commas harguments)) (continues_say _)
      · exact writes_refuse _ _
  | .field target _ =>
      isCode_append (isCode_append (isCode_expr target) (continues_say _)) (continues_say _)
  | .staticField owner _ => isCode_append (isCode_className s owner) (continues_say _)
  | .element array index =>
      isCode_append (isCode_append (isCode_append (isCode_expr array) (continues_say _))
        (continues_of_isCode (isCode_expr index))) (continues_say _)
  | .allocate _ size => by
      simp only [Dialect.expr, dialect]
      refine isCode_say ?_ ?_ <;>
        simp [startsCode, startsHeading, unindented, headingWords, String.toList_append,
          List.isPrefixOf]
  | .arrayOf _ values => isCode_elements _ (isCode_exprs values)
  | .lambda ps body => by
      have hsole := isCode_sole body
      simp only [Dialect.expr, dialect]
      split
      · exact writes_refuse _ _
      · next e he =>
        have hnames : ∀ r ∈ ps.map fun p => piece (.identifier p.name) (avoid reserved p.name),
            Writes IsCode r := List.forall_mem_map.mpr fun p _ => isCode_piece (by simp) _
        refine isCode_append (writes_ite (isCode_say rfl rfl) ?_) (continues_of_isCode (hsole e he))
        exact isCode_append (isCode_append (isCode_say rfl rfl) (continues_commas hnames))
          (continues_say _)
  | .equal left right =>
      writes_ite (isCode_append (isCode_expr left) (continues_say _))
        (isCode_append (isCode_append (isCode_expr left) (continues_say _))
          (continues_of_isCode (isCode_expr right)))
  | .logical _ left right =>
      isCode_append (isCode_append (isCode_append (isCode_append (isCode_say rfl rfl)
        (continues_of_isCode (isCode_expr left))) (continues_say _))
        (continues_of_isCode (isCode_expr right))) (continues_say _)
  | .not operand =>
      have hnot : Writes IsCode (say "not ") := isCode_say rfl rfl
      isCode_append (isCode_append (isCode_append hnot (continues_say _))
        (continues_of_isCode (isCode_expr operand))) (continues_say _)
  | .cast _ operand => isCode_expr operand
  | .notNull operand => isCode_expr operand
  | .classOf owner => isCode_className s owner
  | .length operand =>
      isCode_append (isCode_append (isCode_say rfl rfl)
        (continues_of_isCode (isCode_expr operand))) (continues_say _)
  | .mock _ => writes_refuse _ _

theorem isCode_exprs : ∀ es : List Expr, ∀ r ∈ (dialect s).exprs es, Writes IsCode r
  | [] => fun _ hr => absurd hr List.not_mem_nil
  | e :: rest => List.forall_mem_cons.mpr ⟨isCode_expr e, isCode_exprs rest⟩

/-- The expression that a block evaluates is code. -/
theorem isCode_sole : ∀ body : List Stmt, ∀ r ∈ ((dialect s).blockOf body).sole, Writes IsCode r
  | [] => by simp [Dialect.blockOf]
  | x :: rest => by
      cases x with
      | eval e =>
          have he := isCode_expr e
          cases rest with
          | nil => simpa [Dialect.blockOf] using he
          | cons x' rest' => simp [Dialect.blockOf]
      | _ => simp [Dialect.blockOf]

end

theorem reads_comment (text : String) : Reads false true ((dialect s).comment text) := by
  simp only [Dialect.comment]
  split
  · exact trails_nil.reads_comment (s := "#") (by simp) rfl
  · exact ((trails_text .plain " ").append (trails_text .remark text)).reads_comment (s := "#")
      (by simp) rfl

theorem reads_comments (lines : List String) : Reads false true ((dialect s).comments lines) := by
  induction lines with
  | nil => exact reads_nil
  | cons text rest ih => exact (reads_comment s text).append ih

theorem reads_otherwise {body : List Stmt}
    (h : Writes (Reads (!areSilent body) (areFilled body)) ((dialect s).stmts body)) :
    Writes (Reads (!body.isEmpty) (hasCode body && areFilled body))
      (if ((dialect s).blockOf body).isEmpty then nothing
       else line "else:" ++ nest (suite ((dialect s).blockOf body))) := by
  rw [Dialect.isEmpty_blockOf]
  cases body with
  | nil => exact reads_nothing
  | cons x rest => exact reads_block s (writes_ok isHeading_otherwise) h

section Forms

variable {r r' : Rendering}

theorem reads_declare (name : String) (type : DataType) (isMutable : Bool)
    {initial : Option Rendering} (h : ∀ r ∈ initial, Writes Continues r) :
    Writes (Reads true true) ((dialect s).declare name type isMutable initial) := by
  have hname := isCode_append (isCode_reference s name) (continues_say " = ")
  refine reads_append_newline (isCode_append hname ?_)
  cases initial with
  | none => exact continues_say _
  | some r => exact h r rfl

theorem reads_assertEquals (hr : Writes Continues r) (hr' : Writes Continues r')
    (delta : Option Literal) (deep : Bool) :
    Writes (Reads true true) ((dialect s).assertEquals r r' delta deep) := by
  refine writes_ite (reads_append_newline ?_) (reads_append_newline ?_)
  · have hassert : Writes IsCode (say "assert ") := isCode_say rfl rfl
    refine isCode_append (isCode_append (isCode_append hassert hr') (continues_say _)) ?_
    cases delta with
    | none => exact hr
    | some l =>
        have hexpected := continues_append (continues_of_isCode (isCode_pytest "approx(")) hr
        exact continues_append (continues_append (continues_append hexpected (continues_say _))
          (continues_say _)) (continues_say _)
  · have hword : Writes IsCode (say (if delta.isSome then "self.assertAlmostEqual("
        else "self.assertEqual(")) := by
      split <;> exact isCode_say rfl rfl
    have hvalues := isCode_append (isCode_append (isCode_append hword hr) (continues_say ", ")) hr'
    refine isCode_append (isCode_append hvalues ?_) (continues_say _)
    cases delta with
    | none => exact writes_ok continues_nil
    | some l => exact continues_append (continues_say _) (continues_say _)

theorem reads_assertTrue (hr : Writes Continues r) :
    Writes (Reads true true) ((dialect s).assertTrue r) :=
  writes_ite (reads_append_newline (isCode_append (isCode_say rfl rfl) hr))
    (reads_append_newline (isCode_append (isCode_append (isCode_say rfl rfl) hr)
      (continues_say _)))

theorem reads_assertNull (hr : Writes Continues r) :
    Writes (Reads true true) ((dialect s).assertNull r) :=
  writes_ite
    (reads_append_newline (isCode_append (isCode_append (isCode_say rfl rfl) hr)
      (continues_say _)))
    (reads_append_newline (isCode_append (isCode_append (isCode_say rfl rfl) hr)
      (continues_say _)))

theorem reads_fail (message : String) : Writes (Reads true true) ((dialect s).fail message) := by
  refine reads_append_newline (isCode_append (isCode_append ?_ (continues_say _))
    (continues_say _))
  exact writes_ite (isCode_pytest _) (isCode_say rfl rfl)

/-- The heading of statements that are to raise an exception. -/
theorem isHeading_raises (hr : Writes Continues r) :
    Writes IsHeading ((if isPytest s then say "with " ++ pytest "raises("
      else say "with self.assertRaises(") ++ r ++ line "):") := by
  have hunittest := opensHeading_word "with " (by decide) "self.assertRaises("
  refine isHeading_append_line (opensHeading_append (writes_ite ?_ (writes_ok hunittest)) hr) _ rfl
  exact opensHeading_append (opensHeading_say "with " (by decide))
    (continues_of_isCode (isCode_pytest _))

end Forms

mutual

/-- A statement is written as lines, one of them code unless the statement is silent. -/
theorem reads_stmt :
    ∀ x : Stmt, Writes (Reads (!isSilent x) (isFilled x)) ((dialect s).stmt x)
  | .declare name type isMutable none =>
      reads_freshLine_append (reads_declare s name type isMutable (by simp [Dialect.optionalExpr]))
  | .declare name type isMutable (some e) => by
      refine reads_freshLine_append (reads_declare s name type isMutable ?_)
      simpa [Dialect.optionalExpr] using continues_of_isCode (isCode_expr s e)
  | .assign target value =>
      reads_append_line (opensLine_append (opensLine_append (opensLine_fresh (isCode_expr s target))
        (continues_say _)) (continues_of_isCode (isCode_expr s value))) _
  | .eval e => reads_append_line (opensLine_fresh (isCode_expr s e)) _
  | .ret none => reads_append_line (opensLine_fresh (isCode_say rfl rfl)) _
  | .ret (some e) =>
      reads_append_line (opensLine_append (opensLine_append (opensLine_fresh (isCode_say rfl rfl))
        (continues_say _)) (continues_of_isCode (isCode_expr s e))) _
  | .branch condition thenBody elseBody => by
      have hheading : Writes IsHeading (say "if " ++ (dialect s).expr condition ++ line ":") :=
        isHeading_append_line (opensHeading_append (opensHeading_say "if " (by decide))
          (continues_of_isCode (isCode_expr s condition))) ":" rfl
      have hbranch := reads_append (reads_block s hheading (reads_stmts thenBody))
        (reads_otherwise s (reads_stmts elseBody))
      rw [Bool.true_or] at hbranch
      exact reads_freshLine_append hbranch
  | .switch value labelled fallback => by
      have hfallback := reads_stmts fallback
      have hchain := reads_chain (continues_of_isCode (isCode_expr s value)) "if " (by decide)
        labelled
      refine reads_freshLine_append ?_
      cases labelled with
      | nil =>
          refine Eq.mpr ?_ hfallback
          simp [dialect, Dialect.cases, Dialect.content_blockOf, isSilent, isFilled]
      | cons c rest =>
          cases c
          have hswitch := reads_append hchain (reads_otherwise s hfallback)
          rw [isSilent, isFilled]
          exact hswitch
  | .throw value =>
      reads_freshLine_append (reads_append_newline (isCode_append (isCode_say rfl rfl)
        (continues_of_isCode (isCode_expr s value))))
  | .mockedStatic .. => reads_freshLine_append (writes_refuse _ _)
  | .stub .. => reads_freshLine_append (writes_refuse _ _)
  | .assertEquals expected actual delta deep =>
      reads_freshLine_append (reads_assertEquals s (continues_of_isCode (isCode_expr s expected))
        (continues_of_isCode (isCode_expr s actual)) delta deep)
  | .assertTrue condition =>
      reads_freshLine_append (reads_assertTrue s (continues_of_isCode (isCode_expr s condition)))
  | .assertNull value =>
      reads_freshLine_append (reads_assertNull s (continues_of_isCode (isCode_expr s value)))
  | .assertThrows exception body =>
      reads_freshLine_append (reads_block s
        (isHeading_raises s (continues_of_isCode (isCode_expr s exception))) (reads_stmts body))
  | .fail message => reads_freshLine_append (reads_fail s message)
  | .comment text => reads_freshLine_append (writes_ok (reads_comment s text))
  | .comments lines => reads_freshLine_append (writes_ok (reads_comments s lines))
  | .blank => reads_freshLine_append writes_newline

theorem reads_stmts :
    ∀ body : List Stmt, Writes (Reads (!areSilent body) (areFilled body)) ((dialect s).stmts body)
  | [] => reads_nothing
  | x :: rest => by
      have hcons := reads_append (reads_stmt x) (reads_stmts rest)
      rw [← Bool.not_and] at hcons
      exact hcons

/-- The cases of a switch are written as a chain of conditions. -/
theorem reads_chain {value : Rendering} (hvalue : Writes Continues value) (word : String)
    (hword : word ∈ headingWords) : ∀ cases : List SwitchCase,
      Writes (Reads (!cases.isEmpty) (areCasesFilled cases))
        (chain (fun b => nest (suite b)) value word ((dialect s).cases cases))
  | [] => reads_nothing
  | .mk label body :: rest => by
      have hheading := isHeading_append_line (opensHeading_append (opensHeading_append
        (opensHeading_append (opensHeading_say word hword) hvalue) (continues_say " == "))
        (continues_say (literal label))) ":" rfl
      exact reads_append (reads_block s hheading (reads_stmts body))
        (reads_chain hvalue "elif " (by decide) rest)

end

end TestWriter.Target.Python
