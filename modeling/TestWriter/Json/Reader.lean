import TestWriter.Json.Number

/-!
# Reading JSON

A strict reader: blanks are space, tab, line feed and carriage return; nothing follows the value;
strings hold no raw control characters.  Half of a surrogate pair is a well-formed escape, but
leaves its string without a value.  Arrays and objects are read to a limit of nesting.
-/

namespace TestWriter.Json

/-- The text after leading blanks. -/
def skipBlanks (cs : List Char) : List Char :=
  cs.dropWhile fun c => c = ' ' || c = '\t' || c = '\n' || c = '\r'

/-- The value of a hexadecimal digit. -/
def hexValue? (c : Char) : Option Nat :=
  if '0' ≤ c && c ≤ '9' then some (c.toNat - 48)
  else if 'a' ≤ c && c ≤ 'f' then some (c.toNat - 87)
  else if 'A' ≤ c && c ≤ 'F' then some (c.toNat - 55)
  else none

/-- The value of four hexadecimal digits. -/
def hex4? (a b c d : Char) : Option Nat := do
  return (((← hexValue? a) * 16 + (← hexValue? b)) * 16 + (← hexValue? c)) * 16 + (← hexValue? d)

/-- The character of an escape letter. -/
def escapeLetter? : Char → Option Char
  | '"' => some '"'
  | '\\' => some '\\'
  | '/' => some '/'
  | 'b' => some '\x08'
  | 'f' => some '\x0c'
  | 'n' => some '\n'
  | 'r' => some '\r'
  | 't' => some '\t'
  | _ => none

/-- The character of a pair of surrogates. -/
def surrogatePair? (n m : Nat) : Option Char :=
  if (0xd800 ≤ n && n < 0xdc00) && (0xdc00 ≤ m && m < 0xe000) then
    some (Char.ofNat (0x10000 + (n - 0xd800) * 0x400 + (m - 0xdc00)))
  else none

/-- The character of an escape that stands alone; a surrogate is none. -/
def codeUnit? (n : Nat) : Option Char :=
  if 0xd800 ≤ n && n < 0xe000 then none else some (Char.ofNat n)

/-- Put a character before others, if all of them are there. -/
def pushChar (c : Option Char) (read : Option (List Char)) : Option (List Char) :=
  match c, read with
  | some c, some cs => some (c :: cs)
  | _, _ => none

/-- Read the rest of a string after its opening quote; `read` holds the characters so far, the last
one first, unless the string has no value. -/
def readChars (read : Option (List Char)) :
    List Char → Option (Option (List Char) × List Char)
  | [] => none
  | '"' :: rest => some (read.map List.reverse, rest)
  | '\\' :: 'u' :: a :: b :: c :: d :: '\\' :: 'u' :: a' :: b' :: c' :: d' :: rest =>
    match hex4? a b c d, hex4? a' b' c' d' with
    | some n, some m =>
      match surrogatePair? n m with
      | some pair => readChars (pushChar (some pair) read) rest
      | none =>
        readChars (pushChar (codeUnit? n) read)
          ('\\' :: 'u' :: a' :: b' :: c' :: d' :: rest)
    | _, _ => none
  | '\\' :: 'u' :: a :: b :: c :: d :: rest =>
    match hex4? a b c d with
    | none => none
    | some n => readChars (pushChar (codeUnit? n) read) rest
  | '\\' :: c :: rest =>
    match escapeLetter? c with
    | none => none
    | some e => readChars (pushChar (some e) read) rest
  | c :: rest => if c.toNat < 0x20 then none else readChars (pushChar (some c) read) rest
termination_by cs => cs.length

/-- Read a string that starts with a quote. -/
def readString : List Char → Option (Option String × List Char)
  | '"' :: rest => (readChars (some []) rest).map fun (cs, rest) => (cs.map String.ofList, rest)
  | _ => none

/-- Drop an expected word. -/
def dropWord : List Char → List Char → Option (List Char)
  | [], cs => some cs
  | w :: word, c :: cs => if w = c then dropWord word cs else none
  | _ :: _, [] => none

/-- A value, if the text has one. -/
def orUnreadable {α : Type} (make : α → Json) : Option α → Json
  | some a => make a
  | none => .unreadable

/-- Put a member before others, if all names have a value. -/
def consMember (key : Option String) (value : Json) (more : Option (List (String × Json))) :
    Option (List (String × Json)) :=
  match key, more with
  | some key, some members => some ((key, value) :: members)
  | _, _ => none

mutual

/-- Read a value; the first argument bounds the recursion. -/
def readValue : Nat → List Char → Option (Json × List Char)
  | 0, _ => none
  | fuel + 1, cs =>
    match skipBlanks cs with
    | '{' :: rest =>
      match skipBlanks rest with
      | '}' :: rest => some (.object [], rest)
      | rest => (readMembers fuel rest).map fun (ms, rest) => (orUnreadable .object ms, rest)
    | '[' :: rest =>
      match skipBlanks rest with
      | ']' :: rest => some (.array [], rest)
      | rest => (readElements fuel rest).map fun (es, rest) => (.array es, rest)
    | '"' :: rest =>
      (readString ('"' :: rest)).map fun (s, rest) => (orUnreadable .string s, rest)
    | 'n' :: rest => (dropWord ['u', 'l', 'l'] rest).map fun rest => (.null, rest)
    | 't' :: rest => (dropWord ['r', 'u', 'e'] rest).map fun rest => (.bool true, rest)
    | 'f' :: rest => (dropWord ['a', 'l', 's', 'e'] rest).map fun rest => (.bool false, rest)
    | cs => (readNumber cs).map fun (n, rest) => (orUnreadable .number n, rest)

/-- Read the members of an object up to its closing brace. -/
def readMembers : Nat → List Char → Option (Option (List (String × Json)) × List Char)
  | 0, _ => none
  | fuel + 1, cs => do
    let (key, rest) ← readString (skipBlanks cs)
    match skipBlanks rest with
    | ':' :: rest =>
      let (value, rest) ← readValue fuel rest
      match skipBlanks rest with
      | ',' :: rest =>
        let (more, rest) ← readMembers fuel rest
        return (consMember key value more, rest)
      | '}' :: rest => return (consMember key value (some []), rest)
      | _ => none
    | _ => none

/-- Read the elements of an array up to its closing bracket. -/
def readElements : Nat → List Char → Option (List Json × List Char)
  | 0, _ => none
  | fuel + 1, cs => do
    let (value, rest) ← readValue fuel cs
    match skipBlanks rest with
    | ',' :: rest =>
      let (more, rest) ← readElements fuel rest
      return (value :: more, rest)
    | ']' :: rest => return ([value], rest)
    | _ => none

end

mutual

/-- A value of which arrays and objects are read to a limit of nesting; those beyond it can only be
skipped. -/
def limited : Nat → Json → Json
  | 0, .array _ => .unreadable
  | limit + 1, .array elements => .array (limitedElements limit elements)
  | 0, .object _ => .unreadable
  | limit + 1, .object members => .object (limitedMembers limit members)
  | _, j => j

/-- The elements of an array, read to a limit of nesting. -/
def limitedElements (limit : Nat) : List Json → List Json
  | [] => []
  | j :: rest => limited limit j :: limitedElements limit rest

/-- The members of an object, read to a limit of nesting. -/
def limitedMembers (limit : Nat) : List (String × Json) → List (String × Json)
  | [] => []
  | (key, j) :: rest => (key, limited limit j) :: limitedMembers limit rest

end

/-- How many arrays and objects may be nested in a text that is read. -/
def nestingLimit : Nat := 127

/-- Read a text that holds one value and nothing else, up to the limit of nesting.  Every step of
the reader consumes a character, so the bound is never met. -/
def read? (text : String) : Option Json :=
  let cs := text.toList
  match readValue (2 * cs.length + 2) cs with
  | some (j, rest) => if skipBlanks rest = [] then some (j.limited nestingLimit) else none
  | none => none

end TestWriter.Json
