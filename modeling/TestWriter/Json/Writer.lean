import TestWriter.Decimal.Text
import TestWriter.Json.Basic

/-!
# Writing JSON

The compact form: no blanks between the parts of a value, and in a string nothing is escaped but
quotes, backslashes and control characters.
-/

namespace TestWriter.Json

/-- The characters that are escaped by a letter, each with its letter. -/
def escapeLetters : List (Char × Char) :=
  [('"', '"'), ('\\', '\\'), ('\x08', 'b'), ('\x0c', 'f'), ('\n', 'n'), ('\r', 'r'), ('\t', 't')]

/-- A character inside a string. -/
def escape (c : Char) : List Char :=
  match escapeLetters.lookup c with
  | some letter => ['\\', letter]
  | none =>
    if c.toNat < 0x20 then
      ['\\', 'u', '0', '0', Nat.digitChar (c.toNat / 16), Nat.digitChar (c.toNat % 16)]
    else [c]

/-- A string in quotes. -/
def quoted (s : String) : List Char :=
  '"' :: s.toList.flatMap escape ++ ['"']

/-- The text of a number. -/
def Number.chars : Number → List Char
  | .integer n => (toString n).toList
  | .real x => x.text.toList

mutual

/-- The characters of a value; there are none for what cannot be read. -/
def chars : Json → List Char
  | .null => ['n', 'u', 'l', 'l']
  | .bool true => ['t', 'r', 'u', 'e']
  | .bool false => ['f', 'a', 'l', 's', 'e']
  | .number n => n.chars
  | .string s => quoted s
  | .array elements => '[' :: elementChars elements
  | .object members => '{' :: memberChars members
  | .unreadable => []

/-- The elements of an array, up to its closing bracket. -/
def elementChars : List Json → List Char
  | [] => [']']
  | j :: rest => j.chars ++ if rest.isEmpty then [']'] else ',' :: elementChars rest

/-- The members of an object, up to its closing brace. -/
def memberChars : List (String × Json) → List Char
  | [] => ['}']
  | (key, j) :: rest =>
    quoted key ++ ':' :: j.chars ++ if rest.isEmpty then ['}'] else ',' :: memberChars rest

end

/-- The text of a value. -/
def text (j : Json) : String := String.ofList j.chars

end TestWriter.Json
