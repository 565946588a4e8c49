import TestWriter.Text.CaseTable

/-!
# Letter case

Case tests and mappings of single characters, and the three changes of a name built on them:
snake case, capitalization and its inverse.  The mappings are the full unconditional ones, so one
letter can become several (`ß` becomes `SS`), and no rule looks at the neighbours of a letter.
-/

namespace TestWriter.Text

/-- Whether a character has the property Uppercase. -/
def isUpper (c : Char) : Bool :=
  if c.toNat < 128 then 'A' ≤ c && c ≤ 'Z' else inRuns uppercaseRuns c

/-- Whether a character has the property Lowercase. -/
def isLower (c : Char) : Bool :=
  if c.toNat < 128 then 'a' ≤ c && c ≤ 'z' else inRuns lowercaseRuns c

/-- Whether a character is one of the ten ASCII digits. -/
def isAsciiDigit (c : Char) : Bool :=
  '0' ≤ c && c ≤ '9'

/-- Map a character by a table of expansions and a table of shifts, in that order. -/
def mapCase (expansions : List (Nat × List Nat)) (shifts : List Shift) (c : Char) : List Char :=
  match expansions.lookup c.toNat with
  | some image => image.map Char.ofNat
  | none =>
    match shift? shifts c.toNat with
    | some image => [Char.ofNat image]
    | none => [c]

/-- The lower-case form of a character. -/
def lower (c : Char) : List Char :=
  mapCase lowerExpansions lowerShifts c

/-- The upper-case form of a character. -/
def upper (c : Char) : List Char :=
  mapCase upperExpansions upperShifts c

/-- Snake case of a run of characters; `boundary` tells whether the character before it was a
lower-case letter or a digit, so that a capital starts a new word. -/
def snake (boundary : Bool) : List Char → List Char
  | [] => []
  | c :: rest =>
    if isUpper c then
      (if boundary then ['_'] else []) ++ lower c ++ snake false rest
    else
      c :: snake (isLower c || isAsciiDigit c) rest

/-- `camelCase` or `PascalCase` as `snake_case`. -/
def snakeCase (name : String) : String :=
  String.ofList (snake false name.toList)

/-- The name with its first character in upper case. -/
def capitalize (name : String) : String :=
  match name.toList with
  | [] => ""
  | c :: rest => String.ofList (upper c ++ rest)

/-- The name with its first character in lower case. -/
def decapitalize (name : String) : String :=
  match name.toList with
  | [] => ""
  | c :: rest => String.ofList (lower c ++ rest)

end TestWriter.Text
