import TestWriter.Text.Blank

/-!
# Quoted literals

Escaping of string and character literals.  A backslash, a line feed, a carriage return and a tab
have escapes of their own, the marked characters (the quote, and `$` where it starts a template)
are preceded by a backslash, and any other control character is written as `u` with four
hexadecimal digits.
-/

namespace TestWriter.Text.Quoted

/-- A hexadecimal digit, in lower case. -/
def hexDigit (n : Nat) : Char :=
  if n < 10 then Char.ofNat (48 + n) else Char.ofNat (87 + n)

/-- A number below 65536 as four hexadecimal digits. -/
def hex4 (n : Nat) : List Char :=
  [hexDigit (n / 4096 % 16), hexDigit (n / 256 % 16), hexDigit (n / 16 % 16), hexDigit (n % 16)]

/-- The escaped form of one character. -/
def escapeChar (marked : List Char) (c : Char) : List Char :=
  if c = '\\' then ['\\', '\\']
  else if c = '\n' then ['\\', 'n']
  else if c = '\r' then ['\\', 'r']
  else if c = '\t' then ['\\', 't']
  else if c ∈ marked then ['\\', c]
  else if isControl c then '\\' :: 'u' :: hex4 c.toNat
  else [c]

/-- The escaped form of a text. -/
def escape (marked : List Char) (cs : List Char) : List Char :=
  cs.flatMap (escapeChar marked)

/-- A literal: the escaped text between two quotes. -/
def literal (quote : Char) (marked : List Char) (s : String) : String :=
  String.ofList (quote :: escape marked s.toList ++ [quote])

/-- Write a backslash before each quote of every run of three quotes. -/
def escapeTripleQuotes : List Char → List Char
  | '"' :: '"' :: '"' :: rest =>
    '\\' :: '"' :: '\\' :: '"' :: '\\' :: '"' :: escapeTripleQuotes rest
  | c :: rest => c :: escapeTripleQuotes rest
  | [] => []

end TestWriter.Text.Quoted
