import TestWriter.Json.Basic

/-!
# Members of objects

Decoding of records.  A decoder answers `none` for a value it refuses.  A member that is asked for
may occur once at most; members that nobody asks for are skipped, unless the value is held: what is
held has to be readable throughout.
-/

namespace TestWriter.Json

/-- The members of an object. -/
abbrev Fields := List (String × Json)

/-- The members of a value that is an object. -/
def fields? : Json → Option Fields
  | .object members => some members
  | _ => none

/-- A text. -/
def string? : Json → Option String
  | .string s => some s
  | _ => none

/-- A truth value. -/
def bool? : Json → Option Bool
  | .bool b => some b
  | _ => none

/-- An integer within bounds. -/
def intIn? (low high : Int) : Json → Option Int
  | .number (.integer n) => if low ≤ n ∧ n ≤ high then some n else none
  | _ => none

/-- A natural number of 64 bits. -/
def uint64? (j : Json) : Option Nat :=
  (j.intIn? 0 (UInt64.size - 1)).map Int.toNat

/-- Decode each element of an array. -/
def list? {α : Type} (decode : Json → Option α) : Json → Option (List α)
  | .array elements => elements.mapM decode
  | _ => none

/-- Decode a value, or `null` as its absence. -/
def nullable? {α : Type} (decode : Json → Option α) : Json → Option (Option α)
  | .null => some none
  | j => (decode j).map some

/-- How a value comes to its reader: straight from the text, or held back until the tag that tells
how to read it is known. -/
inductive Access
  | direct
  | held
  deriving DecidableEq

/-- The content of a constructor without content; in a held value it may be an empty object. -/
def isUnit : Access → Json → Bool
  | _, .null => true
  | .held, .object [] => true
  | _, _ => false

/-- A constructor without content: its name, or an object that maps its name to no content. -/
def name? (access : Access) : Json → Option String
  | .string s => some s
  | .object [(s, content)] => if isUnit access content then some s else none
  | _ => none

/-- One of several named values, in a value of the given access. -/
def enumBy? {α : Type} (access : Access) (table : List (String × α)) (j : Json) : Option α :=
  (j.name? access).bind fun name => table.lookup name

/-- One of several named values. -/
def enum? {α : Type} (table : List (String × α)) (j : Json) : Option α :=
  j.enumBy? .direct table

/-- The name of a value in a table. -/
def enumName {α : Type} [DecidableEq α] (table : List (String × α)) (a : α) : Json :=
  .string (((table.find? fun entry => entry.2 = a).map Prod.fst).getD "")

/-- A constructor without content, which may also be written with the content `null`. -/
def unit? {α : Type} (a : α) : Option Json → Option α
  | none | some .null => some a
  | some _ => none

namespace Fields

/-- The value of a member that occurs once at most; `none` when it is repeated. -/
def unique? (fs : Fields) (key : String) : Option (Option Json) :=
  match fs.filter fun member => member.1 == key with
  | [] => some none
  | [member] => some (some member.2)
  | _ => none

/-- A member that has to be present. -/
def required {α : Type} (fs : Fields) (key : String) (decode : Json → Option α) : Option α :=
  match fs.unique? key with
  | some (some j) => decode j
  | _ => none

/-- A member with a value to use in its absence. -/
def withDefault {α : Type} (fs : Fields) (key : String) (decode : Json → Option α) (default : α) :
    Option α :=
  match fs.unique? key with
  | some (some j) => decode j
  | some none => some default
  | none => none

/-- A member that may be absent or `null`. -/
def optional {α : Type} (fs : Fields) (key : String) (decode : Json → Option α) :
    Option (Option α) :=
  fs.withDefault key (nullable? decode) none

/-- Whether every member has one of the given names. -/
def onlyKnown (fs : Fields) (known : List String) : Bool :=
  fs.all fun member => known.contains member.1

/-- The tag and the content of a tagged value, in either order, and the access to the content.
Content before its tag is held, and nothing unreadable can be held. -/
def tagged? (fs : Fields) (access : Access) (tag content : String) :
    Option (String × Option Json × Access) := do
  let name ← fs.required tag (name? access)
  let value ← fs.unique? content
  match fs.find? fun member => member.1 == tag || member.1 == content with
  | some (key, first) =>
    if key == tag then return (name, value, access)
    else if first.isReadable then return (name, value, .held)
    else none
  | none => none

/-- The tag of a record that has it among its members; the other members are held. -/
def innerTag? (fs : Fields) (tag : String) : Option String :=
  if membersReadable (fs.filter fun member => member.1 != tag) then fs.required tag string?
  else none

end Fields

end TestWriter.Json
