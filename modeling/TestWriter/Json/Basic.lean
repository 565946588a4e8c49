import TestWriter.Decimal.Scaled

/-!
# JSON values

Values as they are written: the members of an object keep their order and their repetitions, and a
number is an integer of 64 bits or a floating point number.  A well-formed text that stands for no
such value can be skipped, but not read.
-/

namespace TestWriter

/-- A number of a JSON text. -/
inductive Json.Number
  | integer (value : Int)
  | real (value : Decimal.Binary64)
  deriving DecidableEq

/-- A JSON value. -/
inductive Json
  | null
  | bool (value : Bool)
  | number (value : Json.Number)
  | string (value : String)
  | array (elements : List Json)
  | object (members : List (String × Json))
  /-- A number beyond all floating point numbers, a string with half of a surrogate pair, an object
  with such a name, or an array or object that is nested too deeply. -/
  | unreadable

namespace Json

/-- The number that an integer is written as. -/
def int (n : Int) : Json := .number (.integer n)

/-- An optional value, absent as `null`. -/
def option {α : Type} (encode : α → Json) : Option α → Json
  | none => .null
  | some a => encode a

/-- A list of values. -/
def list {α : Type} (encode : α → Json) (xs : List α) : Json :=
  .array (xs.map encode)

mutual

/-- The nesting depth of a value, a bound for the recursion of readers. -/
def depth : Json → Nat
  | .array elements => depthElements elements + 1
  | .object members => depthMembers members + 1
  | _ => 1

/-- The largest depth of some elements. -/
def depthElements : List Json → Nat
  | [] => 0
  | j :: rest => max j.depth (depthElements rest)

/-- The largest depth of the values of some members. -/
def depthMembers : List (String × Json) → Nat
  | [] => 0
  | (_, j) :: rest => max j.depth (depthMembers rest)

end

mutual

/-- Whether nothing inside a value is unreadable. -/
def isReadable : Json → Bool
  | .array elements => elementsReadable elements
  | .object members => membersReadable members
  | .unreadable => false
  | _ => true

/-- Whether all elements are readable. -/
def elementsReadable : List Json → Bool
  | [] => true
  | j :: rest => j.isReadable && elementsReadable rest

/-- Whether the values of all members are readable. -/
def membersReadable : List (String × Json) → Bool
  | [] => true
  | (_, j) :: rest => j.isReadable && membersReadable rest

end

theorem membersReadable_eq_true_iff {members : List (String × Json)} :
    membersReadable members = true ↔ ∀ member ∈ members, member.2.isReadable = true := by
  induction members with
  | nil => simp [membersReadable]
  | cons member rest ih => simp [membersReadable, ih]

end Json

end TestWriter
