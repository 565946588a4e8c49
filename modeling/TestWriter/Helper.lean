import TestWriter.Language
import TestWriter.Text.Case

/-!
# Helper methods

The methods that generated tests call: deep equality with its cases, and reflective access to
objects.  Some helpers call others, and the deep equality family is mutually recursive.  Main
statements: a helper is resolved when it is reachable and new, and nothing is resolved twice.
-/

namespace TestWriter

/-- A helper method. -/
inductive Helper
  | deepEquals
  | arraysDeepEquals
  | iterablesDeepEquals
  | streamsDeepEquals
  | mapsDeepEquals
  | hasCustomEquals
  | createInstance
  | getUnsafeInstance
  | setField
  | getFieldValue
  deriving DecidableEq, Repr

namespace Helper

/-- Every helper, in the order of the helper class. -/
def all : List Helper :=
  [.deepEquals, .arraysDeepEquals, .iterablesDeepEquals, .streamsDeepEquals, .mapsDeepEquals,
   .hasCustomEquals, .createInstance, .getUnsafeInstance, .setField, .getFieldValue]

theorem mem_all (h : Helper) : h ∈ all := by
  cases h <;> decide

/-- The name of the helper; no two helpers share one. -/
def name : Helper → String
  | .deepEquals => "deepEquals"
  | .arraysDeepEquals => "arraysDeepEquals"
  | .iterablesDeepEquals => "iterablesDeepEquals"
  | .streamsDeepEquals => "streamsDeepEquals"
  | .mapsDeepEquals => "mapsDeepEquals"
  | .hasCustomEquals => "hasCustomEquals"
  | .createInstance => "createInstance"
  | .getUnsafeInstance => "getUnsafeInstance"
  | .setField => "setField"
  | .getFieldValue => "getFieldValue"

theorem name_injective {h k : Helper} (e : h.name = k.name) : h = k := by
  cases h <;> cases k <;> first | rfl | exact absurd e (by decide)

/-- The helpers with their names in snake case. -/
def names : List (String × Helper) := all.map fun h => (Text.snakeCase h.name, h)

/-- The name as a language spells it. -/
def nameIn (h : Helper) : Language → String
  | .python => Text.snakeCase h.name
  | _ => h.name

/-- The helpers that the helper calls. -/
def dependencies : Helper → List Helper
  | .deepEquals =>
    [.arraysDeepEquals, .iterablesDeepEquals, .streamsDeepEquals, .mapsDeepEquals, .hasCustomEquals]
  | .arraysDeepEquals | .iterablesDeepEquals | .streamsDeepEquals | .mapsDeepEquals =>
    [.deepEquals]
  | .createInstance => [.getUnsafeInstance]
  | .hasCustomEquals | .getUnsafeInstance | .setField | .getFieldValue => []

/-- Whether a language has the helper. -/
def supported (h : Helper) : Language → Bool
  | .java | .kotlin => true
  | .python =>
    match h with
    | .deepEquals | .iterablesDeepEquals | .mapsDeepEquals | .hasCustomEquals => true
    | _ => false
  | .javascript | .go => false

/-- Whether the body of the helper looks at mock objects. -/
def looksAtMocks (h : Helper) : Bool := h = .deepEquals

/-- The helpers that a language has and whose names are not in a list. -/
def unseen (language : Language) (seen : List String) : List Helper :=
  all.filter fun h => h.supported language && !seen.contains h.name

theorem mem_unseen {language : Language} {seen : List String} {h : Helper} :
    h ∈ unseen language seen ↔ h.supported language = true ∧ h.name ∉ seen := by
  simp [unseen, mem_all]

theorem length_unseen_cons {language : Language} {seen : List String} {h : Helper}
    (hs : h.supported language = true) (hn : h.name ∉ seen) :
    (unseen language (h.name :: seen)).length < (unseen language seen).length := by
  have hsub : unseen language (h.name :: seen) =
      (unseen language seen).filter fun k => !(k.name == h.name) := by
    simp only [unseen, List.filter_filter, List.contains_cons]
    congr 1
    funext k
    cases k.supported language <;> simp
  rw [hsub]
  apply List.length_filter_lt_length_iff_exists.2
  exact ⟨h, mem_unseen.2 ⟨hs, hn⟩, by simp⟩

/-- Close a queue of helpers over their dependencies.  A helper that the language lacks or whose
name was seen is passed over; any other is resolved, its name is seen, and its dependencies join
the end of the queue.  Returns the resolved helpers in order and all seen names, the last first. -/
def resolve (language : Language) (seen : List String) :
    List Helper → List Helper × List String
  | [] => ([], seen)
  | h :: queue =>
    if _hh : h.supported language = true ∧ h.name ∉ seen then
      let (resolved, names) := resolve language (h.name :: seen) (queue ++ h.dependencies)
      (h :: resolved, names)
    else resolve language seen queue
termination_by queue => ((unseen language seen).length, queue.length)
decreasing_by
  · exact Prod.Lex.left _ _ (length_unseen_cons _hh.1 _hh.2)
  · exact Prod.Lex.right _ (by simp)

end Helper

end TestWriter
