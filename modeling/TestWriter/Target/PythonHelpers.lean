import TestWriter.Helper

/-!
# Helpers in Python

The source lines of the helpers that Python has.
-/

namespace TestWriter.Target

/-- The lines of a helper, if Python has it. -/
def pythonHelper? : Helper → Option (List String)
  | .deepEquals =>
    some
      ["def deep_equals(o1, o2):",
       "    if o1 is o2:",
       "        return True",
       "    if o1 is None or o2 is None:",
       "        return False",
       "    if isinstance(o1, dict):",
       "        return isinstance(o2, dict) and maps_deep_equals(o1, o2)",
       "    if isinstance(o1, (str, bytes, set, frozenset)):",
       "        return o1 == o2",
       "    if isinstance(o1, (list, tuple)):",
       "        return isinstance(o2, (list, tuple)) and iterables_deep_equals(o1, o2)",
       "    if type(o1) is not type(o2):",
       "        return False",
       "    if has_custom_equals(o1):",
       "        return o1 == o2",
       "    if hasattr(o1, \"__dict__\"):",
       "        return maps_deep_equals(vars(o1), vars(o2))",
       "    return o1 == o2"]
  | .iterablesDeepEquals =>
    some
      ["def iterables_deep_equals(i1, i2):",
       "    first = list(i1)",
       "    second = list(i2)",
       "    if len(first) != len(second):",
       "        return False",
       "    return all(deep_equals(a, b) for a, b in zip(first, second))"]
  | .mapsDeepEquals =>
    some
      ["def maps_deep_equals(m1, m2):",
       "    if m1.keys() != m2.keys():",
       "        return False",
       "    return all(deep_equals(m1[key], m2[key]) for key in m1)"]
  | .hasCustomEquals =>
    some
      ["def has_custom_equals(obj):",
       "    return type(obj).__eq__ is not object.__eq__"]
  | _ => none

end TestWriter.Target
