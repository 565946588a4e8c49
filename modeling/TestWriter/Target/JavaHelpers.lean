import TestWriter.Helper

/-!
# Helpers in Java

The source lines of the helpers.  They name every class in full, so a helper never needs an import
in the file that holds it.
-/

namespace TestWriter.Target

/-- The lines of a helper that is declared with the given modifiers.  With `mocks`, deep equality
never holds of a mock object. -/
def javaHelper (modifiers : String) (mocks : Bool) : Helper → List String
  | .deepEquals =>
    [modifiers ++ r" boolean deepEquals(Object o1, Object o2) {",
     r"    if (o1 == o2) {",
     "        return true;",
     r"    }",
     r"    if (o1 == null || o2 == null) {",
     "        return false;",
     r"    }"] ++
    (if mocks then
        [r"    if (org.mockito.Mockito.mockingDetails(o1).isMock() || org.mockito.Mockito.mockingDetails(o2).isMock()) {",
         "        return false;",
         r"    }"]
      else []) ++
    [r"    if (o1 instanceof Iterable) {",
     r"        if (!(o2 instanceof Iterable)) {",
     "            return false;",
     r"        }",
     "        return iterablesDeepEquals((Iterable<?>) o1, (Iterable<?>) o2);",
     r"    }",
     r"    if (o2 instanceof Iterable) {",
     "        return false;",
     r"    }",
     r"    if (o1 instanceof java.util.stream.BaseStream) {",
     r"        if (!(o2 instanceof java.util.stream.BaseStream)) {",
     "            return false;",
     r"        }",
     "        return streamsDeepEquals((java.util.stream.BaseStream<?, ?>) o1, (java.util.stream.BaseStream<?, ?>) o2);",
     r"    }",
     r"    if (o2 instanceof java.util.stream.BaseStream) {",
     "        return false;",
     r"    }",
     r"    if (o1 instanceof java.util.Map) {",
     r"        if (!(o2 instanceof java.util.Map)) {",
     "            return false;",
     r"        }",
     "        return mapsDeepEquals((java.util.Map<?, ?>) o1, (java.util.Map<?, ?>) o2);",
     r"    }",
     r"    if (o2 instanceof java.util.Map) {",
     "        return false;",
     r"    }",
     "    Class<?> firstClass = o1.getClass();",
     r"    if (firstClass.isArray()) {",
     r"        if (!o2.getClass().isArray()) {",
     "            return false;",
     r"        }",
     "        return arraysDeepEquals(o1, o2);",
     r"    }",
     r"    if (hasCustomEquals(firstClass)) {",
     "        return o1.equals(o2);",
     r"    }",
     r"    if (firstClass != o2.getClass()) {",
     "        return false;",
     r"    }",
     r"    for (Class<?> clazz = firstClass; clazz != null; clazz = clazz.getSuperclass()) {",
     r"        for (java.lang.reflect.Field field : clazz.getDeclaredFields()) {",
     r"            if (java.lang.reflect.Modifier.isStatic(field.getModifiers())) {",
     "                continue;",
     r"            }",
     "            field.setAccessible(true);",
     r"            try {",
     r"                if (!deepEquals(field.get(o1), field.get(o2))) {",
     "                    return false;",
     r"                }",
     r"            } catch (IllegalAccessException e) {",
     "                return false;",
     r"            }",
     r"        }",
     r"    }",
     "    return true;",
     r"}"]
  | .arraysDeepEquals =>
    [modifiers ++ r" boolean arraysDeepEquals(Object arr1, Object arr2) {",
     "    int length = java.lang.reflect.Array.getLength(arr1);",
     r"    if (length != java.lang.reflect.Array.getLength(arr2)) {",
     "        return false;",
     r"    }",
     r"    for (int i = 0; i < length; i++) {",
     r"        if (!deepEquals(java.lang.reflect.Array.get(arr1, i), java.lang.reflect.Array.get(arr2, i))) {",
     "            return false;",
     r"        }",
     r"    }",
     "    return true;",
     r"}"]
  | .iterablesDeepEquals =>
    [modifiers ++ r" boolean iterablesDeepEquals(Iterable<?> i1, Iterable<?> i2) {",
     "    java.util.Iterator<?> firstIterator = i1.iterator();",
     "    java.util.Iterator<?> secondIterator = i2.iterator();",
     r"    while (firstIterator.hasNext() && secondIterator.hasNext()) {",
     r"        if (!deepEquals(firstIterator.next(), secondIterator.next())) {",
     "            return false;",
     r"        }",
     r"    }",
     "    return !firstIterator.hasNext() && !secondIterator.hasNext();",
     r"}"]
  | .streamsDeepEquals =>
    [modifiers ++ r" boolean streamsDeepEquals(java.util.stream.BaseStream<?, ?> s1, java.util.stream.BaseStream<?, ?> s2) {",
     "    java.util.Iterator<?> firstIterator = s1.iterator();",
     "    java.util.Iterator<?> secondIterator = s2.iterator();",
     r"    while (firstIterator.hasNext() && secondIterator.hasNext()) {",
     r"        if (!deepEquals(firstIterator.next(), secondIterator.next())) {",
     "            return false;",
     r"        }",
     r"    }",
     "    return !firstIterator.hasNext() && !secondIterator.hasNext();",
     r"}"]
  | .mapsDeepEquals =>
    [modifiers ++ r" boolean mapsDeepEquals(java.util.Map<?, ?> m1, java.util.Map<?, ?> m2) {",
     r"    if (m1.size() != m2.size()) {",
     "        return false;",
     r"    }",
     r"    for (java.util.Map.Entry<?, ?> entry : m1.entrySet()) {",
     r"        if (!m2.containsKey(entry.getKey())) {",
     "            return false;",
     r"        }",
     r"        if (!deepEquals(entry.getValue(), m2.get(entry.getKey()))) {",
     "            return false;",
     r"        }",
     r"    }",
     "    return true;",
     r"}"]
  | .hasCustomEquals =>
    [modifiers ++ r" boolean hasCustomEquals(Class<?> clazz) {",
     r"    while (clazz != null && !Object.class.equals(clazz)) {",
     r"        try {",
     "            clazz.getDeclaredMethod(\"equals\", Object.class);",
     "            return true;",
     r"        } catch (Exception e) {",
     "            clazz = clazz.getSuperclass();",
     r"        }",
     r"    }",
     "    return false;",
     r"}"]
  | .createInstance =>
    [modifiers ++ r" Object createInstance(String className) throws Exception {",
     "    Class<?> clazz = Class.forName(className);",
     "    return Class.forName(\"sun.misc.Unsafe\")",
     "        .getDeclaredMethod(\"allocateInstance\", Class.class)",
     "        .invoke(getUnsafeInstance(), clazz);",
     r"}"]
  | .getUnsafeInstance =>
    [modifiers ++ r" Object getUnsafeInstance() throws Exception {",
     "    java.lang.reflect.Field f = Class.forName(\"sun.misc.Unsafe\").getDeclaredField(\"theUnsafe\");",
     "    f.setAccessible(true);",
     "    return f.get(null);",
     r"}"]
  | .setField =>
    [modifiers ++ r" void setField(Object object, String fieldName, Object fieldValue) throws Exception {",
     r"    for (Class<?> clazz = object.getClass(); clazz != null; clazz = clazz.getSuperclass()) {",
     r"        try {",
     "            java.lang.reflect.Field field = clazz.getDeclaredField(fieldName);",
     "            field.setAccessible(true);",
     "            field.set(object, fieldValue);",
     "            return;",
     r"        } catch (NoSuchFieldException e) {",
     "            // look in the superclass",
     r"        }",
     r"    }",
     "    throw new NoSuchFieldException(fieldName);",
     r"}"]
  | .getFieldValue =>
    [modifiers ++ r" Object getFieldValue(Object object, String fieldName) throws Exception {",
     r"    for (Class<?> clazz = object.getClass(); clazz != null; clazz = clazz.getSuperclass()) {",
     r"        try {",
     "            java.lang.reflect.Field field = clazz.getDeclaredField(fieldName);",
     "            field.setAccessible(true);",
     "            return field.get(object);",
     r"        } catch (NoSuchFieldException e) {",
     "            // look in the superclass",
     r"        }",
     r"    }",
     "    throw new NoSuchFieldException(fieldName);",
     r"}"]

end TestWriter.Target
