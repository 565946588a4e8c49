import TestWriter.Helper

/-!
# Helpers in Kotlin

The source lines of the helpers.  They name every class in full, so a helper never needs an import
in the file that holds it.
-/

namespace TestWriter.Target

/-- The lines of a helper that is declared with the given modifiers.  With `mocks`, deep equality
never holds of a mock object. -/
def kotlinHelper (modifiers : String) (mocks : Bool) : Helper → List String
  | .deepEquals =>
    [modifiers ++ r" deepEquals(o1: Any?, o2: Any?): Boolean {",
     "    if (o1 === o2) return true",
     "    if (o1 == null || o2 == null) return false"] ++
    (if mocks then
        ["    if (org.mockito.Mockito.mockingDetails(o1).isMock || org.mockito.Mockito.mockingDetails(o2).isMock) return false"]
      else []) ++
    ["    if (o1 is Iterable<*>) return o2 is Iterable<*> && iterablesDeepEquals(o1, o2)",
     "    if (o2 is Iterable<*>) return false",
     r"    if (o1 is java.util.stream.BaseStream<*, *>) {",
     "        return o2 is java.util.stream.BaseStream<*, *> && streamsDeepEquals(o1, o2)",
     r"    }",
     "    if (o2 is java.util.stream.BaseStream<*, *>) return false",
     "    if (o1 is Map<*, *>) return o2 is Map<*, *> && mapsDeepEquals(o1, o2)",
     "    if (o2 is Map<*, *>) return false",
     "    val firstClass = o1.javaClass",
     "    if (firstClass.isArray) return o2.javaClass.isArray && arraysDeepEquals(o1, o2)",
     "    if (hasCustomEquals(firstClass)) return o1 == o2",
     "    if (firstClass != o2.javaClass) return false",
     "    var clazz: Class<*>? = firstClass",
     r"    while (clazz != null) {",
     r"        for (field in clazz.declaredFields) {",
     "            if (java.lang.reflect.Modifier.isStatic(field.modifiers)) continue",
     "            field.isAccessible = true",
     "            if (!deepEquals(field.get(o1), field.get(o2))) return false",
     r"        }",
     "        clazz = clazz.superclass",
     r"    }",
     "    return true",
     r"}"]
  | .arraysDeepEquals =>
    [modifiers ++ r" arraysDeepEquals(arr1: Any, arr2: Any): Boolean {",
     "    val length = java.lang.reflect.Array.getLength(arr1)",
     "    if (length != java.lang.reflect.Array.getLength(arr2)) return false",
     r"    for (i in 0 until length) {",
     "        if (!deepEquals(java.lang.reflect.Array.get(arr1, i), java.lang.reflect.Array.get(arr2, i))) return false",
     r"    }",
     "    return true",
     r"}"]
  | .iterablesDeepEquals =>
    [modifiers ++ r" iterablesDeepEquals(i1: Iterable<*>, i2: Iterable<*>): Boolean {",
     "    val firstIterator = i1.iterator()",
     "    val secondIterator = i2.iterator()",
     r"    while (firstIterator.hasNext() && secondIterator.hasNext()) {",
     "        if (!deepEquals(firstIterator.next(), secondIterator.next())) return false",
     r"    }",
     "    return !firstIterator.hasNext() && !secondIterator.hasNext()",
     r"}"]
  | .streamsDeepEquals =>
    [modifiers ++ r" streamsDeepEquals(s1: java.util.stream.BaseStream<*, *>, s2: java.util.stream.BaseStream<*, *>): Boolean {",
     "    val firstIterator = s1.iterator()",
     "    val secondIterator = s2.iterator()",
     r"    while (firstIterator.hasNext() && secondIterator.hasNext()) {",
     "        if (!deepEquals(firstIterator.next(), secondIterator.next())) return false",
     r"    }",
     "    return !firstIterator.hasNext() && !secondIterator.hasNext()",
     r"}"]
  | .mapsDeepEquals =>
    [modifiers ++ r" mapsDeepEquals(m1: Map<*, *>, m2: Map<*, *>): Boolean {",
     "    if (m1.size != m2.size) return false",
     "    val other = HashMap<Any?, Any?>(m2)",
     r"    for ((key, value) in m1) {",
     "        if (!other.containsKey(key)) return false",
     "        if (!deepEquals(value, other[key])) return false",
     r"    }",
     "    return true",
     r"}"]
  | .hasCustomEquals =>
    [modifiers ++ r" hasCustomEquals(clazz: Class<*>): Boolean {",
     "    var current: Class<*> = clazz",
     r"    while (current != Any::class.java) {",
     r"        try {",
     "            current.getDeclaredMethod(\"equals\", Any::class.java)",
     "            return true",
     r"        } catch (e: NoSuchMethodException) {",
     "            current = current.superclass ?: return false",
     r"        }",
     r"    }",
     "    return false",
     r"}"]
  | .createInstance =>
    [modifiers ++ r" createInstance(className: String): Any {",
     "    val clazz = Class.forName(className)",
     "    return Class.forName(\"sun.misc.Unsafe\")",
     "        .getDeclaredMethod(\"allocateInstance\", Class::class.java)",
     "        .invoke(getUnsafeInstance(), clazz)",
     r"}"]
  | .getUnsafeInstance =>
    [modifiers ++ r" getUnsafeInstance(): Any? {",
     "    val f = Class.forName(\"sun.misc.Unsafe\").getDeclaredField(\"theUnsafe\")",
     "    f.isAccessible = true",
     "    return f.get(null)",
     r"}"]
  | .setField =>
    [modifiers ++ r" setField(obj: Any, fieldName: String, fieldValue: Any?) {",
     "    var clazz: Class<*>? = obj.javaClass",
     r"    while (clazz != null) {",
     r"        try {",
     "            val field = clazz.getDeclaredField(fieldName)",
     "            field.isAccessible = true",
     "            field.set(obj, fieldValue)",
     "            return",
     r"        } catch (e: NoSuchFieldException) {",
     "            clazz = clazz.superclass",
     r"        }",
     r"    }",
     "    throw NoSuchFieldException(fieldName)",
     r"}"]
  | .getFieldValue =>
    [modifiers ++ r" getFieldValue(obj: Any, fieldName: String): Any? {",
     "    var clazz: Class<*>? = obj.javaClass",
     r"    while (clazz != null) {",
     r"        try {",
     "            val field = clazz.getDeclaredField(fieldName)",
     "            field.isAccessible = true",
     "            return field.get(obj)",
     r"        } catch (e: NoSuchFieldException) {",
     "            clazz = clazz.superclass",
     r"        }",
     r"    }",
     "    throw NoSuchFieldException(fieldName)",
     r"}"]

end TestWriter.Target
