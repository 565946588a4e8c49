import TestWriter.Target.Go
import TestWriter.Target.JavaScript
import TestWriter.Target.Kotlin
import TestWriter.Target.Python

/-!
# Rendering

The target of each language, and the text of a file in it.
-/

namespace TestWriter.Target

/-- How a language writes files. -/
def formsOf : Language → FileForms
  | .java => Java.forms
  | .kotlin => Kotlin.forms
  | .javascript => JavaScript.forms
  | .python => Python.forms
  | .go => Go.forms

/-- How the language of some surroundings writes methods. -/
def Surroundings.methodForms (s : Surroundings) : MethodForms :=
  (formsOf s.settings.language).methods s

/-- A file as a document. -/
def fileDoc (settings : Settings) (f : SourceFile) : Layout.Rendering :=
  (formsOf settings.language).file (.ofFile settings f) f

/-- The text of a rendering. -/
def textOf (tab : String) (r : Layout.Rendering) : Except Error String :=
  match r with
  | .ok d => .ok (d.toText tab)
  | .error cause => .error (.unsupported cause)

/-- The text of a file. -/
def renderFile (settings : Settings) (f : SourceFile) : Except Error String :=
  textOf (Surroundings.ofFile settings f).methodForms.dialect.tab (fileDoc settings f)

end TestWriter.Target
