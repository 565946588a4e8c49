import TestWriter.Suite.File

/-!
# Settings of a rendering

What a target needs to know beside the code: the frameworks, and what is in reach of a file by a
short name.
-/

namespace TestWriter.Target

/-- The language and the frameworks of a rendering. -/
structure Settings where
  language : Language
  framework : Framework
  /-- The library of the mock objects, when the tests create any. -/
  mockLibrary : Option MockLibrary
  deriving DecidableEq, Repr

/-- The settings of a language with its default framework. -/
def Settings.forLanguage (l : Language) : Settings := ⟨l, l.defaultFramework, none⟩

/-- What surrounds the code of a file. -/
structure Surroundings where
  settings : Settings
  package : String
  imports : List Import
  classKind : ClassKind

namespace Surroundings

/-- The surroundings of code that stands in no file. -/
def bare (settings : Settings) : Surroundings := ⟨settings, "", [], .test⟩

/-- The surroundings of the code of a file. -/
def ofFile (settings : Settings) (file : SourceFile) : Surroundings :=
  ⟨settings, file.package.getD "", file.imports, file.testClass.kind⟩

/-- Whether there is a regular import of a path. -/
def importsPath (s : Surroundings) (path : String) : Bool :=
  s.imports.any fun i =>
    match i with
    | .regular p _ => p = path
    | .member .. => false

/-- Whether a class of the JVM is written by its short name: it has no package, its package is in
reach everywhere or is that of the file, or it is imported. -/
def isShort (s : Surroundings) (implicitPackage : String) (c : ClassName) : Bool :=
  c.isGlobal || c.package = implicitPackage || c.package = s.package ||
    s.importsPath c.qualifiedName

/-- The name of a class of the JVM. -/
def className (s : Surroundings) (implicitPackage : String) (c : ClassName) : String :=
  if s.isShort implicitPackage c then c.name else c.qualifiedName

/-- The name that a module is bound to by the last regular import of its path. -/
def moduleVariable? (s : Surroundings) (path : String) : Option String :=
  s.imports.foldl
    (fun found i =>
      match i with
      | .regular p binding => if p = path then some (binding.getD p) else found
      | .member .. => found)
    none

end Surroundings

end TestWriter.Target
