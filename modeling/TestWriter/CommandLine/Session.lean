import TestWriter.CommandLine.Arguments
import TestWriter.CommandLine.Directory
import TestWriter.Config.Encoding
import TestWriter.Evidence.Encoding
import TestWriter.ExportSection
import TestWriter.Generator
import TestWriter.Json.Reader

/-!
# Sessions of the command line

A session runs one command in a directory.  It reads and writes files and prints to two channels;
what was printed and written before a failure stays.
-/

namespace TestWriter.CommandLine

/-- What a session did so far. -/
structure Session where
  directory : Directory
  stdout : String
  stderr : String

/-- A step of a session, which may fail. -/
abbrev Step := ExceptT Error (StateM Session)

namespace Session

/-- Print a line. -/
def print (text : String) : Step Unit :=
  modify fun s => { s with stdout := s.stdout ++ text ++ "\n" }

/-- Print a line to the channel of errors. -/
def printError (text : String) : Step Unit :=
  modify fun s => { s with stderr := s.stderr ++ text ++ "\n" }

/-- Read a file. -/
def read (path : String) : Step String := do
  match (← get).directory.read path with
  | .ok text => return text
  | .error fault => throw (.file fault)

/-- Write a file. -/
def write (path content : String) : Step Unit := do
  match (← get).directory.write path content with
  | .ok d => modify fun s => { s with directory := d }
  | .error fault => throw (.file fault)

/-- Decode a text. -/
def decode {α : Type} (ofJson? : Json → Option α) (text : String) : Step α :=
  match (Json.read? text).bind ofJson? with
  | some a => return a
  | none => throw .malformed

end Session

open Session

/-- Read the class under test with its test sets. -/
def evidence? (j : Json) : Option (ClassName × List TestSet) := do
  let fs ← j.fields?
  if fs.onlyKnown ["class_under_test", "test_sets"] then
    return (← fs.required "class_under_test" ClassName.ofJson?,
      ← fs.withDefault "test_sets" (Json.list? TestSet.ofJson?) [])
  else none

/-- Write the helper class, or tell that there is one. -/
def provideHelperClass (language : Language) (path : Option String) (k : HelperClass) :
    Step Unit := do
  match path with
  | some path => write path (← k.text language)
  | none =>
    printError ("Note: the tests need the " ++ helperClassName.qualifiedName ++
      " helper class; pass --util-class to write it")

/-- Add names to the exports of a module. -/
def exportNames (path : String) (added : List String) : Step Unit := do
  match ExportSection.update? (← read path) added with
  | some updated => write path updated
  | none => pure ()

/-- Print a report. -/
def printReport (r : Report) : Step Unit := do
  printError (r.summary false)
  r.statistics.forM fun line => printError ("  " ++ line)

/-- Run a generation. -/
def runGenerate (o : GenerateOptions) : Step Unit := do
  let (classUnderTest, sets) ← decode evidence? (← read o.evidence)
  let config ←
    match o.config with
    | some path => decode Config.ofJson? (← read path)
    | none => pure {}
  let generator ← Generator.new classUnderTest config
  let result ← generator.generate sets o.className
  print result.code
  match result.helperClass with
  | some k => provideHelperClass config.language o.helperClass k
  | none => pure ()
  match o.exports with
  | some path => exportNames path result.moduleExports
  | none => pure ()
  if o.report then printReport result.report

/-- The name of the program with its version. -/
def version : String := "testsmith 0.1.0"

/-- Run a command. -/
def runCommand : Command → Step Unit
  | .generate o => runGenerate o
  | .helperClass language mocking => do
    let k : HelperClass := if mocking then .withMocks .mockito else .plain
    print (← k.text language)
  | .version => print version

/-- How a session ended. -/
structure Ending where
  exitCode : Nat
  stdout : String
  stderr : String
  directory : Directory

/-- Run a command line in a directory. -/
def run (arguments : List String) (directory : Directory) : Ending :=
  match Command.read? arguments with
  | none => ⟨2, "", "usage", directory⟩
  | some command =>
    match (runCommand command).run ⟨directory, "", ""⟩ with
    | (.ok (), s) => ⟨0, s.stdout, s.stderr, s.directory⟩
    | (.error e, s) => ⟨1, s.stdout, s.stderr ++ "Error: " ++ e.message ++ "\n", s.directory⟩

/-- The paths that a command may read. -/
def Command.inputs : Command → List String
  | .generate o => o.evidence :: (o.config.toList ++ o.exports.toList)
  | .helperClass .. | .version => []

/-- The paths that a command may write. -/
def Command.outputs : Command → List String
  | .generate o => o.helperClass.toList ++ o.exports.toList
  | .helperClass .. | .version => []

end TestWriter.CommandLine
