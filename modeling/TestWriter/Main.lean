import TestWriter.CommandLine.Session

/-!
# The program

Looks at the files that a command line names, runs it, and carries out what it asks for.
-/

open TestWriter TestWriter.CommandLine

/-- The part of a directory that some places show. -/
def loadPlaces (places : List Place) : IO Directory := do
  let mut files := []
  let mut folders := []
  for place in places do
    match ← (IO.FS.readFile place.path).toBaseIO with
    | .ok content => files := files ++ [(place, content)]
    | .error (.inappropriateType _ code _) =>
      if code.toNat = FileFault.isDirectory.code then folders := folders ++ [place]
    | .error _ => pure ()
  return .ofPlaces files folders

/-- The places that a path names on its way, without a look at the folders. -/
def placesOf (text : String) : List Place :=
  let path := Path.ofText text
  (List.range path.names.length).map fun n =>
    (path.names.take (n + 1)).foldl
      (fun p name => if name = "." then p else if name = ".." then p.up else p ++ [name])
      path.start

/-- The part of the directory that a command line deals with. -/
def loadDirectory (arguments : List String) : IO Directory :=
  match Command.read? arguments with
  | none => return .ofPlaces [] []
  | some command => loadPlaces ((command.inputs ++ command.outputs).flatMap placesOf)

/-- Run a command line. -/
def main (arguments : List String) : IO UInt32 := do
  let directory ← loadDirectory arguments
  let ending := run arguments directory
  (← IO.getStdout).putStr ending.stdout
  for (place, content) in ending.directory.changedSince directory do
    IO.FS.writeFile place.path content
  (← IO.getStderr).putStr ending.stderr
  return UInt32.ofNat ending.exitCode
