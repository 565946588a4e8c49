import TestWriter.Evidence.Encoding
import TestWriter.Report

/-!
# Reports as JSON

The executables of a report are a list of pairs, since their keys are no texts.  No member has a
default, except that the class under test may be absent.
-/

namespace TestWriter

namespace ReportEntry

/-- The JSON form of the report of an executable. -/
def toJson (r : ReportEntry) : Json :=
  .object
    [("successful", Json.list Json.string r.successful),
     ("failing", Json.list Json.string r.failing),
     ("timeout", Json.list Json.string r.timeout),
     ("crash", Json.list Json.string r.crash),
     ("errors", r.errors.toJson)]

/-- Read the report of an executable. -/
def ofJson? (j : Json) : Option ReportEntry := do
  let fs ← j.fields?
  return { successful := ← fs.required "successful" (Json.list? Json.string?)
           failing := ← fs.required "failing" (Json.list? Json.string?)
           timeout := ← fs.required "timeout" (Json.list? Json.string?)
           crash := ← fs.required "crash" (Json.list? Json.string?)
           errors := ← fs.required "errors" ErrorCounts.ofJson? }

end ReportEntry

namespace Report

/-- Read an executable with its report. -/
def entry? : Json → Option (Executable × ReportEntry)
  | .array [e, r] => do return (← Executable.ofJson? e, ← ReportEntry.ofJson? r)
  | _ => none

/-- The JSON form of a report. -/
def toJson (r : Report) : Json :=
  .object
    [("class_under_test", Json.option ClassName.toJson r.classUnderTest),
     ("executables",
      Json.list (fun entry => .array [entry.1.toJson, entry.2.toJson]) r.executables.entries),
     ("warnings", Json.list Json.string r.warnings)]

/-- Read a report. -/
def ofJson? (j : Json) : Option Report := do
  let fs ← j.fields?
  return { classUnderTest := ← fs.optional "class_under_test" ClassName.ofJson?
           executables := .ofList (← fs.required "executables" (Json.list? entry?))
           warnings := ← fs.required "warnings" (Json.list? Json.string?) }

end Report

end TestWriter
