import TestWriter.Language
import TestWriter.Text.Lines

/-!
# Arguments of the command line

A command with its options.  An option with a value takes it from the same argument or from the
next one; no option is given twice, and there are no other arguments.
-/

namespace TestWriter.CommandLine

/-- The options of a generation. -/
structure GenerateOptions where
  evidence : String
  config : Option String
  className : Option String
  helperClass : Option String
  exports : Option String
  report : Bool
  deriving DecidableEq, Repr

/-- What the command line asks for. -/
inductive Command
  | generate (options : GenerateOptions)
  | helperClass (language : Language) (mocking : Bool)
  | version
  deriving DecidableEq, Repr

/-- An option as it is written. -/
structure OptionForm where
  long : String
  short : Option Char
  takesValue : Bool

/-- An option without a short form and without a value. -/
def OptionForm.flag (long : String) : OptionForm := ⟨long, none, false⟩

/-- An option that takes a value. -/
def OptionForm.valued (long : String) (short : Option Char) : OptionForm := ⟨long, short, true⟩

/-- An option that was given: its long name, and its value, empty without one. -/
abbrev Given := String × String

/-- How one argument is read. -/
inductive Reading
  /-- As a whole option. -/
  | complete (option : Given)
  /-- As an option whose value is the next argument. -/
  | open (long : String)
  /-- As the mark after which no options follow. -/
  | endOfOptions
  | refused

/-- Whether an argument stands where a value is expected, but is an option. -/
def looksLikeOption (argument : String) : Bool :=
  match argument.toList with
  | '-' :: _ :: _ => true
  | _ => false

/-- Read an option with the text that follows its name in the same argument. -/
def readOption (form : Option OptionForm) (attached : Option (List Char)) : Reading :=
  match form, attached with
  | none, _ => .refused
  | some f, some value =>
    if f.takesValue then .complete (f.long, String.ofList value) else .refused
  | some f, none => if f.takesValue then .open f.long else .complete (f.long, "")

/-- The value in the argument of a short option. -/
def attachedToShort : List Char → Option (List Char)
  | [] => none
  | '=' :: value => some value
  | value => some value

/-- Read one argument. -/
def readArgument (forms : List OptionForm) (argument : String) : Reading :=
  match argument.toList with
  | ['-', '-'] => .endOfOptions
  | '-' :: '-' :: text =>
    match Text.cut? ['='] text with
    | some (name, value) =>
      readOption (forms.find? fun f => f.long.toList = name) (some value)
    | none => readOption (forms.find? fun f => f.long.toList = text) none
  | '-' :: c :: text => readOption (forms.find? fun f => f.short = some c) (attachedToShort text)
  | _ => .refused

/-- Read all arguments. -/
def readArguments (forms : List OptionForm) : List String → Option (List Given)
  | [] => some []
  | argument :: rest =>
    match readArgument forms argument with
    | .complete option => (readArguments forms rest).map (option :: ·)
    | .open long =>
      match rest with
      | [] => none
      | value :: more =>
        if looksLikeOption value then none
        else (readArguments forms more).map ((long, value) :: ·)
    | .endOfOptions => if rest.isEmpty then some [] else none
    | .refused => none

/-- The options that were given, if none was given twice. -/
def readOptions (forms : List OptionForm) (arguments : List String) : Option (List Given) := do
  let given ← readArguments forms arguments
  if (given.map Prod.fst).Nodup then some given else none

/-- The value of an option that names a file; it is not empty. -/
def path? (given : List Given) (long : String) : Option (Option String) :=
  match given.lookup long with
  | none => some none
  | some "" => none
  | some path => some (some path)

/-- The options of a generation. -/
def generateForms : List OptionForm :=
  [.valued "evidence" (some 'e'), .valued "config" (some 'c'), .valued "class-name" none,
   .valued "util-class" none, .valued "exports" none, .flag "report"]

/-- Read the options of a generation. -/
def readGenerate (arguments : List String) : Option Command := do
  let given ← readOptions generateForms arguments
  return .generate
    { evidence := ← (← path? given "evidence")
      config := ← path? given "config"
      className := given.lookup "class-name"
      helperClass := ← path? given "util-class"
      exports := ← path? given "exports"
      report := (given.lookup "report").isSome }

/-- The names of the languages, short ones included. -/
def languageNames : List (String × Language) :=
  Language.names ++ [("js", .javascript), ("py", .python)]

/-- The options of a helper class. -/
def helperClassForms : List OptionForm :=
  [.valued "language" (some 'l'), .flag "mocking"]

/-- Read the options of a helper class. -/
def readHelperClass (arguments : List String) : Option Command := do
  let given ← readOptions helperClassForms arguments
  let language ← languageNames.lookup ((given.lookup "language").getD "java")
  return .helperClass language (given.lookup "mocking").isSome

/-- Whether an argument asks for the version, whatever follows it. -/
def asksVersion (argument : String) : Bool :=
  argument = "--version" || ['-', 'V'].isPrefixOf argument.toList

/-- Read a command line, the name of the program apart. -/
def Command.read? : List String → Option Command
  | "generate" :: arguments => readGenerate arguments
  | "util-class" :: arguments => readHelperClass arguments
  | argument :: _ => if asksVersion argument then some .version else none
  | [] => none

end TestWriter.CommandLine
