import TestWriter.Error
import TestWriter.OrderedMap
import TestWriter.Text.Lines

/-!
# Directories

The files that a session can reach, as seen from the directory in which it runs.  A path is walked
step by step: every step but the last one has to lead to a folder.  Main statement: what was
written to a path is read from it.
-/

namespace TestWriter.CommandLine

/-- A place by the names that lead to it from the directory.  Names `..` in front lead out of the
directory, and a first name `/` stands for the root of all files. -/
abbrev Place := List String

namespace Place

/-- Whether a place is the directory or lies above it. -/
def isAbove (p : Place) : Bool := p.all (· == "..") || p == ["/"]

/-- Whether a place lies in the directory. -/
def isInside (p : Place) : Bool := p.head? != some ".." && p.head? != some "/"

/-- The folder of a place. -/
def up (p : Place) : Place :=
  if p == ["/"] then p else if p.all (· == "..") then p ++ [".."] else p.dropLast

/-- The folders between the directory and a place. -/
def folders : Place → List Place
  | [] => []
  | [_] => []
  | name :: rest => [name] :: (folders rest).map (name :: ·)

/-- The path of a place. -/
def path : Place → String
  | "/" :: names => "/" ++ "/".intercalate names
  | names => "/".intercalate names

end Place

/-- A path, taken apart. -/
structure Path where
  start : Place
  names : List String
  /-- Whether the path ends in a separator, as paths of folders do. -/
  ofFolder : Bool
  deriving DecidableEq, Repr

/-- Take a path apart. -/
def Path.ofText (text : String) : Path :=
  let cs := text.toList
  { start := if cs.head? = some '/' then ["/"] else []
    names := ((Text.parts '/' cs).map String.ofList).filter (· ≠ "")
    ofFolder := cs.getLast? = some '/' }

/-- The bytes that the name of a file may have. -/
def nameLimit : Nat := 255

/-- The bytes that a path may have. -/
def pathLimit : Nat := 4095

/-- Files by their places, and the folders besides those above. -/
structure Directory where
  files : OrderedMap Place String
  folders : List Place
  deriving DecidableEq

namespace Directory

/-- A directory with the files and folders at some places; it has the folders that hold them. -/
def ofPlaces (files : List (Place × String)) (folders : List Place) : Directory :=
  { files := .ofList files
    folders := folders ++ (files.map Prod.fst ++ folders).flatMap Place.folders }

/-- Whether a place is a folder. -/
def isFolder (d : Directory) (p : Place) : Bool := p.isAbove || d.folders.contains p

/-- Go from a folder to another one. -/
def walk (d : Directory) : Place → List String → Except FileFault Place
  | p, [] => .ok p
  | p, name :: rest =>
    if nameLimit < name.utf8ByteSize then .error .nameTooLong
    else if name = "." then d.walk p rest
    else if name = ".." then d.walk p.up rest
    else if d.isFolder (p ++ [name]) then d.walk (p ++ [name]) rest
    else if (d.files.get? (p ++ [name])).isSome then .error .notDirectory
    else .error .missing

/-- The place of a file that a path names, whether or not there is one. -/
def locate (d : Directory) (path : Path) : Except FileFault Place :=
  match path.names.getLast? with
  | none => .error .isDirectory
  | some name =>
    match d.walk path.start path.names.dropLast with
    | .error fault => .error fault
    | .ok folder =>
      if nameLimit < name.utf8ByteSize then .error .nameTooLong
      else if name = "." ∨ name = ".." ∨ d.isFolder (folder ++ [name]) then .error .isDirectory
      else .ok (folder ++ [name])

/-- The place of the file at a path given as a text. -/
def placeOf (d : Directory) (text : String) : Except FileFault Place :=
  if text = "" then .error .missing
  else if pathLimit < text.utf8ByteSize then .error .nameTooLong
  else d.locate (.ofText text)

/-- The content of the file at a path. -/
def read (d : Directory) (text : String) : Except FileFault String :=
  match d.placeOf text with
  | .error fault => .error fault
  | .ok place =>
    match d.files.get? place with
    | none => .error .missing
    | some content =>
      if (Path.ofText text).ofFolder then .error .notDirectory else .ok content

/-- Write the file at a path. -/
def write (d : Directory) (text content : String) : Except FileFault Directory :=
  match d.placeOf text with
  | .error fault => .error fault
  | .ok place =>
    if (Path.ofText text).ofFolder then .error .isDirectory
    else .ok { d with files := d.files.set place content }

/-- The files that another directory has not, or has with other contents. -/
def changedSince (d before : Directory) : List (Place × String) :=
  d.files.entries.filter fun (place, content) => before.files.get? place ≠ some content

/-- A directory with files at the given paths. -/
def ofFiles (files : List (String × String)) : Directory :=
  .ofPlaces
    (files.map fun (text, content) => ((Path.ofText text).names.filter (· ≠ "."), content)) []

theorem isFolder_eq_of_folders {d e : Directory} (h : e.folders = d.folders) :
    e.isFolder = d.isFolder := by
  funext p
  simp [isFolder, h]

/-- Files have no part in a walk that succeeds. -/
theorem walk_eq_ok_of_folders {d e : Directory} (h : e.folders = d.folders) {p q : Place}
    {names : List String} (hw : d.walk p names = .ok q) : e.walk p names = .ok q := by
  induction names generalizing p with
  | nil => exact hw
  | cons name rest ih =>
    unfold walk at hw ⊢
    rw [isFolder_eq_of_folders h]
    by_cases hl : nameLimit < name.utf8ByteSize
    · simp [hl] at hw
    rw [if_neg hl] at hw ⊢
    by_cases hdot : name = "."
    · rw [if_pos hdot] at hw ⊢
      exact ih hw
    rw [if_neg hdot] at hw ⊢
    by_cases hup : name = ".."
    · rw [if_pos hup] at hw ⊢
      exact ih hw
    rw [if_neg hup] at hw ⊢
    by_cases hd : d.isFolder (p ++ [name]) = true
    · rw [if_pos hd] at hw ⊢
      exact ih hw
    · rw [if_neg hd] at hw
      split at hw <;> simp at hw

theorem locate_eq_ok_of_folders {d e : Directory} (h : e.folders = d.folders) {path : Path}
    {place : Place} (hp : d.locate path = .ok place) : e.locate path = .ok place := by
  unfold locate at hp ⊢
  rw [isFolder_eq_of_folders h]
  split at hp
  · simp at hp
  · split at hp
    · simp at hp
    · rename_i hw
      rw [walk_eq_ok_of_folders h hw]
      exact hp

theorem placeOf_eq_ok_of_folders {d e : Directory} (h : e.folders = d.folders) {text : String}
    {place : Place} (hp : d.placeOf text = .ok place) : e.placeOf text = .ok place := by
  unfold placeOf at hp ⊢
  split at hp
  · simp at hp
  · split at hp
    · simp at hp
    · next ht hl =>
      rw [if_neg ht, if_neg hl]
      exact locate_eq_ok_of_folders h hp

theorem read_of_write {d e : Directory} {text content : String}
    (h : d.write text content = .ok e) : e.read text = .ok content := by
  unfold write at h
  split at h
  · simp at h
  · rename_i place hp
    split at h
    · simp at h
    · rename_i hf
      obtain rfl := Except.ok.inj h
      have he := placeOf_eq_ok_of_folders (d := d)
        (e := { d with files := d.files.set place content }) rfl hp
      simp [read, he, OrderedMap.get?_set, hf]

end Directory

end TestWriter.CommandLine
