import AutomatonShell.Path

/-!
# Workspaces: the files a session works on

A workspace holds every file and folder a session can see, together with the place of its working
directory.  Names are looked up from left to right, as an operating system does it: each name but
the last must be a folder that exists, also where a later `..` leaves it again.

* `FileError` — why a file operation was refused, with its wording.
* `Workspace.locate` — the place a path leads to.
* `Workspace.read`, `Workspace.create`, `Workspace.pathExists` — reading a file, creating or
  emptying one, and asking whether a path leads to anything.
* `Workspace.get?` and `Workspace.put` — the contents at a place.
-/

namespace AutomatonShell

/-- Why a file operation was refused. -/
inductive FileError where
  /-- A name on the path does not exist. -/
  | missing
  /-- A name that is used as a folder is a file. -/
  | notFolder
  /-- A folder is used as a file. -/
  | isFolder
  /-- A name, or the path as a whole, is longer than file systems allow. -/
  | nameTooLong
  /-- The path holds a NUL character. -/
  | nulInName
  deriving Repr, DecidableEq

/-- The wording of a refusal. -/
def FileError.message : FileError → String
  | .missing => "No such file or directory"
  | .notFolder => "Not a directory"
  | .isFolder => "Is a directory"
  | .nameTooLong => "File name too long"
  | .nulInName => "embedded null byte"

/-- The files and folders a session can see. -/
structure Workspace where
  /-- The working directory. -/
  home : Location
  /-- Every file with its contents; each place occurs once. -/
  files : List (Location × List UInt8) := []
  /-- The folders besides the working directory and those it lies in. -/
  folders : List Location := []
  deriving Repr, DecidableEq

namespace Workspace

/-- Whether there is a folder at a place. -/
def isFolder (w : Workspace) (place : Location) : Bool :=
  place.isPrefixOf w.home || w.folders.contains place

/-- The contents of the file at a place. -/
def get? (w : Workspace) (place : Location) : Option (List UInt8) := w.files.lookup place

/-- The contents of one place replaced in a list of files, or added behind it. -/
def replaceIn (place : Location) (content : List UInt8) :
    List (Location × List UInt8) → List (Location × List UInt8)
  | [] => [(place, content)]
  | file :: rest =>
    if file.1 = place then (place, content) :: rest else file :: replaceIn place content rest

/-- The workspace in which the file at a place has the given contents. -/
def put (w : Workspace) (place : Location) (content : List UInt8) : Workspace :=
  { w with files := replaceIn place content w.files }

/-! ## Looking names up -/

/-- The longest name, in bytes. -/
def maxNameBytes : Nat := 255

/-- The longest path, in bytes. -/
def maxPathBytes : Nat := 4095

/-- The place that names lead to.  Whatever a name is applied to must be an existing folder; the
last name need not exist. -/
def descend (w : Workspace) (here : Location) : List String → Except FileError Location
  | [] => .ok here
  | name :: rest =>
    if w.isFolder here then
      if name ∉ [".", ".."] ∧ maxNameBytes < name.utf8ByteSize then .error .nameTooLong
      else w.descend (Location.step here name) rest
    else if (w.get? here).isSome then .error .notFolder
    else .error .missing

/-- The place a path leads to. -/
def locate (w : Workspace) (path : String) : Except FileError Location :=
  if path.toList.contains (Char.ofNat 0) then .error .nulInName
  else if path = "" then .error .missing
  else if maxPathBytes < path.utf8ByteSize then .error .nameTooLong
  else w.descend (if path.toList.head? = some '/' then [] else w.home) (Path.namesOf path)

/-- Whether a path ends in a slash and so can only mean a folder. -/
def meansFolder (path : String) : Bool := path.toList.getLast? == some '/'

/-- The contents of the file a path leads to. -/
def read (w : Workspace) (path : String) : Except FileError (List UInt8) := do
  let place ← w.locate path
  if w.isFolder place then .error .isFolder
  else
    match w.get? place with
    | none => .error .missing
    | some content => if meansFolder path then .error .notFolder else .ok content

/-- The place of a new or emptied file, and the workspace that holds it. -/
def create (w : Workspace) (path : String) : Except FileError (Location × Workspace) := do
  let place ← w.locate path
  if w.isFolder place || meansFolder path then .error .isFolder
  else .ok (place, w.put place [])

/-- Whether a path leads to a file or folder.  A path that cannot be looked up leads nowhere, but
one that is too long is refused. -/
def pathExists (w : Workspace) (path : String) : Except FileError Bool :=
  match w.locate path with
  | .error .nameTooLong => .error .nameTooLong
  | .error _ => .ok false
  | .ok place => .ok (w.isFolder place || ((w.get? place).isSome && !meansFolder path))

/-! ## What a place holds after a write -/

theorem lookup_replaceIn (place other : Location) (content : List UInt8)
    (files : List (Location × List UInt8)) :
    (replaceIn place content files).lookup other
      = if other = place then some content else files.lookup other := by
  induction files with
  | nil =>
    by_cases h : other = place
    · simp [replaceIn, h]
    · have hb : (other == place) = false := by simpa using h
      simp [replaceIn, List.lookup_cons, h, hb]
  | cons file rest ih =>
    obtain ⟨spot, old⟩ := file
    by_cases hf : spot = place
    · subst hf
      by_cases h : other = spot
      · simp [replaceIn, h]
      · have hb : (other == spot) = false := by simpa using h
        simp [replaceIn, List.lookup_cons, h, hb]
    · by_cases h : other = spot
      · subst h
        simp [replaceIn, hf]
      · have hb : (other == spot) = false := by simpa using h
        simp [replaceIn, hf, List.lookup_cons, hb, ih]

/-- A write is seen at its place. -/
theorem get?_put_self (w : Workspace) (place : Location) (content : List UInt8) :
    (w.put place content).get? place = some content := by
  simp [put, get?, lookup_replaceIn]

/-- A write is seen nowhere else. -/
theorem get?_put_of_ne (w : Workspace) {place other : Location} (content : List UInt8)
    (h : other ≠ place) : (w.put place content).get? other = w.get? other := by
  simp [put, get?, lookup_replaceIn, h]

end Workspace

end AutomatonShell
