/-!
# Paths

A path is a root and the names on the way down from it.  Reading a path drops empty names and the
name `.`, so `a//b/./c/` is the path `a/b/c`; the name `..` is kept, because what it leads to
depends on the files that exist.  Exactly two slashes in front are a root of their own; any other
number is the root `/`.

* `Path` — the parsed form; `Path.ofString` and `Path.toString` read and write it.
* `Path.join` — a path taken relative to another one.
* `Location` — an absolute place, without `.` and `..`; `Location.follow` applies names to it
  without looking at any file.
-/

namespace AutomatonShell

/-- Where a path starts. -/
inductive PathRoot where
  /-- At the place the path is taken relative to. -/
  | relative
  /-- At the root, written as one slash. -/
  | single
  /-- At the root, written as two slashes. -/
  | double
  deriving Repr, DecidableEq

/-- A root and the names on the way down from it. -/
structure Path where
  /-- Where the path starts. -/
  root : PathRoot
  /-- The names, none of them empty or `.`. -/
  names : List String
  deriving Repr, DecidableEq

namespace Path

/-- The names between the slashes of a text, without empty ones. -/
def namesOf (text : String) : List String :=
  ((text.toList.splitOn '/').filter fun name => !name.isEmpty).map String.ofList

/-- The root that a text starts with. -/
def rootOf (text : String) : PathRoot :=
  match (text.toList.takeWhile (· == '/')).length with
  | 0 => .relative
  | 2 => .double
  | _ => .single

/-- The path a text spells. -/
def ofString (text : String) : Path :=
  ⟨rootOf text, (namesOf text).filter (· != ".")⟩

/-- Whether the path does not depend on the place it is taken relative to. -/
def isAbsolute (path : Path) : Bool := path.root != .relative

/-- The plain spelling of a path; the empty relative path is spelled `.`. -/
def toString (path : Path) : String :=
  let body := String.intercalate "/" path.names
  match path.root with
  | .relative => if path.names.isEmpty then "." else body
  | .single => "/" ++ body
  | .double => "//" ++ body

/-- A path taken relative to a base; an absolute path stays itself. -/
def join (base path : Path) : Path :=
  if path.isAbsolute then path else ⟨base.root, base.names ++ path.names⟩

end Path

/-- An absolute place: the names on the way down from the root. -/
abbrev Location := List String

namespace Location

/-- One name applied to a place: `.` stays, `..` goes up (and stays at the root), any other name
goes down. -/
def step (here : Location) (name : String) : Location :=
  if name = "." then here else if name = ".." then here.dropLast else here ++ [name]

/-- **Names applied one after the other, without looking at any file.**  So `d/../f` leads to `f`
even where there is no `d`. -/
def follow (here : Location) (names : List String) : Location := names.foldl step here

end Location

/-- The place a text leads to from a working directory, without looking at any file. -/
def Location.ofText (home : Location) (text : String) : Location :=
  Location.follow (if Path.rootOf text = .relative then home else []) (Path.namesOf text)

end AutomatonShell
