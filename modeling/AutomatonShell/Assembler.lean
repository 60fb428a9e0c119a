import AutomatonShell.Text.Blank
import AutomatonShell.Text.Marker

/-!
# From lines to commands

A command ends at a semicolon and may span several lines; one line may hold several commands.  What
follows the comment marker on a line is ignored, and so are commands with nothing in them.

* `Assembler` — the pieces of the command that is not finished yet.
* `Assembler.feed` — a line read: the commands it finishes, each with the number of this line.
* `assemble` — the commands of many lines.
-/

namespace AutomatonShell

/-- What ends a command. -/
def separator : Char := ';'

/-- Why lines cannot be cut into commands: the comment marker is empty. -/
inductive AssemblerError where
  | emptyMarker
  deriving Repr, DecidableEq

/-- The wording of a refusal to cut lines into commands. -/
def AssemblerError.message : AssemblerError → String
  | .emptyMarker => "empty separator"

/-- A command with the number of the line that finishes it. -/
abbrev NumberedCommand := Int × String

/-- The comment marker, and the pieces of the command that is not finished yet. -/
structure Assembler where
  /-- What begins a comment. -/
  commentPrefix : String := "#"
  /-- The pieces read so far, none of them blank. -/
  pieces : List (List Char) := []
  deriving Repr, DecidableEq

namespace Assembler

/-- Pieces on one line, with a space between them. -/
def joinPieces (pieces : List (List Char)) : List Char := [' '].intercalate pieces

/-- The unfinished command. -/
def pending (a : Assembler) : String := String.ofList (joinPieces a.pieces)

/-- A piece without the blanks around it put behind the others, unless nothing of it is left. -/
def push (pieces : List (List Char)) (piece : List Char) : List (List Char) :=
  let piece := Text.strip piece
  if piece.isEmpty then pieces else pieces ++ [piece]

/-- The parts of a line, cut at semicolons, taken in one after the other.  All parts but the last
finish a command.  Returns the finished commands and the pieces of the unfinished one. -/
def absorb (pieces : List (List Char)) : List (List Char) → List (List Char) × List (List Char)
  | [] => ([], pieces)
  | [last] => ([], push pieces last)
  | part :: rest =>
    let command := push pieces part
    let (finished, unfinished) := absorb [] rest
    (if command.isEmpty then finished else joinPieces command :: finished, unfinished)

/-- The parts of a line: what stands before the comment, cut at semicolons. -/
def parts (commentPrefix line : String) : List (List Char) :=
  (Text.beforeMarker commentPrefix.toList line.toList).splitOn separator

/-- **A line read**: the commands that it finishes, and what is left unfinished. -/
def feed (a : Assembler) (line : String) (number : Int) :
    Except AssemblerError (List NumberedCommand × Assembler) :=
  if a.commentPrefix = "" then .error .emptyMarker
  else
    let (finished, pieces) := absorb a.pieces (parts a.commentPrefix line)
    .ok (finished.map fun command => (number, String.ofList command), { a with pieces })

/-- The unfinished command dropped. -/
def reset (a : Assembler) : Assembler := { a with pieces := [] }

/-- Lines read one after the other, numbered upwards from the first. -/
def feedAll (a : Assembler) (start : Int) :
    List String → Except AssemblerError (List NumberedCommand × Assembler)
  | [] => .ok ([], a)
  | line :: rest => do
    let (commands, a) ← a.feed line start
    let (more, a) ← a.feedAll (start + 1) rest
    return (commands ++ more, a)

end Assembler

/-- The commands of many lines, numbered upwards from the first line. -/
def assemble (commentPrefix : String) (start : Int) (lines : List String) :
    Except AssemblerError (List NumberedCommand) :=
  (({ commentPrefix } : Assembler).feedAll start lines).map (·.1)

end AutomatonShell
