import AutomatonShell.Text.Codec
import AutomatonShell.Workspace

/-!
# Text files

Text files are opened with the name of an encoding.  The file is opened first and the name looked up
second, so writing with an unknown encoding leaves an empty file behind.  A text is written line by
line; a line that the encoding cannot express ends the writing, and the lines before it are kept.

* `TextFileError` — why a text file could not be read or written, with its wording.
* `Workspace.readText`, `Workspace.writeText` — a whole text read or written.
* `Workspace.createText` — an empty text file, ready for writing.

What a name stands for is the platform's business: `codec?` is what it makes of the name, and what
is built in if nothing is said.
-/

namespace AutomatonShell

open Text (Codec DecodingFailure)

/-- Why a text file could not be read or written. -/
inductive TextFileError where
  /-- The file could not be opened. -/
  | file (error : FileError)
  /-- There is no encoding of that name. -/
  | unknownEncoding (name : String)
  /-- The encoding cannot express the text. -/
  | unencodable
  /-- The bytes are no text in the encoding. -/
  | undecodable {failure : DecodingFailure}
  deriving Repr, DecidableEq

/-- The wording of a failure. -/
def TextFileError.message : TextFileError → String
  | .file e => e.message
  | .unknownEncoding name => "unknown encoding: " ++ name
  | .unencodable => "the encoding cannot express the text"
  | .undecodable => "the bytes are no text in the encoding"

namespace Workspace

/-- The text of the file a path leads to. -/
def readText (w : Workspace) (encoding path : String)
    (codec? : Option Codec := Codec.ofName? encoding) : Except TextFileError (List Char) :=
  match w.read path with
  | .error e => .error (.file e)
  | .ok bytes =>
    match codec? with
    | none => .error (.unknownEncoding encoding)
    | some codec =>
      match codec.decode bytes with
      | .error failure => .error (@TextFileError.undecodable failure)
      | .ok text => .ok text

/-- An empty text file at the place a path leads to.  Returns the workspace as it is left, and the
place with the codec to write in. -/
def createText (w : Workspace) (encoding path : String)
    (codec? : Option Codec := Codec.ofName? encoding) :
    Workspace × Except TextFileError (Location × Codec) :=
  match w.create path with
  | .error e => (w, .error (.file e))
  | .ok (place, w) =>
    match codec? with
    | none => (w, .error (.unknownEncoding encoding))
    | some codec => (w, .ok (place, codec))

/-- Lines written to the file a path leads to, one after the other, in place of what the file
held. -/
def writeText (w : Workspace) (encoding path : String) (lines : List String)
    (codec? : Option Codec := Codec.ofName? encoding) : Workspace × Option TextFileError :=
  match w.createText encoding path codec? with
  | (w, .error e) => (w, some e)
  | (w, .ok (place, codec)) =>
    let (bytes, refused) := codec.emit (lines.map String.toList)
    (w.put place bytes, if refused then some .unencodable else none)

end Workspace

end AutomatonShell
