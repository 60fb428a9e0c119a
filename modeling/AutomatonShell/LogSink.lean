import AutomatonShell.TextFile

/-!
# Session logs

A session can be recorded in a log file.  At most one log is open at a time; opening one closes the
other first, also when the new one cannot be opened.  The log keeps its own place in the file: a
line goes behind the lines written before it, whatever else happened to the file in between.

* `LogSink` — the encoding of logs, and the open log if there is one.
* `LogSink.openAt`, `LogSink.close`, `LogSink.write` — the three operations.
* `LogSink.openAs` — the first of them, for any outcome of creating the file.
-/

namespace AutomatonShell

open Text (Codec)

/-- A log that is being written. -/
structure OpenLog where
  /-- The path it was opened by. -/
  path : Path
  /-- The place of its file. -/
  place : Location
  /-- The codec it is written in. -/
  codec : Codec
  /-- The lines that were handed to the codec, with their newlines. -/
  given : List (List Char) := []
  /-- Where in the file the next line goes. -/
  position : Nat := 0

/-- The encoding of logs, and the open log if there is one. -/
structure LogSink where
  /-- The name of the encoding. -/
  encoding : String := "utf-8"
  /-- What the platform makes of the name. -/
  codec? : Option Codec := Codec.ofName? encoding
  /-- The log that is being written. -/
  current : Option OpenLog := none

namespace LogSink

/-- Bytes written over a content from a position on.  A position behind the end is reached by
zeros. -/
def overwrite (content : List UInt8) (position : Nat) (bytes : List UInt8) : List UInt8 :=
  content.take position ++ List.replicate (position - content.length) 0 ++ bytes
    ++ content.drop (position + bytes.length)

/-- Whether a log is open. -/
def active (sink : LogSink) : Bool := sink.current.isSome

/-- The path of the open log. -/
def path? (sink : LogSink) : Option Path := sink.current.map (·.path)

/-- The sink with no log open. -/
def close (sink : LogSink) : LogSink := { sink with current := none }

/-- **A log opened and emptied**, if its file was created.  Returns the workspace and the sink as
they are left, and why no log is open if none is. -/
def openAs (sink : LogSink) (w : Workspace) (path : String) (created : Except FileError Location) :
    Workspace × LogSink × Option TextFileError :=
  match created with
  | .error e => (w, sink.close, some (.file e))
  | .ok place =>
    let w := w.put place []
    match sink.codec? with
    | none => (w, sink.close, some (.unknownEncoding sink.encoding))
    | some codec =>
      (w, { sink with current := some { path := Path.ofString path, place, codec } }, none)

/-- **A log opened in a workspace.**  The path is taken without looking at the folders that `..`
leaves again. -/
def openAt (sink : LogSink) (w : Workspace) (path : String) :
    Workspace × LogSink × Option TextFileError :=
  let target := "/" ++ String.intercalate "/" (Location.ofText w.home path)
  sink.openAs w path ((w.create target).map (·.1))

/-- What a line hands to the codec: its characters and a newline. -/
def pieceOf (line : String) : List Char := line.toList ++ ['\n']

/-- **A line written to the open log**, with a newline behind it.  Nothing is written when no log is
open or when the encoding cannot express the line. -/
def write (sink : LogSink) (w : Workspace) (line : String) : Workspace × LogSink :=
  match sink.current with
  | none => (w, sink)
  | some log =>
    let bytes := (log.codec.encodeAfter log.given (pieceOf line)).getD []
    let current := { log with
      given := log.given ++ [pieceOf line]
      position := log.position + bytes.length }
    let content := (w.get? log.place).getD []
    (if bytes.isEmpty then w else w.put log.place (overwrite content log.position bytes),
      { sink with current := some current })

/-- Writing at the end of a content appends to it. -/
theorem overwrite_length (content bytes : List UInt8) :
    overwrite content content.length bytes = content ++ bytes := by
  simp [overwrite]

end LogSink

end AutomatonShell
