import AutomatonShell.Assembler
import AutomatonShell.Automaton.Matrix
import AutomatonShell.Config
import AutomatonShell.LogSink
import AutomatonShell.Outcome
import AutomatonShell.Session.Declare

/-!
# Sessions

A session is one automaton being built up and used, together with the files it works on.

* `Session` — the automaton, the configuration, the workspace, the log, the scripts being replayed,
  and whether the session has ended.
* `Reply` — what a command leaves and says, and the fault that ended it early, if one did.
* `Fault` — what can end a command early, with its wording.  Mistakes in commands are no faults;
  they become messages.
* `Session.emit` — **the only way to speak**: a message goes into the reply and into the log.
-/

namespace AutomatonShell

/-- What can end a command early. -/
inductive Fault where
  /-- A file name holds a NUL character. -/
  | nulInName
  /-- The configured encoding does not exist. -/
  | unknownEncoding (name : String)
  /-- The configured encoding cannot express a listing, or cannot make sense of a script. -/
  | unencodable {failure : TextFileError}
  /-- A snapshot holds something that is no array, or that is not what the arrays of a snapshot are
  made of. -/
  | snapshotEntry {error : SnapshotError}
  /-- The reading of a snapshot broke off. -/
  | archive (fault : Archive.ReadFault)
  /-- The comment marker is empty. -/
  | assembler (error : AssemblerError)
  /-- The model refused a declaration that had been checked. -/
  | model (error : ModelError)
  /-- The automaton could not be executed. -/
  | execution (error : ExecutionError)
  /-- Scripts are nested too deeply. -/
  | nesting
  /-- The command line asks for a command and gives none. -/
  | missingCommand
  /-- The command line asks for a folder to work in and gives none. -/
  | missingFolder
  deriving Repr, DecidableEq

/-- The wording of a fault. -/
def Fault.message : Fault → String
  | .nulInName => FileError.nulInName.message
  | .unknownEncoding name => (TextFileError.unknownEncoding name).message
  | @Fault.unencodable failure => failure.message
  | @Fault.snapshotEntry error => error.message
  | .archive f => f.message
  | .assembler e => e.message
  | .model e => e.message
  | .execution e => e.message
  | .nesting => "maximum recursion depth exceeded"
  | .missingCommand => "can only concatenate list (not \"str\") to list"
  | .missingFolder => "expected str, bytes or os.PathLike object, not list"

/-- One automaton being built up and used. -/
structure Session where
  /-- The configuration. -/
  config : Config
  /-- The files. -/
  workspace : Workspace
  /-- The log, in the encoding of the configuration. -/
  log : LogSink
  /-- What has been declared. -/
  automaton : Automaton := {}
  /-- The scripts being replayed, the outermost first. -/
  loading : List Location := []
  /-- Whether the session has ended. -/
  finished : Bool := false

/-- What a command leaves and says. -/
abbrev Reply := Outcome Session Message Fault

namespace Session

/-- A session that begins with nothing declared and no log. -/
def start (config : Config) (workspace : Workspace) : Session :=
  { config, workspace, log := { encoding := config.encoding, codec? := config.codec? } }

/-- A line written to the log. -/
def record (s : Session) (line : String) : Session :=
  let (workspace, log) := s.log.write s.workspace line
  { s with workspace, log }

/-- **A message said**: it is part of the reply, and its rendering goes to the log. -/
def emit (s : Session) (m : Message) : Reply := { state := s.record m.render, output := [m] }

/-- A diagnostic about the command on a line, said. -/
def say (s : Session) (line : Option Int) (d : Diagnostic) : Reply := s.emit (d.message line)

/-- Diagnostics about the command on a line, said one after the other. -/
def sayAll (s : Session) (line : Option Int) (ds : List Diagnostic) : Reply :=
  Outcome.forEach (fun s d => s.say line d) s ds

/-- The log closed. -/
def closeLog (s : Session) : Session := { s with log := s.log.close }

/-- **The outcome of a declaration command** carried over into the session. -/
def declare (s : Session) (line : Option Int) (d : Declaration) : Reply :=
  (sayAll { s with automaton := d.state } line d.output).andThen fun s =>
    match d.failure with
    | none => .done s
    | some e => .stop s (.model e)

/-- Recording a line changes nothing but the log and its file. -/
theorem record_automaton (s : Session) (line : String) :
    (s.record line).automaton = s.automaton := rfl

end Session

end AutomatonShell
