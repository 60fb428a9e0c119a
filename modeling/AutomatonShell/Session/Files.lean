import AutomatonShell.Automaton.Listing
import AutomatonShell.Session.Basic

/-!
# Commands that write files or leave the automaton alone

* `Session.print`, `Session.compile`, `Session.openLog` — a listing, a snapshot or a log written to
  a file.
* `Session.listAll`, `Session.execute`, `Session.stopLog`, `Session.exit` — the rest.
* `Session.restore` — a snapshot loaded in place of the automaton.
* `Session.scriptAt`, `Session.snapshotAt` — a script or a snapshot read.

A file that cannot be opened is an error message.  A name with a NUL in it, an encoding that does
not exist or cannot express a listing, an archive whose reading breaks off and one that holds what
no snapshot is made of are faults.
-/

namespace AutomatonShell.Session

/-- The path that a file name stands for, spelled out. -/
def target (s : Session) (file : String) : String := (s.config.resolve file).toString

/-- What reading a script leads to. -/
def scriptAt (s : Session) (file : String) : Except TextFileError (List Char) :=
  s.workspace.readText s.config.encoding (s.target file) s.config.codec?

/-- What reading a snapshot leads to. -/
def snapshotAt (s : Session) (file : String) : Except LoadError Automaton :=
  s.workspace.loadSnapshot (s.target file) s.config.library

/-- The bare PRINT: the listing, line by line. -/
def listAll (s : Session) (line : Option Int) : Reply :=
  match s.automaton.listing with
  | [] => s.say line .nothingDeclared
  | lines => s.sayAll line (lines.map .listed)

/-- PRINT with a file name: the listing written to the file. -/
def print (s : Session) (file : String) (line : Option Int) : Reply :=
  let (workspace, failure) :=
    s.workspace.writeText s.config.encoding (s.target file) s.automaton.listingText s.config.codec?
  let s := { s with workspace }
  match failure with
  | none => s.say line (.written file)
  | some (.file .nulInName) => .stop s .nulInName
  | some (.file _) => s.say line (.cannotWrite file)
  | some (.unknownEncoding name) => .stop s (.unknownEncoding name)
  | some failure => .stop s (@Fault.unencodable failure)

/-- EXECUTE: a run of the automaton. -/
def execute (s : Session) (text : String) (line : Option Int) : Reply :=
  match s.automaton.initial with
  | none => s.say line .nowhereToStart
  | some _ =>
    match s.automaton.run text with
    | .error e => .stop s (.execution e)
    | .ok (.stopped e) => s.say line (.runStopped e)
    | .ok run => s.say line (.ran run)

/-- COMPILE: a snapshot written to the file, if its name is allowed. -/
def compile (s : Session) (file : String) (line : Option Int) : Reply :=
  if !s.config.isCompileTarget file then s.say line (.invalidTarget file)
  else
    let (workspace, failure) :=
      s.workspace.saveSnapshot s.automaton (s.target file) s.config.library
    let s := { s with workspace }
    match failure with
    | none => s.say line (.compiled file)
    | some (.file .nulInName) => .stop s .nulInName
    | some _ => s.say line (.cannotCreate file)

/-- LOAD of a snapshot: all of the automaton is replaced, or nothing. -/
def restore (s : Session) (file : String) (line : Option Int) : Reply :=
  match s.snapshotAt file with
  | .ok automaton => say { s with automaton } line (.loaded file)
  | .error (.notFound _) => s.say line (.cannotOpen file)
  | .error (.file .missing) => s.say line (.cannotOpen file)
  | .error (.file .nulInName) => .stop s .nulInName
  | .error (.file _) => s.say line (.cannotRead file)
  | .error (.snapshot .notArray) => .stop s (@Fault.snapshotEntry .notArray)
  | .error (.snapshot (.notNumber kind)) => .stop s (@Fault.snapshotEntry (.notNumber kind))
  | .error (.snapshot (.unreadable f)) =>
    if f.isAboutFile then s.say line (.cannotRead file) else .stop s (.archive f)
  | .error (.snapshot e) => s.say line (.cannotLoad file e)

/-- LOG with a file name: the log is closed and the new one opened. -/
def openLog (s : Session) (file : String) (line : Option Int) : Reply :=
  let (workspace, log, failure) := s.log.openAt s.workspace (s.target file)
  let s := { s with workspace, log }
  match failure with
  | none => .done s
  | some (.file .nulInName) => .stop s .nulInName
  | some (.file _) => s.say line (.cannotLog file)
  | some (.unknownEncoding name) => .stop s (.unknownEncoding name)
  | some failure => .stop s (@Fault.unencodable failure)

/-- The bare LOG: the log is closed. -/
def stopLog (s : Session) (line : Option Int) : Reply :=
  if s.log.active then s.closeLog.say line .logStopped else s.say line .logNotEnabled

/-- EXIT: the last message goes to the log, then the log is closed and the session has ended. -/
def exit (s : Session) (line : Option Int) : Reply :=
  (s.say line .terminated).andThen fun s => .done { s.closeLog with finished := true }

end AutomatonShell.Session
