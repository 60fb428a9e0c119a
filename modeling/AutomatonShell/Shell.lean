import AutomatonShell.Session.Process

/-!
# The interactive shell

The shell reads lines, puts them together to commands and hands these to a session.  It shows the
prompt before a line is read, or as many blanks while a command is unfinished.  An interrupt drops
the unfinished command and nothing else; it does not count as a line.

* `Reading` — what one attempt to read a line gives.
* `Shell` — the session, the unfinished command and the number of lines read.
* `Shell.cue`, `Shell.accept` — what is shown before a line is read, and what a reading does.
* `Shell.turn`, `Shell.interact` — one turn of the dialogue, and the whole of it over a list of
  readings.
-/

namespace AutomatonShell

/-- The version of the program. -/
def version : String := "0.1.0"

/-- What one attempt to read a line gives. -/
inductive Reading where
  /-- A line, with the newline behind it if there is one; an empty text is the end of input. -/
  | line (text : String)
  /-- An interrupt. -/
  | interrupt
  deriving Repr, DecidableEq

/-- A dialogue in progress. -/
structure Shell where
  /-- The session that commands go to. -/
  session : Session
  /-- The unfinished command. -/
  assembler : Assembler
  /-- How many lines have been read. -/
  lineNumber : Nat := 0
  /-- Whether the input has ended. -/
  ended : Bool := false

/-- What a reading leaves and shows. -/
abbrev Exchange := Outcome Shell String Fault

namespace Shell

/-- A dialogue that begins with a session. -/
def start (session : Session) : Shell :=
  { session, assembler := { commentPrefix := session.config.commentPrefix } }

/-- What is shown first. -/
def greeting : String := "pydfa " ++ version ++ "\n"

/-- **What is shown before a line is read**: the prompt, or blanks of the same length while a
command is unfinished. -/
def cue (shell : Shell) : String :=
  let prompt := shell.session.config.prompt
  if shell.assembler.pieces.isEmpty then prompt
  else String.ofList (List.replicate prompt.length ' ')

/-- A line without the newlines behind it. -/
def withoutNewlines (text : String) : String :=
  String.ofList (Text.dropEndWhile (· == '\n') text.toList)

/-- The commands that a line finishes, processed one after the other. -/
def run (shell : Shell) (commands : List NumberedCommand) : Exchange :=
  let watched := shell.session.watchAll commands
  { watched with state := { shell with session := watched.state } }

/-- **What a reading does.** -/
def accept (shell : Shell) : Reading → Exchange
  | .interrupt =>
    { state := { shell with assembler := shell.assembler.reset }, output := ["\n"] }
  | .line text =>
    if text = "" then { state := { shell with ended := true }, output := ["\n"] }
    else
      let number := shell.lineNumber + 1
      match shell.assembler.feed (withoutNewlines text) number with
      | .error e => .stop shell (.assembler e)
      | .ok (commands, assembler) => run { shell with assembler, lineNumber := number } commands

/-- Whether the dialogue is over: the session or the input has ended. -/
def isOver (shell : Shell) : Bool := shell.session.finished || shell.ended

/-- One turn of the dialogue: the cue, and what the reading behind it does. -/
def turn (shell : Shell) (reading : Reading) : Exchange :=
  if shell.isOver then .done shell
  else
    let cued : Exchange := { state := shell, output := [shell.cue] }
    cued.andThen fun shell => shell.accept reading

/-- **The whole dialogue**, turn by turn; behind the last reading stands the end of input. -/
def interact (shell : Shell) (readings : List Reading) : Exchange :=
  Outcome.forEach turn shell (readings ++ [.line ""])

end Shell

end AutomatonShell
