import AutomatonShell.CommandLine.Arguments
import AutomatonShell.Shell

/-!
# The program

The program opens the log, loads the files and runs the commands that its command line names, in
this order.  Without files and commands it starts the interactive shell.

* `Launch` — what a command line leads to before anything is read from the input: an ending, a
  session that has done its work, or a shell to talk to.
* `launch` — the reading of a command line and all work that needs no input.
* `runProgram` — the whole program over a list of readings.
-/

namespace AutomatonShell

/-- What the program writes and leaves. -/
abbrev Running := Outcome Session String Fault

namespace Running

/-- The log that was asked for, opened.  An empty name asks for none. -/
def openLog (s : Session) (log : Option String) : Running :=
  match log with
  | none => .done s
  | some file => if file = "" then .done s else s.watch (·.process ("LOG " ++ file) none)

/-- The files loaded one after the other. -/
def loadAll (s : Session) (files : List String) : Running :=
  Outcome.forEach (fun s file => s.watch (·.runFile file)) s files

/-- The commands processed.  Each is a line of its own, whose final semicolon is optional. -/
def runCommands (s : Session) (commands : List String) : Running :=
  match assemble s.config.commentPrefix 1 (commands.map (· ++ String.singleton separator)) with
  | .error e => .stop s (.assembler e)
  | .ok commands => s.watchAll commands

/-- The end of the commands: a missing one is a fault, unless the session has ended. -/
def closeCommands (s : Session) (missing : Bool) : Running :=
  if missing && !s.finished then .stop s .missingCommand else .done s

/-- All work that needs no input: the log, the files and the commands.  Nothing is done if the
folder to work in is missing. -/
def ofInvocation (s : Session) (i : Invocation) : Running :=
  if i.folderMissing then .stop s .missingFolder
  else
    (((openLog s i.log).andThen fun s => loadAll s i.files).andThen fun s =>
      runCommands s i.commands).andThen fun s => closeCommands s i.commandMissing

end Running

/-- What a command line leads to before anything is read from the input. -/
inductive Launch where
  /-- The program ends at once. -/
  | ended (ending : Ending)
  /-- Work was done; the shell follows if `interactive`. -/
  | started (running : Running) (interactive : Bool)

/-- **The reading of a command line and all work that needs no input.** -/
def launch (arguments : List String) (workspace : Workspace) : Launch :=
  match Invocation.parse arguments with
  | .error ending => .ended ending
  | .ok i =>
    let config := { Config.standard with workDir := i.workDir }
    .started (Running.ofInvocation (Session.start config workspace) i)
      (i.files.isEmpty && i.commands.isEmpty && !i.commandMissing)

/-- The exit code of an ending. -/
def Ending.code : Ending → Nat
  | .version | .help => 0
  | .usage => 2

/-- What an ending prints on its own. -/
def Ending.printed : Ending → String
  | .version => Shell.greeting
  | .help | .usage => ""

/-- The shell that follows the work of the command line, over a list of readings. -/
def converse (running : Running) (readings : List Reading) : Running :=
  running.andThen fun s =>
    let exchange := (Shell.start s).interact readings
    { state := exchange.state.session
      output := Shell.greeting :: exchange.output
      failure := exchange.failure }

/-- How a whole program ends. -/
inductive Conclusion where
  /-- Before it began. -/
  | ended (ending : Ending)
  /-- After its work. -/
  | ran (running : Running)

/-- **The whole program** over a list of readings. -/
def runProgram (arguments : List String) (workspace : Workspace) (readings : List Reading) :
    Conclusion :=
  match launch arguments workspace with
  | .ended ending => .ended ending
  | .started running interactive =>
    .ran (if interactive then converse running readings else running)

end AutomatonShell
