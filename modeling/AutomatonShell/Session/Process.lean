import AutomatonShell.Session.Files
import AutomatonShell.Text.Lines

/-!
# Processing commands

A command is recorded in the log, taken apart and carried out.  LOAD of a script replays the script:
its commands are processed one after the other, each with its line in the script, and they may LOAD
further scripts.

A message goes three ways: to the log, to the output, and to whoever waits for an answer.  Calls
wait inside each other when scripts are replayed, so there is a stack of collectors, and a message
goes into all of them.  A call puts an empty collector on the stack, takes it off at the end, and
answers with what it holds.

* `Session.carryOut` — what a command comes to that loads nothing; a LOAD is left to the caller.
* `Interpreter` — a session at work: what it sent to the output, and its collectors.
* `Interpreter.relay`, `Interpreter.collecting` — messages sent on, and work with a collector.
* `Interpreter.replay` — a script replayed; how a command is processed is a parameter.
* `Interpreter.processAt` — all of it tied together, with a bound on how deeply scripts are nested.
* `Session.process`, `Session.runFile` — **the two entry points**, at the usual bound.

Scripts that are being replayed are listed in the session by their place, whatever the spelling of
their path, and none of them is replayed inside itself.  The list is put back when a replay ends,
however it ends, and so is the stack of collectors.
-/

namespace AutomatonShell

/-! ## Single commands -/

/-- What carrying out a command comes to. -/
inductive Session.Handling where
  /-- The command is done, with a reply. -/
  | done (reply : Reply)
  /-- A file is to be loaded. -/
  | load (file : String)

namespace Session

/-- How deeply scripts may be nested. -/
def maxNesting : Nat := 325

/-- A command with exactly one word: the rules for none and for several, and what to do with it. -/
def withOne (s : Session) (keyword : Keyword) (line : Option Int) (none several : Arity)
    (words : List String) (action : String → Reply) : Reply :=
  match words with
  | [] => s.say line (.arity keyword none)
  | [word] => action word
  | _ => s.say line (.arity keyword several)

/-- **One command carried out**, up to the loading of a file. -/
def carryOut (s : Session) (keyword : Keyword) (words : List String) (body : List Char)
    (line : Option Int) : Handling :=
  match keyword, words with
  | .load, [file] => .load file
  | .load, [] => .done (s.say line (.arity keyword .needsFile))
  | .load, _ => .done (s.say line (.arity keyword .oneFile))
  | .symbols, [] => .done (s.say line (.declared .symbols s.automaton.symbols))
  | .symbols, words => .done (s.declare line (s.automaton.declareSymbols words))
  | .states, [] => .done (s.say line (.declared .states s.automaton.states))
  | .states, words => .done (s.declare line (s.automaton.declareStates words))
  | .initialState, words =>
    .done <| s.withOne keyword line .needsStateName .oneStateName words fun word =>
      s.declare line (s.automaton.declareInitial word)
  | .finalStates, [] => .done (s.say line (.arity keyword .someStateNames))
  | .finalStates, words => .done (s.declare line (s.automaton.declareFinals words))
  | .transitions, _ => .done (s.declare line (s.automaton.declareTransitions body))
  | .print, [] => .done (s.listAll line)
  | .print, [file] => .done (s.print file line)
  | .print, _ => .done (s.say line (.arity keyword .atMostOneFile))
  | .execute, words =>
    .done (s.withOne keyword line .needsInput .oneInput words fun text => s.execute text line)
  | .compile, words =>
    .done (s.withOne keyword line .needsFile .oneFile words fun file => s.compile file line)
  | .clear, [] => .done (.done { s with automaton := {} })
  | .clear, _ => .done (s.say line (.arity keyword .noArguments))
  | .log, [] => .done (s.stopLog line)
  | .log, [file] => .done (s.openLog file line)
  | .log, _ => .done (s.say line (.arity keyword .atMostOneFile))
  | .exit, [] => .done (s.exit line)
  | .exit, _ => .done (s.say line (.arity keyword .noArguments))

end Session

/-! ## Sessions at work -/

/-- A session at work. -/
structure Interpreter where
  /-- The session. -/
  session : Session
  /-- The lines sent to the output. -/
  sent : List String := []
  /-- The messages collected by each call that is under way, the outermost first. -/
  collectors : List (List Message) := []

namespace Interpreter

/-- What a call leaves and answers with. -/
abbrev Answer := Outcome Interpreter Message Fault

/-- What work leaves that answers nothing itself. -/
abbrev Work := Outcome Interpreter Empty Fault

/-- How the processing of a command is handed on: a text and a line. -/
abbrev Action := Interpreter → String → Option Int → Answer

/-- How the loading of a file is handed on: a name and a line. -/
abbrev Loading := Interpreter → String → Option Int → Work

/-- A message sent to the output and into every collector. -/
def deliver (i : Interpreter) (m : Message) : Interpreter :=
  { i with sent := i.sent ++ [m.render], collectors := i.collectors.map (· ++ [m]) }

/-- What a session does about a command, with its messages sent on one by one. -/
def relay (i : Interpreter) (reply : Reply) : Work :=
  { state := reply.output.foldl deliver { i with session := reply.state }
    failure := reply.failure }

/-- **Work with a collector of its own**, which is put on the stack first and taken off at the end,
however the work ends. -/
def collecting (i : Interpreter) (work : Interpreter → Work) : Answer :=
  let worked := work { i with collectors := i.collectors ++ [[]] }
  { state := { worked.state with collectors := worked.state.collectors.dropLast }
    output := worked.state.collectors.getLastD []
    failure := worked.failure }

/-- A call whose answer nobody looks at. -/
def unheard (answer : Answer) : Work := { state := answer.state, failure := answer.failure }

/-- The scripts that are listed as being replayed, replaced. -/
def withLoading (i : Interpreter) (loading : List Location) : Interpreter :=
  { i with session := { i.session with loading } }

/-- **One command carried out.** -/
def perform (load : Loading) (i : Interpreter) (keyword : Keyword) (words : List String)
    (body : List Char) (line : Option Int) : Work :=
  match i.session.carryOut keyword words body line with
  | .done reply => i.relay reply
  | .load file => load i file line

/-- **One command text processed.**  Nothing happens in a session that has ended or when the text
is blank; otherwise the text is recorded behind the prompt and its command carried out. -/
def processWith (load : Loading) (i : Interpreter) (text : String) (line : Option Int) : Answer :=
  if i.session.finished then .done i
  else
    let trimmed := trimCommand text.toList
    match Command.ofText? trimmed with
    | none => .done i
    | some command =>
      let s := i.session.record (i.session.config.prompt ++ String.ofList trimmed)
      collecting { i with session := s } fun i =>
        match Keyword.ofName? command.first with
        | none => i.relay (i.session.say line (.unknownCommand command.first))
        | some keyword => i.perform load keyword command.words command.body line

/-- The commands of a script processed one after the other. -/
def processAll (process : Action) (i : Interpreter) (commands : List NumberedCommand) : Work :=
  Outcome.forEach (fun i command => unheard (process i command.2 (some command.1))) i commands

/-- The commands of a script and its unfinished command, while the script is listed as being
replayed. -/
def replayLines (process : Action) (i : Interpreter) (place : Location) (file : String)
    (lines : List String) : Work :=
  match ({ commentPrefix := i.session.config.commentPrefix } : Assembler).feedAll 1 lines with
  | .error e => .stop i (.assembler e)
  | .ok (commands, rest) =>
    let replayed := processAll process (i.withLoading (i.session.loading ++ [place])) commands
    { replayed with state := replayed.state.withLoading i.session.loading }.andThen fun i =>
      if i.session.finished || rest.pieces.isEmpty then .done i
      else i.relay (i.session.say (some lines.length) (.unterminated file rest.pending))

/-- **A script replayed**, unless it is being replayed already. -/
def replay (process : Action) (i : Interpreter) (file : String) (line : Option Int) : Work :=
  let s := i.session
  let path := s.target file
  if path.toList.contains (Char.ofNat 0) then .stop i .nulInName
  else
    let place := Location.ofText s.workspace.home path
    if s.loading.contains place then i.relay (s.say line (.recursiveLoad file))
    else
      match s.scriptAt file with
      | .ok text =>
        let lines := (Text.lines (Text.unifyNewlines text)).map String.ofList
        i.replayLines process place file lines
      | .error (.unknownEncoding name) => .stop i (.unknownEncoding name)
      | .error (@TextFileError.undecodable .broken) =>
        .stop i (@Fault.unencodable (@TextFileError.undecodable .broken))
      | .error _ => i.relay (s.say line (.cannotOpen file))

/-- LOAD: a snapshot is restored, anything else is replayed as a script. -/
def load (process : Action) (i : Interpreter) (file : String) (line : Option Int) : Work :=
  if i.session.config.isBinary file then i.relay (i.session.restore file line)
  else i.replay process file line

/-- **Processing with a bound on the nesting of scripts.**  A command at bound zero is a fault. -/
def processAt : (bound : Nat) → Action
  | 0 => fun i _ _ => .stop i .nesting
  | bound + 1 => processWith (load (processAt bound))

/-- **A command text processed.** -/
def process (i : Interpreter) (text : String) (line : Option Int) : Answer :=
  processAt (Session.maxNesting + 1) i text line

/-- **A file loaded**, as LOAD does, without a command to record. -/
def runFile (i : Interpreter) (file : String) : Answer :=
  if i.session.finished then .done i
  else i.collecting fun i => load (processAt Session.maxNesting) i file none

end Interpreter

/-! ## Calls from outside -/

namespace Session

/-- A call made to a session that nothing else is under way in. -/
def call (s : Session) (make : Interpreter → Interpreter.Answer) : Reply :=
  let answer := make { session := s }
  { state := answer.state.session, output := answer.output, failure := answer.failure }

/-- The same call, with the lines that are sent to the output meanwhile. -/
def watch (s : Session) (make : Interpreter → Interpreter.Answer) : Outcome Session String Fault :=
  let answer := make { session := s }
  { state := answer.state.session
    output := answer.state.sent.map (· ++ "\n")
    failure := answer.failure }

/-- **A command text processed.** -/
def process (s : Session) (text : String) (line : Option Int) : Reply :=
  s.call (·.process text line)

/-- **A file loaded.** -/
def runFile (s : Session) (file : String) : Reply := s.call (·.runFile file)

/-- Commands processed one after the other, with the lines sent to the output. -/
def watchAll (s : Session) (commands : List NumberedCommand) : Outcome Session String Fault :=
  Outcome.forEach (fun s command => s.watch (·.process command.2 (some command.1))) s commands

end Session

end AutomatonShell
