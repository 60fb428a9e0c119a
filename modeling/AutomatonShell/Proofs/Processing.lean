import AutomatonShell.CommandLine.Run
import AutomatonShell.Proofs.Outcomes

/-!
# Processing as seen from a session

Output and collectors never look back at the session, and a message goes into all of them alike.  So
a run is determined by what the session does and says, and there is a shorter way to tell it:
replies are put one after the other, with all they say.  This is how runs are reasoned about from
here on.

* `Session.processWith`, `Session.replay`, `Session.processAt` — the runs told that way.
* `Interpreter.answering` — a reply sent on to the output and all collectors, and answered with.
* **`Interpreter.processAt_eq`** — the two agree at every bound, whatever is under way, by induction
  on the bound.
* `Session.process_eq`, `Session.runFile_eq` — the entry points.
* `Session.watch_process` and its siblings — the lines that are sent to the output are those of the
  reply.
-/

namespace AutomatonShell

/-! ## Replies put one after the other -/

namespace Session

/-- How LOAD and the processing of a command are handed on: a text and a line. -/
abbrev Action := Session → String → Option Int → Reply

/-- One command carried out, given what LOAD does. -/
def perform (load : Action) (s : Session) (keyword : Keyword) (words : List String)
    (body : List Char) (line : Option Int) : Reply :=
  match s.carryOut keyword words body line with
  | .done reply => reply
  | .load file => load s file line

/-- One command text processed. -/
def processWith (load : Action) (s : Session) (text : String) (line : Option Int) : Reply :=
  if s.finished then .done s
  else
    let trimmed := trimCommand text.toList
    match Command.ofText? trimmed with
    | none => .done s
    | some command =>
      let s := s.record (s.config.prompt ++ String.ofList trimmed)
      match Keyword.ofName? command.first with
      | none => s.say line (.unknownCommand command.first)
      | some keyword => s.perform load keyword command.words command.body line

/-- Commands processed one after the other. -/
def processAll (process : Action) (s : Session) (commands : List NumberedCommand) : Reply :=
  Outcome.forEach (fun s command => process s command.2 (some command.1)) s commands

/-- The commands of a script and its unfinished command. -/
def replayLines (process : Action) (s : Session) (place : Location) (file : String)
    (lines : List String) : Reply :=
  match ({ commentPrefix := s.config.commentPrefix } : Assembler).feedAll 1 lines with
  | .error e => .stop s (.assembler e)
  | .ok (commands, rest) =>
    let replayed := processAll process { s with loading := s.loading ++ [place] } commands
    { replayed with state := { replayed.state with loading := s.loading } }.andThen fun s =>
      if s.finished || rest.pieces.isEmpty then .done s
      else s.say (some lines.length) (.unterminated file rest.pending)

/-- A script replayed. -/
def replay (process : Action) (s : Session) (file : String) (line : Option Int) : Reply :=
  let path := s.target file
  if path.toList.contains (Char.ofNat 0) then .stop s .nulInName
  else
    let place := Location.ofText s.workspace.home path
    if s.loading.contains place then s.say line (.recursiveLoad file)
    else
      match s.scriptAt file with
      | .ok text =>
        let lines := (Text.lines (Text.unifyNewlines text)).map String.ofList
        s.replayLines process place file lines
      | .error (.unknownEncoding name) => .stop s (.unknownEncoding name)
      | .error (@TextFileError.undecodable .broken) =>
        .stop s (@Fault.unencodable (@TextFileError.undecodable .broken))
      | .error _ => s.say line (.cannotOpen file)

/-- A file loaded. -/
def load (process : Action) (s : Session) (file : String) (line : Option Int) : Reply :=
  if s.config.isBinary file then s.restore file line else s.replay process file line

/-- Processing with a bound on the nesting of scripts. -/
def processAt : (bound : Nat) → Action
  | 0 => fun s _ _ => .stop s .nesting
  | bound + 1 => processWith (load (processAt bound))

end Session

/-- The lines of output that messages make. -/
def Shell.shown (messages : List Message) : List String := messages.map fun m => m.render ++ "\n"

/-- A reply with its messages as lines of output. -/
def Running.ofReply (reply : Reply) : Running :=
  { state := reply.state, output := Shell.shown reply.output, failure := reply.failure }

/-- Replies one after the other are shown one after the other. -/
lemma Running.ofReply_andThen (r : Reply) (next : Session → Reply) :
    ofReply (r.andThen next) = (ofReply r).andThen fun s => ofReply (next s) := by
  obtain ⟨state, output, failure⟩ := r
  cases failure with
  | some fault => rfl
  | none => simp [ofReply, Outcome.andThen, Shell.shown]

namespace Interpreter

variable {i : Interpreter} {r : Reply} {next : Session → Reply}

/-! ## Messages sent on -/

/-- A reply sent on, with its messages as the answer. -/
def answering (i : Interpreter) (r : Reply) : Answer :=
  { state := (i.relay r).state, output := r.output, failure := r.failure }

/-- Messages sent out one by one reach the output and every collector in their order. -/
lemma foldl_deliver (i : Interpreter) (messages : List Message) :
    messages.foldl deliver i
      = { i with
          sent := i.sent ++ messages.map Message.render
          collectors := i.collectors.map (· ++ messages) } := by
  induction messages generalizing i with
  | nil => simp
  | cons m rest ih => simp [ih, deliver, Function.comp_def]

/-- **Where a reply goes.** -/
lemma relay_eq (i : Interpreter) (r : Reply) :
    i.relay r
      = { state :=
            { session := r.state
              sent := i.sent ++ r.output.map Message.render
              collectors := i.collectors.map (· ++ r.output) }
          failure := r.failure } := by
  rw [relay, foldl_deliver]

lemma relay_done (i : Interpreter) : i.relay (.done i.session) = .done i := by
  simp [relay_eq, Outcome.done]

lemma relay_stop (i : Interpreter) (fault : Fault) :
    i.relay (.stop i.session fault) = .stop i fault := by
  simp [relay_eq, Outcome.stop]

/-- Replies one after the other are sent on one after the other. -/
lemma relay_andThen (i : Interpreter) (r : Reply) (next : Session → Reply) :
    i.relay (r.andThen next) = (i.relay r).andThen fun j => j.relay (next j.session) := by
  cases h : r.failure with
  | some fault =>
    have hrelay : (i.relay r).failure = some fault := h
    rw [Outcome.andThen_of_failure_eq_some h, Outcome.andThen_of_failure_eq_some hrelay]
  | none =>
    have hrelay : (i.relay r).failure = none := h
    rw [Outcome.andThen_of_failure_eq_none h, Outcome.andThen_of_failure_eq_none hrelay]
    simp [relay_eq, Function.comp_def]

/-- **A collector on top of the stack** holds in the end what was said. -/
lemma collecting_relay (i : Interpreter) (answer : Session → Reply) :
    (i.collecting fun j => j.relay (answer j.session)) = i.answering (answer i.session) := by
  simp [collecting, answering, relay_eq]

lemma unheard_answering (i : Interpreter) (r : Reply) : unheard (i.answering r) = i.relay r := by
  simp [unheard, answering, relay_eq]

lemma answering_done (i : Interpreter) : i.answering (.done i.session) = .done i := by
  simp [answering, relay_eq, Outcome.done]

lemma answering_stop (i : Interpreter) (fault : Fault) :
    i.answering (.stop i.session fault) = .stop i fault := by
  simp [answering, relay_eq, Outcome.stop]

/-! ## The two agree -/

variable {act : Interpreter.Action} {act' : Session.Action}

/-- Commands in a row, if each is answered with what the session says. -/
lemma processAll_eq (hact : ∀ i text line, act i text line = i.answering (act' i.session text line))
    (i : Interpreter) (commands : List NumberedCommand) :
    processAll act i commands = i.relay (Session.processAll act' i.session commands) := by
  induction commands generalizing i with
  | nil => exact (relay_done i).symm
  | cons c rest ih =>
    simp only [processAll, Session.processAll, Outcome.forEach] at ih ⊢
    rw [relay_andThen, hact, unheard_answering]
    exact congrArg _ (funext ih)

lemma replayLines_eq
    (hact : ∀ i text line, act i text line = i.answering (act' i.session text line))
    (i : Interpreter) (place : Location) (file : String) (lines : List String) :
    i.replayLines act place file lines
      = i.relay (i.session.replayLines act' place file lines) := by
  rw [replayLines, Session.replayLines]
  cases Assembler.feedAll _ 1 lines with
  | error e => exact (relay_stop i _).symm
  | ok fed =>
    obtain ⟨commands, rest⟩ := fed
    dsimp only
    rw [processAll_eq hact, relay_andThen]
    congr 1
    · simp [relay_eq, withLoading]
    · funext j
      split
      · exact (relay_done j).symm
      · rfl

lemma load_eq (hact : ∀ i text line, act i text line = i.answering (act' i.session text line))
    (i : Interpreter) (file : String) (line : Option Int) :
    i.load act file line = i.relay (i.session.load act' file line) := by
  rw [load, Session.load]
  split
  · rfl
  rw [replay, Session.replay]
  dsimp only
  split
  · exact (relay_stop i _).symm
  split
  · rfl
  cases i.session.scriptAt file with
  | ok text => exact replayLines_eq hact i _ file _
  | error e =>
    cases e with
    | file | unencodable => rfl
    | unknownEncoding => exact (relay_stop i _).symm
    | @undecodable failure =>
      cases failure with
      | refused => rfl
      | broken => exact (relay_stop i _).symm

lemma processWith_eq {load : Loading} {load' : Session.Action}
    (hload : ∀ i file line, load i file line = i.relay (load' i.session file line))
    (i : Interpreter) (text : String) (line : Option Int) :
    processWith load i text line = i.answering (i.session.processWith load' text line) := by
  rw [processWith, Session.processWith]
  split
  · exact (answering_done i).symm
  dsimp only
  cases Command.ofText? (trimCommand text.toList) with
  | none => exact (answering_done i).symm
  | some command =>
    dsimp only
    generalize i.session.record _ = s
    have hanswer : ∀ r : Reply, ({ i with session := s } : Interpreter).answering r
        = i.answering r := fun r => by simp [answering, relay_eq]
    rw [← hanswer]
    cases Keyword.ofName? command.first with
    | none => exact collecting_relay _ fun s => s.say line (.unknownCommand command.first)
    | some keyword =>
      have hperform : (fun j : Interpreter =>
          j.perform load keyword command.words command.body line)
          = fun j => j.relay
              (j.session.perform load' keyword command.words command.body line) := by
        funext j
        rw [perform, Session.perform]
        cases j.session.carryOut keyword command.words command.body line with
        | done reply => rfl
        | load file => exact hload j file line
      dsimp only
      rw [hperform]
      exact collecting_relay _ fun s =>
        s.perform load' keyword command.words command.body line

/-- A file loaded with a collector of its own. -/
lemma collecting_load
    (hact : ∀ i text line, act i text line = i.answering (act' i.session text line))
    (i : Interpreter) (file : String) :
    (if i.session.finished then .done i else i.collecting fun i => i.load act file none)
      = i.answering (if i.session.finished then .done i.session
          else i.session.load act' file none) := by
  split
  · exact (answering_done i).symm
  · rw [funext fun j => load_eq hact j file none]
    exact collecting_relay i fun s => s.load act' file none

/-- **The two ways of telling a run agree**: a call answers with what the session says, and so much
is sent to the output and into every collector. -/
theorem processAt_eq (bound : Nat) (i : Interpreter) (text : String) (line : Option Int) :
    processAt bound i text line = i.answering (i.session.processAt bound text line) := by
  induction bound generalizing i text line with
  | zero => exact (answering_stop i .nesting).symm
  | succ bound ih => exact processWith_eq (load_eq ih) i text line

end Interpreter

/-! ## Calls from outside -/

namespace Session

variable {s : Session}

lemma call_eq {make : Interpreter → Interpreter.Answer} {r : Reply}
    (h : make { session := s } = ({ session := s } : Interpreter).answering r) :
    s.call make = r := by
  rw [call, h]
  simp [Interpreter.answering, Interpreter.relay_eq]

/-- **Processing a command text**, told from the session. -/
lemma process_eq (s : Session) (text : String) (line : Option Int) :
    s.process text line = s.processAt (maxNesting + 1) text line :=
  call_eq (Interpreter.processAt_eq _ _ text line)

lemma process_eq_processAt : (process : Action) = processAt (maxNesting + 1) :=
  funext fun s => funext fun text => funext fun line => process_eq s text line

/-- **Loading a file**, told from the session. -/
lemma runFile_eq (s : Session) (file : String) :
    s.runFile file = if s.finished then .done s else load (processAt maxNesting) s file none :=
  call_eq (Interpreter.collecting_load (Interpreter.processAt_eq maxNesting) _ file)

/-- A call is answered with what the session says, whatever else is under way. -/
lemma answering_process (i : Interpreter) (text : String) (line : Option Int) :
    i.process text line = i.answering (i.session.process text line) := by
  rw [process_eq]
  exact Interpreter.processAt_eq _ i text line

lemma answering_runFile (i : Interpreter) (file : String) :
    i.runFile file = i.answering (i.session.runFile file) := by
  rw [runFile_eq]
  exact Interpreter.collecting_load (Interpreter.processAt_eq maxNesting) i file

/-- The lines that a call sends to the output are those of its reply. -/
lemma watch_eq {make : Interpreter → Interpreter.Answer} {r : Reply}
    (h : make { session := s } = ({ session := s } : Interpreter).answering r) :
    s.watch make = Running.ofReply r := by
  rw [watch, h]
  simp [Interpreter.answering, Interpreter.relay_eq, Running.ofReply, Shell.shown,
    Function.comp_def]

lemma watch_process (s : Session) (text : String) (line : Option Int) :
    s.watch (·.process text line) = Running.ofReply (s.process text line) :=
  watch_eq (answering_process { session := s } text line)

lemma watch_runFile (s : Session) (file : String) :
    s.watch (·.runFile file) = Running.ofReply (s.runFile file) :=
  watch_eq (answering_runFile { session := s } file)

lemma watchAll_eq (s : Session) (commands : List NumberedCommand) :
    s.watchAll commands = Running.ofReply (processAll process s commands) := by
  induction commands generalizing s with
  | nil => rfl
  | cons command rest ih =>
    simp only [watchAll, processAll, Outcome.forEach, Running.ofReply_andThen, watch_process]
      at ih ⊢
    exact congrArg _ (funext ih)

end Session

end AutomatonShell
