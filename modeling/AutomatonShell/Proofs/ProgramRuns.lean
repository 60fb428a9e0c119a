import AutomatonShell.CommandLine.Run
import AutomatonShell.Proofs.Ending
import AutomatonShell.Proofs.TaskFaults

/-!
# What the program asks a session for

The program is a way of asking one session for one thing after the other: the log, the files and the
commands of its command line, or the commands that are put together from the lines of a dialogue.
Which requests these are does not depend on the answers.  So a run of the program is a run of
requests with texts shown between the answers (`IsCourse`), and what is known of requests carries
over, above all that EXIT is final.

* `Running.requests`, `Shell.requests` — the requests of a command line, and of a dialogue.
* `Running.ofInvocation_eq` — the work of a command line is that of its requests.
* `IsCourse`, `IsCourse.andThen` — runs that are those of requests but for what is shown, and
  sequences of them.
* **`Shell.isCourse_turns`** — a dialogue is the course of its requests.
-/

namespace AutomatonShell

open Session

/-- A command of a line, as a request. -/
def requestOf (command : NumberedCommand) : Session.Request :=
  .command command.2 (some command.1)

lemma answerAll_requestOf (s : Session) (commands : List NumberedCommand) :
    answerAll s (commands.map requestOf) = processAll process s commands := by
  induction commands generalizing s with
  | nil => rfl
  | cons command rest ih =>
    have hrest : (fun s => answerAll s (rest.map requestOf)) = fun s => processAll process s rest :=
      funext ih
    rw [List.map_cons, answerAll, Outcome.forEach]
    exact congrArg _ hrest

/-! ## The command line -/

namespace Running

/-- The log that was asked for, as requests. -/
def logRequests : Option String → List Session.Request
  | none => []
  | some file => if file = "" then [] else [.command ("LOG " ++ file) none]

/-- The commands of the command line, as requests. -/
def commandRequests (marker : String) (commands : List String) : List Session.Request :=
  match assemble marker 1 (commands.map (· ++ String.singleton separator)) with
  | .error _ => []
  | .ok commands => commands.map requestOf

/-- **What a command line asks for**: the log, the files and the commands, unless the folder to work
in is missing. -/
def requests (marker : String) (i : Invocation) : List Session.Request :=
  if i.folderMissing then []
  else logRequests i.log ++ i.files.map .file ++ commandRequests marker i.commands

lemma openLog_eq (s : Session) (log : Option String) :
    openLog s log = ofReply (answerAll s (logRequests log)) := by
  cases log with
  | none => rfl
  | some file =>
    rw [openLog, logRequests]
    split_ifs
    · rfl
    · rw [answerAll, Outcome.forEach, watch_process]
      exact congrArg ofReply (Outcome.andThen_done _).symm

lemma loadAll_eq (s : Session) (files : List String) :
    loadAll s files = ofReply (answerAll s (files.map .file)) := by
  induction files generalizing s with
  | nil => rfl
  | cons file rest ih =>
    have hrest : (fun s => loadAll s rest) = fun s => ofReply (answerAll s (rest.map .file)) :=
      funext ih
    have hcons : answerAll s ((file :: rest).map .file)
        = (s.runFile file).andThen fun s => answerAll s (rest.map .file) := rfl
    rw [hcons, ofReply_andThen, ← hrest, ← watch_runFile]
    rfl

lemma assemble_ne_error {marker : String} (h : marker ≠ "") (start : Int) (lines : List String)
    (e : AssemblerError) : assemble marker start lines ≠ .error e := by
  rw [assemble]
  cases hfeed : ({ commentPrefix := marker } : Assembler).feedAll start lines with
  | error e' => exact absurd hfeed (feedAll_ne_error (by exact h) start lines e')
  | ok fed => simp [Except.map]

lemma runCommands_eq {s : Session} (h : s.config.commentPrefix ≠ "") (commands : List String) :
    runCommands s commands
      = ofReply (answerAll s (commandRequests s.config.commentPrefix commands)) := by
  rw [runCommands, commandRequests]
  cases hcommands : assemble s.config.commentPrefix 1
      (commands.map (· ++ String.singleton separator)) with
  | error e => exact absurd hcommands (assemble_ne_error h _ _ e)
  | ok commands =>
    rw [answerAll_requestOf]
    exact watchAll_eq s commands

lemma commentPrefix_answerAll (s : Session) (requests : List Session.Request) :
    (answerAll s requests).state.config.commentPrefix = s.config.commentPrefix := by
  rw [(frame_answerAll s requests).config]

/-- **The work of a command line is that of its requests.**  Only the end of it may bring a fault of
its own. -/
theorem ofInvocation_eq {s : Session} (h : s.config.commentPrefix ≠ "") {i : Invocation}
    (hfolder : i.folderMissing = false) :
    ofInvocation s i = (ofReply (answerAll s (requests s.config.commentPrefix i))).andThen
      fun s => closeCommands s i.commandMissing := by
  have hcommands : ∀ t : Session, t.config.commentPrefix = s.config.commentPrefix →
      runCommands t i.commands
        = ofReply (answerAll t (commandRequests s.config.commentPrefix i.commands)) := by
    intro t ht
    rw [← ht]
    exact runCommands_eq (ht ▸ h) i.commands
  have hload : (fun s => loadAll s i.files) = fun s => ofReply (answerAll s (i.files.map .file)) :=
    funext fun s => loadAll_eq s i.files
  rw [ofInvocation, if_neg (by simp [hfolder]), requests, if_neg (by simp [hfolder]), openLog_eq,
    hload, ← ofReply_andThen, ← answerAll_append, answerAll_append s (_ ++ _), ofReply_andThen]
  refine congrArg (Outcome.andThen · _) (Outcome.andThen_congr (hcommands _ ?_))
  -- the marker is still that of the configuration when the commands are cut
  exact commentPrefix_answerAll s _

end Running

/-! ## Courses of requests -/

/-- **A run of the program is the course of requests.**  It leaves what they leave, shows what they
say among other texts, and an EXIT in them is final for it as well. -/
structure IsCourse (requests : List Session.Request) (s : Session) (r : Running) : Prop where
  state : r.state = (answerAll s requests).state
  shown : (Shell.shown (answerAll s requests).output).Sublist r.output
  final : IsFinal (farewell.render ++ "\n") (begun s requests) s r

section

variable {s : Session} {requests more : List Session.Request} {r : Running}

lemma isFinal_ofReply {calls : List Call} {reply : Reply} (h : IsFinal farewell calls s reply) :
    IsFinal (farewell.render ++ "\n") calls s (Running.ofReply reply) := by
  intro before d after t hcalls ht hexit
  obtain ⟨hfailure, hstate, ⟨said, houtput⟩, hafter⟩ := h before d after t hcalls ht hexit
  refine ⟨hfailure, hstate, ⟨Shell.shown said, ?_⟩, hafter⟩
  simp [Running.ofReply, houtput, Shell.shown]

lemma isCourse_ofReply (s : Session) (requests : List Session.Request) :
    IsCourse requests s (Running.ofReply (answerAll s requests)) :=
  ⟨rfl, List.Sublist.refl _, isFinal_ofReply (isFinal_answerAll s requests)⟩

/-- Nothing begins in a session that has ended, so no EXIT does. -/
lemma isFinal_of_finished {μ : Type} {last : μ} {calls : List Call} {r : Outcome Session μ Fault}
    (h : ∀ d ∈ calls, d.session.finished = true) : IsFinal last calls s r := by
  intro before d after t hcalls ht
  have hd := h d (hcalls ▸ List.mem_append_right before List.mem_cons_self)
  rw [Call.task?_of_finished hd] at ht
  exact nomatch ht

lemma isCourse_done (h : s.finished = true) (requests : List Session.Request) :
    IsCourse requests s (.done s) := by
  have hdone := answerAll_of_finished h requests
  refine ⟨by rw [hdone]; rfl, by rw [hdone]; exact List.Sublist.refl _, ?_⟩
  exact isFinal_of_finished (finished_of_mem_begun h requests)

/-- Texts shown first. -/
lemma IsCourse.shown_first (h : IsCourse requests s r) (texts : List String) :
    IsCourse requests s { r with output := texts ++ r.output } := by
  refine ⟨h.state, h.shown.trans (List.sublist_append_right texts _), ?_⟩
  intro before d after t hcalls ht hexit
  obtain ⟨hfailure, hstate, ⟨said, houtput⟩, hafter⟩ := h.final before d after t hcalls ht hexit
  exact ⟨hfailure, hstate, ⟨texts ++ said, by rw [List.append_assoc, ← houtput]⟩, hafter⟩

lemma begun_append (s : Session) (requests more : List Session.Request) :
    begun s (requests ++ more) = begun s requests ++
      if (answerAll s requests).failure.isSome then []
      else begun (answerAll s requests).state more := by
  induction requests generalizing s with
  | nil => simp [begun, answerAll, Outcome.forEach, Outcome.done]
  | cons request rest ih =>
    have hcons : answerAll s (request :: rest)
        = (s.answer request).andThen fun s => answerAll s rest := rfl
    rw [List.cons_append, begun, begun, ih, hcons]
    cases hr : (s.answer request).failure with
    | some fault => simp [Outcome.andThen_of_failure_eq_some hr, hr]
    | none => simp [Outcome.andThen_of_failure_eq_none hr]

/-- **Courses one after the other.**  The second finds the state and the fault of the first. -/
lemma IsCourse.andThen (h : IsCourse requests s r)
    (hfailure : r.failure = (answerAll s requests).failure) (next : Session → Running)
    (hidle : r.failure = none → r.state.finished = true → next r.state = .done r.state)
    (hnext : IsCourse more r.state (next r.state)) :
    IsCourse (requests ++ more) s (r.andThen next) := by
  have hcalls : begun s (requests ++ more)
      = begun s requests ++ if r.failure.isSome then [] else begun r.state more := by
    rw [begun_append, hfailure, h.state]
  have hloading : r.state.loading = s.loading := by
    rw [h.state]
    exact (frame_answerAll s requests).loading
  have hfinal :
      IsFinal (farewell.render ++ "\n") (begun s (requests ++ more)) s (r.andThen next) := by
    rw [hcalls]
    exact h.final.andThen next hloading (fun hr hfinished =>
      ⟨hidle hr hfinished, finished_of_mem_begun hfinished more⟩) hnext.final
  cases hr : r.failure with
  | some fault =>
    rw [Outcome.andThen_of_failure_eq_some hr] at hfinal ⊢
    have hall : answerAll s (requests ++ more) = answerAll s requests := by
      rw [answerAll_append, Outcome.andThen_of_failure_eq_some (hfailure ▸ hr)]
    exact ⟨hall ▸ h.state, hall ▸ h.shown, hfinal⟩
  | none =>
    have hall : answerAll s (requests ++ more)
        = { answerAll r.state more with
            output := (answerAll s requests).output ++ (answerAll r.state more).output } := by
      rw [answerAll_append, Outcome.andThen_of_failure_eq_none (hfailure ▸ hr), ← h.state]
    rw [Outcome.andThen_of_failure_eq_none hr] at hfinal ⊢
    refine ⟨by rw [hall]; exact hnext.state, ?_, hfinal⟩
    rw [hall, Shell.shown, List.map_append]
    exact h.shown.append hnext.shown

end

/-! ## Dialogues -/

namespace Shell

/-- **What a dialogue asks for**: the commands that the readings finish, up to the end of input. -/
def requests (a : Assembler) (lineNumber : Nat) : List Reading → List Session.Request
  | [] => []
  | .interrupt :: rest => requests a.reset lineNumber rest
  | .line text :: rest =>
    if text = "" then []
    else
      match a.feed (withoutNewlines text) (lineNumber + 1 : Nat) with
      | .error _ => []
      | .ok (commands, a) => commands.map requestOf ++ requests a (lineNumber + 1) rest

/-- What an exchange leaves in the session. -/
def settled (x : Exchange) : Running :=
  { state := x.state.session, output := x.output, failure := x.failure }

lemma settled_andThen (x : Exchange) (next : Shell → Exchange) :
    settled (x.andThen next)
      = (settled x).andThen fun s => settled (next { x.state with session := s }) := by
  obtain ⟨state, output, failure⟩ := x
  cases failure <;> rfl

lemma turn_of_isOver {shell : Shell} (h : shell.isOver = true) (reading : Reading) :
    shell.turn reading = .done shell := by
  rw [turn, if_pos h]

lemma turn_of_not_isOver {shell : Shell} (h : ¬ shell.isOver = true) (reading : Reading) :
    shell.turn reading
      = { shell.accept reading with output := shell.cue :: (shell.accept reading).output } := by
  rw [turn, if_neg h]
  exact Outcome.andThen_of_failure_eq_none rfl

lemma turns_of_isOver {shell : Shell} (h : shell.isOver = true) (readings : List Reading) :
    Outcome.forEach turn shell readings = .done shell := by
  induction readings with
  | nil => rfl
  | cons reading rest ih =>
    rw [Outcome.forEach, turn_of_isOver h, Outcome.done_andThen, ih]

/-- A line that is read: its commands are answered behind the cue. -/
lemma turn_line {shell : Shell} (h : ¬ shell.isOver = true) {text : String} (htext : text ≠ "")
    {commands : List NumberedCommand} {a : Assembler}
    (hfeed : shell.assembler.feed (withoutNewlines text) (shell.lineNumber + 1 : Nat)
      = .ok (commands, a))
    {reply : Reply} (hreply : answerAll shell.session (commands.map requestOf) = reply) :
    shell.turn (.line text)
      = { state := { shell with
            session := reply.state, assembler := a, lineNumber := shell.lineNumber + 1 }
          output := shell.cue :: shown reply.output
          failure := reply.failure } := by
  rw [answerAll_requestOf] at hreply
  rw [turn_of_not_isOver h, accept, if_neg htext, ← hreply]
  simp only [hfeed, run, watchAll_eq]
  rfl

lemma feed_eq_ok {a b : Assembler} (h : a.commentPrefix ≠ "") {line : String} {number : Int}
    {commands : List NumberedCommand} (hfeed : a.feed line number = .ok (commands, b)) :
    b.commentPrefix = a.commentPrefix := by
  rw [Assembler.feed, if_neg h] at hfeed
  cases hfeed
  rfl

/-- **A dialogue is the course of its requests**, by induction on the readings. -/
theorem isCourse_turns {shell : Shell} (hmarker : shell.assembler.commentPrefix ≠ "")
    (hended : shell.ended = false) (readings : List Reading) :
    IsCourse (requests shell.assembler shell.lineNumber readings) shell.session
      (settled (Outcome.forEach turn shell readings)) := by
  induction readings generalizing shell with
  | nil => exact isCourse_ofReply shell.session []
  | cons reading rest ih =>
    cases hfinished : shell.session.finished with
    | true =>
      have hover : shell.isOver = true := by simp [isOver, hfinished]
      rw [turns_of_isOver hover]
      exact isCourse_done hfinished _
    | false =>
      have hopen : ¬ shell.isOver = true := by simp [isOver, hfinished, hended]
      rw [Outcome.forEach]
      cases reading with
      | interrupt =>
        have hrest := @ih { shell with assembler := shell.assembler.reset } hmarker hended
        rw [turn_of_not_isOver hopen]
        exact hrest.shown_first [shell.cue, "\n"]
      | line text =>
        by_cases htext : text = ""
        · -- behind the end of input nothing is read
          rw [turn_of_not_isOver hopen, accept, requests, if_pos htext, if_pos htext,
            Outcome.andThen_of_failure_eq_none rfl, turns_of_isOver (by simp [isOver])]
          exact (isCourse_ofReply shell.session []).shown_first [shell.cue, "\n"]
        · rw [requests, if_neg htext]
          cases hfeed :
            shell.assembler.feed (withoutNewlines text) (shell.lineNumber + 1 : Nat) with
          | error e => simp [Assembler.feed, hmarker] at hfeed
          | ok fed =>
            obtain ⟨commands, a⟩ := fed
            obtain ⟨reply, hreply⟩ :
                ∃ reply, answerAll shell.session (commands.map requestOf) = reply := ⟨_, rfl⟩
            have hfirst := (isCourse_ofReply shell.session (commands.map requestOf)).shown_first
              [shell.cue]
            rw [hreply] at hfirst
            rw [turn_line hopen htext hfeed hreply, settled_andThen]
            refine hfirst.andThen (by rw [hreply]; rfl) _ (fun _ hover => ?_) ?_
            · have hover : Shell.isOver { shell with
                    session := reply.state, assembler := a, lineNumber := shell.lineNumber + 1 }
                  = true := Bool.or_eq_true_iff.2 (Or.inl hover)
              exact congrArg settled (turns_of_isOver hover rest)
            · exact @ih { shell with
                  session := reply.state, assembler := a, lineNumber := shell.lineNumber + 1 }
                (by rwa [feed_eq_ok hmarker hfeed]) hended

end Shell

end AutomatonShell
