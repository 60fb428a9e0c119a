import AutomatonShell.Proofs.Ending

/-!
# The events of a run

A run is told as one sequence of events: a command is begun, a message is said, a file is stored, a
log is opened or closed.  Everything that the outside world gets to see of a run is a view of this
sequence.  What is said is the answer (`Traces.output`); and the files and the log are what the
events make of them, one after the other (`Traces.journal`).

The events of a call are laid out by what it does: a call that replays a script has those of its
commands, and any other call has what its task stores before it speaks, what it says, and what it
does behind that.  Only EXIT has something to do behind: it closes the log when its farewell has
been said.

* `Event`, `Event.apply` — events, and what they do to the files and the log.
* `eventsAt` — the events of a call.
* `Logs` — a reply that writes nothing but what it says.
* **`traces_answerAt`** — the answer, the files and the log of a run are views of its events.
-/

namespace AutomatonShell.Session

/-! ## Events -/

/-- The files and the log. -/
structure Journal where
  workspace : Workspace
  log : LogSink

/-- The files and the log of a session. -/
def journal (s : Session) : Journal := ⟨s.workspace, s.log⟩

/-- What happens in a run. -/
inductive Event where
  /-- A command is begun; the line is what the log gets of it. -/
  | begun (line : String)
  /-- A message is said. -/
  | said (m : Message)
  /-- The file at a place gets a new content. -/
  | stored (place : Location) (content : List UInt8)
  /-- A log is opened, and its file emptied. -/
  | opened (path : Path) (place : Location) (codec : Text.Codec)
  /-- The log is closed. -/
  | closed

namespace Event

/-- **What an event does** to the files and the log. -/
def apply (j : Journal) : Event → Journal
  | begun line => ⟨(j.log.write j.workspace line).1, (j.log.write j.workspace line).2⟩
  | said m => ⟨(j.log.write j.workspace m.render).1, (j.log.write j.workspace m.render).2⟩
  | stored place content => { j with workspace := j.workspace.put place content }
  | opened path place codec =>
    ⟨j.workspace.put place [], { j.log with current := some { path, place, codec } }⟩
  | closed => { j with log := j.log.close }

/-- The message that is said. -/
def message? : Event → Option Message
  | said m => some m
  | _ => none

/-- The line of a command that is begun. -/
def begun? : Event → Option String
  | begun line => some line
  | _ => none

/-- The line that an open log gets. -/
def line? : Event → Option String
  | begun line => some line
  | said m => some m.render
  | _ => none

end Event

/-- The files and the log after some events. -/
def Journal.after (j : Journal) (events : List Event) : Journal := events.foldl Event.apply j

lemma Journal.after_append (j : Journal) (first second : List Event) :
    j.after (first ++ second) = (j.after first).after second := List.foldl_append

/-- What is said in a sequence of events. -/
def saidIn (events : List Event) : List Message := events.filterMap Event.message?

/-- The lines of the commands that are begun in a sequence of events. -/
def begunIn (events : List Event) : List String := events.filterMap Event.begun?

lemma saidIn_append (first second : List Event) :
    saidIn (first ++ second) = saidIn first ++ saidIn second := List.filterMap_append

lemma begunIn_append (first second : List Event) :
    begunIn (first ++ second) = begunIn first ++ begunIn second := List.filterMap_append

lemma saidIn_map_said (messages : List Message) : saidIn (messages.map .said) = messages := by
  rw [saidIn, List.filterMap_map]
  exact List.filterMap_some

lemma begunIn_map_said (messages : List Message) : begunIn (messages.map .said) = [] := by
  rw [begunIn, List.filterMap_map]
  exact List.filterMap_eq_nil_iff.2 fun m _ => rfl

/-- Events of which an open log gets no line. -/
def Silent (events : List Event) : Prop := ∀ e ∈ events, e.line? = none

lemma Silent.saidIn {events : List Event} (h : Silent events) : saidIn events = [] := by
  refine List.filterMap_eq_nil_iff.2 fun e he => ?_
  cases e <;> first | rfl | exact nomatch h _ he

lemma Silent.begunIn {events : List Event} (h : Silent events) : begunIn events = [] := by
  refine List.filterMap_eq_nil_iff.2 fun e he => ?_
  cases e <;> first | rfl | exact nomatch h _ he

/-! ## The events of a call -/

/-- **The line that the log gets of a command**: the prompt and the text, without the blanks around
it and without one semicolon at its end.  A blank text is no command, and nor is any text in a
session that has ended. -/
def Call.echo? (c : Call) : Option String :=
  match c.request with
  | .file _ => none
  | .command text _ =>
    if c.session.finished || (Text.words (trimCommand text.toList)).isEmpty then none
    else some (c.session.config.prompt ++ String.ofList (trimCommand text.toList))

/-- The events of a command that is begun. -/
def Call.begins (c : Call) : List Event := (c.echo?.map .begun).toList

/-- The events of a file that is created, emptied, and given a content. -/
def storing (w : Workspace) (path : String) (content : Option (List UInt8)) : List Event :=
  match w.create path with
  | .error _ => []
  | .ok (place, _) => .stored place [] :: (content.map (.stored place)).toList

/-- The events of a log that is opened.  The file is emptied also when the encoding is unknown. -/
def opening (w : Workspace) (codec? : Option Text.Codec) (path : String) : List Event :=
  match w.create ("/" ++ String.intercalate "/" (Location.ofText w.home path)) with
  | .error _ => []
  | .ok (place, _) =>
    match codec? with
    | none => [.stored place []]
    | some codec => [.opened (Path.ofString path) place codec]

/-- What PRINT stores: the listing, or what stands in front of the first line that cannot be
expressed. -/
def printed (s : Session) : Option (List UInt8) :=
  s.config.codec?.map fun codec => (codec.emit (s.automaton.listingText.map String.toList)).1

namespace Task

/-- **What a task stores before it speaks.** -/
def before (t : Task) : List Event :=
  match t.keyword, t.words with
  | .print, [file] =>
    storing t.session.workspace (t.session.target file) t.session.printed
  | .compile, [file] =>
    if t.session.config.isCompileTarget file then
      storing t.session.workspace (t.session.target file)
        (Snapshot.encode t.session.automaton t.session.config.library)
    else []
  | .log, [] => if t.session.log.active then [.closed] else []
  | .log, [file] =>
    .closed :: opening t.session.workspace t.session.log.codec? (t.session.target file)
  | _, _ => []

/-- What a task does when it has spoken. -/
def behind (t : Task) : List Event :=
  match t.keyword, t.words with
  | .exit, [] => [.closed]
  | _, _ => []

/-- The events of leaving a script. -/
def leaving (script : Script) (replayed : Reply) : List Event :=
  if replayed.failure.isSome then []
  else if replayed.state.finished || script.rest.pieces.isEmpty then []
  else
    [.said ((Diagnostic.unterminated script.file script.rest.pending).message
      (some script.length))]

end Task

/-- The events of the commands of a script, one after the other, until one stops early. -/
def followedEvents (process : Action) (events : Call → List Event) :
    Session → List NumberedCommand → List Event
  | _, [] => []
  | s, command :: rest =>
    let reply := process s command.2 (some command.1)
    events ⟨s, .command command.2 (some command.1)⟩ ++
      if reply.failure.isSome then [] else followedEvents process events reply.state rest

/-- **The events of a call.** -/
def eventsAt : (bound : Nat) → Call → List Event
  | 0, _ => []
  | bound + 1, c =>
    c.begins ++ match c.opened? with
      | some (t, script) =>
        followedEvents (processAt bound) (eventsAt bound) (t.enter script) script.commands ++
          Task.leaving script (processAll (processAt bound) (t.enter script) script.commands)
      | none =>
        (c.task?.elim [] Task.before) ++ (answerAt (bound + 1) c).output.map .said ++
          (c.task?.elim [] Task.behind)

/-! ## Replies that write what they say -/

/-- **A reply that writes nothing but what it says**, beginning with some files and some log. -/
structure Logs (j : Journal) (r : Reply) : Prop where
  journal : r.state.journal = j.after (r.output.map .said)

section

variable {s : Session} {j : Journal} {r : Reply}

lemma logs_done (h : s.journal = j) : Logs j (.done s) := ⟨h⟩

lemma logs_stop (h : s.journal = j) (fault : Fault) : Logs j (.stop s fault) := ⟨h⟩

lemma logs_say (h : s.journal = j) (line : Option Int) (d : Diagnostic) :
    Logs j (s.say line d) := by
  subst h
  exact ⟨rfl⟩

lemma Logs.andThen (h : Logs j r) (next : Session → Reply)
    (hnext : Logs r.state.journal (next r.state)) : Logs j (r.andThen next) := by
  cases hr : r.failure with
  | some fault => rwa [Outcome.andThen_of_failure_eq_some hr]
  | none =>
    rw [Outcome.andThen_of_failure_eq_none hr]
    refine ⟨?_⟩
    rw [List.map_append, Journal.after_append, ← h.journal]
    exact hnext.journal

lemma logs_sayAll (h : s.journal = j) (line : Option Int) (ds : List Diagnostic) :
    Logs j (s.sayAll line ds) := by
  subst h
  induction ds generalizing s with
  | nil => exact logs_done rfl
  | cons d rest ih => exact (logs_say rfl line d).andThen (fun t => t.sayAll line rest) ih

lemma logs_declare (s : Session) (line : Option Int) (d : Declaration) :
    Logs s.journal (s.declare line d) := by
  have hsaid : Logs s.journal (sayAll { s with automaton := d.state } line d.output) :=
    logs_sayAll (by rfl) line d.output
  refine hsaid.andThen _ ?_
  split
  · exact logs_done rfl
  · exact logs_stop rfl _

lemma logs_listAll (s : Session) (line : Option Int) : Logs s.journal (s.listAll line) := by
  rw [listAll]
  split
  · exact logs_say rfl line _
  · exact logs_sayAll rfl line _

/-- A brief answer writes nothing but what it says. -/
lemma Brief.logs {answers : Diagnostic → Prop} {line : Option Int} (h : Brief s line answers r)
    (hs : s.journal = j) : Logs j r := by
  cases h with
  | done => exact logs_done hs
  | say => exact logs_say hs line _
  | stop => exact logs_stop hs _

end

/-! ## Commands that write files -/

lemma create_eq_ok {w w' : Workspace} {path : String} {place : Location}
    (h : w.create path = .ok (place, w')) : w' = w.put place [] := by
  rw [Workspace.create] at h
  obtain ⟨found, -, h⟩ := bind_eq_ok.1 h
  split_ifs at h
  obtain ⟨rfl, rfl⟩ := Prod.mk.inj (Except.ok.inj h)
  rfl

/-- Lines that are written to a file. -/
lemma journal_writeText (w : Workspace) (log : LogSink) (encoding path : String)
    (lines : List String) (codec? : Option Text.Codec) :
    (⟨(w.writeText encoding path lines codec?).1, log⟩ : Journal)
      = (⟨w, log⟩ : Journal).after (storing w path
          (codec?.map fun codec => (codec.emit (lines.map String.toList)).1)) := by
  rw [Workspace.writeText, Workspace.createText, storing]
  cases hcreate : w.create path with
  | error e => rfl
  | ok created =>
    obtain ⟨place, w'⟩ := created
    obtain rfl := create_eq_ok hcreate
    cases codec? <;> rfl

/-- A snapshot that is written to a file. -/
lemma journal_saveSnapshot (w : Workspace) (log : LogSink) (a : Automaton) (path : String)
    (library : Snapshot.Library) :
    (⟨(w.saveSnapshot a path library).1, log⟩ : Journal)
      = (⟨w, log⟩ : Journal).after (storing w path (Snapshot.encode a library)) := by
  rw [Workspace.saveSnapshot, storing]
  cases hcreate : w.create path with
  | error e => rfl
  | ok created =>
    obtain ⟨place, w'⟩ := created
    obtain rfl := create_eq_ok hcreate
    cases Snapshot.encode a library <;> rfl

/-- A log that is opened. -/
lemma journal_openAt (w : Workspace) (log : LogSink) (path : String) :
    (⟨(log.openAt w path).1, (log.openAt w path).2.1⟩ : Journal)
      = (⟨w, log⟩ : Journal).after (.closed :: opening w log.codec? path) := by
  obtain ⟨encoding, codec?, current⟩ := log
  unfold LogSink.openAt LogSink.openAs opening
  dsimp only
  cases w.create ("/" ++ String.intercalate "/" (Location.ofText w.home path)) with
  | error e => rfl
  | ok created =>
    dsimp only [Except.map]
    cases codec? <;> rfl

lemma logs_print (s : Session) (file : String) (line : Option Int) :
    Logs (s.journal.after (storing s.workspace (s.target file) s.printed)) (s.print file line) :=
  (brief_print s file line).logs (journal_writeText s.workspace s.log s.config.encoding
    (s.target file) s.automaton.listingText s.config.codec?)

lemma logs_compile (s : Session) (file : String) (line : Option Int) :
    Logs (s.journal.after (if s.config.isCompileTarget file then
      storing s.workspace (s.target file) (Snapshot.encode s.automaton s.config.library) else []))
      (s.compile file line) := by
  refine (brief_compile s file line).logs ?_
  cases s.config.isCompileTarget file with
  | false => rfl
  | true =>
    exact journal_saveSnapshot s.workspace s.log s.automaton (s.target file) s.config.library

lemma logs_openLog (s : Session) (file : String) (line : Option Int) :
    Logs (s.journal.after (.closed :: opening s.workspace s.log.codec? (s.target file)))
      (s.openLog file line) := by
  have hopen := journal_openAt s.workspace s.log (s.target file)
  obtain ⟨opened, heq, hopened⟩ := brief_openLog s file line
  rw [heq] at hopen
  exact hopened.logs hopen

lemma logs_stopLog (s : Session) (line : Option Int) :
    Logs (s.journal.after (if s.log.active then [.closed] else [])) (s.stopLog line) := by
  refine (brief_stopLog s line).logs ?_
  split_ifs <;> rfl

/-! ## Tasks that replay no script -/

section

variable {t : Task} {c : Call} {s : Session} {script : Script} {bound : Nat}

/-- A LOAD that replays no script stores nothing. -/
lemma logs_load {file : String} (hscript : t.script? = none) (hfile : t.file? = some file)
    (process : Action) : Logs t.session.journal (load process t.session file t.line) := by
  obtain ⟨r, hr, hload⟩ := t.exists_unopened hfile hscript
  rw [hload]
  rcases hr.restore_or_brief with ⟨-, rfl⟩ | hbrief
  · exact (brief_restore t.session file t.line).logs rfl
  · exact hbrief.logs rfl

/-- A definition command stores nothing, and nor does a command with a wrong number of words. -/
lemma Task.before_eq_nil
    (h : t.keyword ∈ Keyword.definitions ∨ t.keyword.allows t.words.length = false) :
    t.before = [] := by
  rw [before]
  split <;> simp_all [Keyword.definitions, Keyword.allows]

/-- **What a task does that replays no script and is no EXIT**: it stores something, and then writes
what it says. -/
lemma Task.logs_run (hscript : t.script? = none) (hexit : ¬ t.IsExit) (process : Action) :
    Logs (t.session.journal.after t.before) (t.run (load process)) := by
  have hload : ∀ file, t.file? = some file →
      Logs t.session.journal (load process t.session file t.line) :=
    fun file hfile => logs_load hscript hfile process
  obtain ⟨s, keyword, words, body, line⟩ := t
  obtain ⟨handler, hhandles, hperform⟩ := exists_handles keyword words body
  rw [run, hperform]
  cases hhandles with dsimp only
  | define defines =>
    rw [before_eq_nil (Or.inl defines)]
    exact logs_declare s line _
  | arity rule refused =>
    rw [before_eq_nil (Or.inr refused)]
    exact logs_say rfl line _
  | listAll => exact logs_listAll s line
  | print file => exact logs_print s file line
  | execute text => exact (brief_execute s text line).logs rfl
  | compile file => exact logs_compile s file line
  | load file => exact hload file rfl
  | stopLog => exact logs_stopLog s line
  | openLog file => exact logs_openLog s file line
  | exit => exact absurd ⟨rfl, rfl⟩ hexit

end

/-! ## The course of events -/

section

variable {s : Session} {c : Call} {t : Task} {script : Script} {bound : Nat}

/-- **An answer, the files and the log as views of events.** -/
structure Traces (s : Session) (events : List Event) (r : Reply) : Prop where
  journal : r.state.journal = s.journal.after events
  output : r.output = saidIn events

lemma Traces.andThen {r : Reply} {first second : List Event} (h : Traces s first r)
    (next : Session → Reply) (hnext : Traces r.state second (next r.state)) :
    Traces s (first ++ if r.failure.isSome then [] else second) (r.andThen next) := by
  cases hr : r.failure with
  | some fault => simpa [Outcome.andThen_of_failure_eq_some hr] using h
  | none =>
    rw [Outcome.andThen_of_failure_eq_none hr]
    refine ⟨?_, ?_⟩
    · simpa [Journal.after_append, ← h.journal] using hnext.journal
    · simpa [saidIn_append, ← h.output] using hnext.output

lemma ofText?_eq_none_iff {text : List Char} :
    Command.ofText? text = none ↔ Text.words text = [] := by
  rw [Command.ofText?]
  split <;> simp_all

/-- A command is begun if it has a word. -/
lemma Call.echo?_eq (hopen : s.finished = false) (text : String) (line : Option Int) :
    echo? ⟨s, .command text line⟩ = (Command.ofText? (trimCommand text.toList)).map
      fun _ => s.config.prompt ++ String.ofList (trimCommand text.toList) := by
  rw [echo?, hopen]
  dsimp only
  rw [Bool.false_or]
  cases hcommand : Command.ofText? (trimCommand text.toList) with
  | none => exact if_pos (List.isEmpty_iff.2 (ofText?_eq_none_iff.1 hcommand))
  | some command =>
    refine if_neg fun hempty => ?_
    have hnone := ofText?_eq_none_iff.2 (List.isEmpty_iff.1 hempty)
    exact nomatch hcommand.symm.trans hnone

/-- A command that is begun is written to the log before anything else happens. -/
lemma Call.journal_of_task? (h : c.task? = some t) :
    t.session.journal = c.session.journal.after c.begins := by
  cases makes_of_task? h with
  | file => rfl
  | command running parsed =>
    rw [begins, echo?_eq running, parsed]
    rfl

lemma Logs.traces {r : Reply} {events : List Event} (h : Logs (s.journal.after events) r)
    (hsilent : saidIn events = []) : Traces s (events ++ r.output.map .said) r := by
  refine ⟨?_, ?_⟩
  · rw [Journal.after_append]
    exact h.journal
  · rw [saidIn_append, hsilent, saidIn_map_said, List.nil_append]

lemma journal_record (s : Session) (line : String) :
    (s.record line).journal = s.journal.after [.begun line] := rfl

/-- A call without a task: at most a command is begun whose first word is unknown. -/
lemma traces_of_task?_eq_none (h : c.task? = none) (bound : Nat) :
    Traces c.session (c.begins ++ (answerAt (bound + 1) c).output.map .said)
      (answerAt (bound + 1) c) := by
  cases Call.idle_of_task?_eq_none h with
  | @finished s request hfinished =>
    have hecho : Call.echo? ⟨s, request⟩ = none := by
      cases request <;> simp [Call.echo?, hfinished]
    rw [answerAt_of_finished hfinished, Call.begins, hecho]
    exact Logs.traces (logs_done rfl) rfl
  | blank running blank =>
    rw [answerAt_of_blank blank, Call.begins, Call.echo?_eq running, blank]
    exact Logs.traces (logs_done rfl) rfl
  | unknown running parsed unknown =>
    rw [answerAt_of_unknown running parsed unknown, Call.begins, Call.echo?_eq running, parsed]
    exact Logs.traces (logs_say (journal_record _ _) _ _) rfl

/-- Nothing is said before a task speaks. -/
lemma silent_before (t : Task) : Silent t.before := by
  have hstoring : ∀ w path content, Silent (storing w path content) := by
    intro w path content
    rw [storing]
    split
    · simp [Silent]
    · cases content <;> simp [Silent, Event.line?]
  have hopening : ∀ w codec? path, Silent (.closed :: opening w codec? path) := by
    intro w codec? path
    rw [opening]
    split
    · simp [Silent, Event.line?]
    · split <;> simp [Silent, Event.line?]
  rw [Task.before]
  split
  · exact hstoring _ _ _
  · split_ifs
    · exact hstoring _ _ _
    · simp [Silent]
  · split_ifs <;> simp [Silent, Event.line?]
  · exact hopening _ _ _
  · simp [Silent]

lemma silent_behind (t : Task) : Silent t.behind := by
  rw [Task.behind]
  split <;> simp [Silent, Event.line?]

lemma begunIn_begins (c : Call) : begunIn c.begins = c.echo?.toList := by
  rw [Call.begins]
  cases c.echo? <;> rfl

lemma saidIn_begins (c : Call) : saidIn c.begins = [] := by
  rw [Call.begins]
  cases c.echo? <;> rfl

lemma Task.behind_of_not_isExit (h : ¬ t.IsExit) : t.behind = [] := by
  rw [behind]
  split
  · exact absurd ⟨‹_›, ‹_›⟩ h
  · rfl

/-- A call with a task that replays no script. -/
lemma traces_of_script?_eq_none (ht : c.task? = some t) (hscript : t.script? = none) (bound : Nat) :
    Traces c.session
      (c.begins ++ (t.before ++ (answerAt (bound + 1) c).output.map .said ++ t.behind))
      (answerAt (bound + 1) c) := by
  rw [answerAt_of_task? ht]
  by_cases hexit : t.IsExit
  · rw [Task.run_of_isExit hexit]
    obtain ⟨s, keyword, words, body, line⟩ := t
    obtain ⟨rfl, rfl⟩ : keyword = .exit ∧ words = [] := hexit
    refine ⟨?_, ?_⟩
    · rw [Journal.after_append, ← Call.journal_of_task? ht]
      rfl
    · rw [saidIn_append, saidIn_begins]
      rfl
  · have hlogs := Task.logs_run hscript hexit (processAt bound)
    rw [Call.journal_of_task? ht, ← Journal.after_append] at hlogs
    rw [Task.behind_of_not_isExit hexit, List.append_nil, ← List.append_assoc]
    refine hlogs.traces ?_
    rw [saidIn_append, saidIn_begins, (silent_before t).saidIn, List.append_nil]

/-- Leaving a script. -/
lemma traces_leave {replayed : Reply} {events : List Event} (h : Traces s events replayed)
    (t : Task) (script : Script) :
    Traces s (events ++ Task.leaving script replayed) (t.leave script replayed) := by
  obtain ⟨state, output, failure⟩ := replayed
  have hsame : Traces s events ⟨{ state with loading := t.session.loading }, output, failure⟩ :=
    ⟨h.journal, h.output⟩
  refine hsame.andThen _ ?_
  dsimp only
  split_ifs
  · exact ⟨rfl, rfl⟩
  · exact ⟨rfl, rfl⟩

lemma traces_processAll
    (h : ∀ c, Traces c.session (eventsAt bound c) (answerAt bound c)) (s : Session)
    (commands : List NumberedCommand) :
    Traces s (followedEvents (processAt bound) (eventsAt bound) s commands)
      (processAll (processAt bound) s commands) := by
  induction commands generalizing s with
  | nil => exact ⟨rfl, rfl⟩
  | cons command rest ih =>
    have hfirst := h ⟨s, .command command.2 (some command.1)⟩
    rw [← processAt_eq] at hfirst
    exact hfirst.andThen (fun s => processAll (processAt bound) s rest) (ih _)

/-- **The answer, the files and the log of a run are views of its events**, by induction on the
bound on nesting. -/
theorem traces_answerAt (bound : Nat) (c : Call) :
    Traces c.session (eventsAt bound c) (answerAt bound c) := by
  induction bound generalizing c with
  | zero => exact ⟨rfl, rfl⟩
  | succ bound ih =>
    cases hopened : c.opened? with
    | some opened =>
      obtain ⟨t, script⟩ := opened
      obtain ⟨ht, -⟩ := Call.opened?_eq_some.1 hopened
      have hleave := traces_leave (traces_processAll ih (t.enter script) script.commands) t script
      rw [answerAt_of_opened? hopened, eventsAt, hopened]
      refine ⟨?_, ?_⟩
      · rw [Journal.after_append, ← Call.journal_of_task? ht]
        exact hleave.journal
      · rw [saidIn_append, saidIn_begins, List.nil_append]
        exact hleave.output
    | none =>
      rw [eventsAt, hopened]
      cases ht : c.task? with
      | none => simpa using traces_of_task?_eq_none ht bound
      | some t =>
        have hscript : t.script? = none := by simpa [Call.opened?, ht] using hopened
        exact traces_of_script?_eq_none ht hscript bound

end

end AutomatonShell.Session
