import AutomatonShell.CommandLine.Run
import AutomatonShell.Proofs.Events
import AutomatonShell.Proofs.Nesting

/-!
# The recording of a run

The calls of a run and its events are two tellings of the same course.  Every call has a stretch of
the events for its own (`Tells`): what is said in the stretch is its answer, and the commands that
begin in front of the stretch are those of the calls before it.  This holds at every depth of
nesting, and carries over to runs of requests.

What an open log holds can then be read off the events.  A log that is opened is empty, and its own
place in the file is the end of it.  Every line goes there, and this stays so as long as nobody else
writes the file (`Records`).  What stands there is what the codec makes of the lines one by one; it
is the text of the lines if the codec does not show where one line ends and the next one begins.

* `Step`, `callsOf`, `eventsOf` — runs of requests, between which the log may be closed.
* **`tells_eventsOf`** — the calls of a run and its events.
* `Event.Spares` — the events that leave the file of a log alone.
* **`Records.after`** — what an open log holds.
* **`three_views`** — the answers, the output and the log of a run.
* `exists_log_with_seams` — a log that is not the text of its lines.
-/

namespace AutomatonShell.Session

/-! ## Calls and events -/

section

variable {bound : Nat} {s t : Session} {c : Call} {events first second : List Event}
  {calls calls' : List Call}

/-- **Calls told by events.**  The commands that begin in the events are those of the calls.  Each
call has a stretch of the events: those in front of it make the files and the log that the call
finds, and its own are those of the call under the bound that is left at its depth. -/
structure Tells (bound : Nat) (s : Session) (events : List Event) (calls : List Call) : Prop where
  begun : begunIn events = calls.filterMap Call.echo?
  stretch : ∀ front d back, calls = front ++ d :: back → ∃ inner before behind,
    inner + 1 + d.session.loading.length = bound + s.loading.length ∧
      events = before ++ (eventsAt (inner + 1) d ++ behind) ∧
      begunIn before = front.filterMap Call.echo? ∧
      d.session.journal = s.journal.after before

lemma tells_nil (h : begunIn events = []) : Tells bound s events [] :=
  ⟨h, fun front d back hcalls => by simp at hcalls⟩

/-- Runs one after the other. -/
lemma Tells.append (h : Tells bound s first calls) (h' : Tells bound t second calls')
    (hjournal : t.journal = s.journal.after first) (hloading : t.loading = s.loading) :
    Tells bound s (first ++ second) (calls ++ calls') := by
  refine ⟨by rw [begunIn_append, h.begun, h'.begun, List.filterMap_append], ?_⟩
  intro front d back hcalls
  rcases append_eq_append_cons hcalls with ⟨rest, hfirst, -⟩ | ⟨front', rfl, hsecond⟩
  · obtain ⟨inner, before, behind, hinner, rfl, hbegun, hd⟩ := h.stretch front d rest hfirst
    exact ⟨inner, before, behind ++ second, hinner, by simp, hbegun, hd⟩
  · obtain ⟨inner, before, behind, hinner, rfl, hbegun, hd⟩ := h'.stretch front' d back hsecond
    refine ⟨inner, first ++ before, behind, hloading ▸ hinner, by simp, ?_, ?_⟩
    · rw [begunIn_append, h.begun, hbegun, List.filterMap_append]
    · rw [hd, hjournal, Journal.after_append]

/-- The commands of a script. -/
lemma tells_followed (h : ∀ c, Tells bound c.session (eventsAt bound c) (begunAt bound c))
    (s : Session) (commands : List NumberedCommand) :
    Tells bound s (followedEvents (processAt bound) (eventsAt bound) s commands)
      (followed (processAt bound) (begunAt bound) s commands) := by
  induction commands generalizing s with
  | nil => exact tells_nil rfl
  | cons command rest ih =>
    have hfirst := h ⟨s, .command command.2 (some command.1)⟩
    have hjournal := (traces_answerAt bound ⟨s, .command command.2 (some command.1)⟩).journal
    rw [← processAt_eq] at hjournal
    rw [followedEvents, followed]
    split_ifs
    · simpa using hfirst
    · exact hfirst.append (ih _) hjournal (frame_processAt bound _ _ _).1.loading

lemma begunIn_leaving (script : Script) (replayed : Reply) :
    begunIn (Task.leaving script replayed) = [] := by
  rw [Task.leaving]
  split_ifs <;> rfl

/-- A call that replays no script begins at most its own command. -/
lemma begunIn_eventsAt_of_opened?_eq_none (h : c.opened? = none) (bound : Nat) :
    begunIn (eventsAt (bound + 1) c) = c.echo?.toList := by
  have hbefore : begunIn (c.task?.elim [] Task.before) = [] := by
    cases c.task? with
    | none => rfl
    | some t => exact (silent_before t).begunIn
  have hbehind : begunIn (c.task?.elim [] Task.behind) = [] := by
    cases c.task? with
    | none => rfl
    | some t => exact (silent_behind t).begunIn
  rw [eventsAt, h]
  simp [begunIn_append, begunIn_begins, begunIn_map_said, hbefore, hbehind]

/-- **The calls of a request are told by its events**, by induction on the bound on nesting. -/
theorem tells_eventsAt (bound : Nat) (c : Call) :
    Tells bound c.session (eventsAt bound c) (begunAt bound c) := by
  induction bound generalizing c with
  | zero => exact tells_nil rfl
  | succ bound ih =>
    cases hopened : c.opened? with
    | none =>
      rw [begunAt_of_opened?_eq_none hopened]
      refine ⟨?_, fun front d back hcalls => ?_⟩
      · rw [begunIn_eventsAt_of_opened?_eq_none hopened]
        cases hecho : c.echo? <;> simp [hecho]
      · obtain ⟨rfl, rfl, rfl⟩ : front = [] ∧ d = c ∧ back = [] := by
          simpa [List.append_eq_cons_iff] using hcalls.symm
        exact ⟨bound, [], [], rfl, by simp, rfl, rfl⟩
    | some opened =>
      obtain ⟨t, script⟩ := opened
      obtain ⟨ht, -⟩ := Call.opened?_eq_some.1 hopened
      have hscript := tells_followed ih (t.enter script) script.commands
      have hevents : eventsAt (bound + 1) c = c.begins ++
          (followedEvents (processAt bound) (eventsAt bound) (t.enter script) script.commands ++
            Task.leaving script
              (processAll (processAt bound) (t.enter script) script.commands)) := by
        rw [eventsAt, hopened]
      rw [begunAt_of_opened? hopened]
      refine ⟨?_, fun front d back hcalls => ?_⟩
      · rw [hevents, begunIn_append, begunIn_append, begunIn_leaving, hscript.begun, begunIn_begins]
        cases hecho : c.echo? <;> simp [hecho]
      · rcases front with _ | ⟨e, front⟩
        · obtain ⟨rfl, -⟩ := List.cons.inj hcalls
          exact ⟨bound, [], [], rfl, by simp, rfl, rfl⟩
        · obtain ⟨rfl, hrest⟩ := List.cons.inj hcalls
          obtain ⟨inner, before, behind, hinner, hfollowed, hbegun, hd⟩ :=
            hscript.stretch front d back hrest
          have hdepth : (t.enter script).loading.length = c.session.loading.length + 1 := by
            rw [Task.enter, (Call.frame_of_task? ht).loading]
            simp
          refine ⟨inner, c.begins ++ before, behind ++ Task.leaving script
            (processAll (processAt bound) (t.enter script) script.commands), by omega, ?_, ?_, ?_⟩
          · rw [hevents, hfollowed]
            simp only [List.append_assoc]
          · rw [begunIn_append, begunIn_begins, hbegun]
            cases hecho : c.echo? <;> simp [hecho]
          · rw [hd, Journal.after_append, ← Call.journal_of_task? ht]
            rfl

end

/-! ## Runs of requests -/

/-- What happens to a session: it is asked for something, or its log is closed. -/
inductive Step where
  | ask (request : Request)
  | close

/-- What a step leaves. -/
def Step.apply (s : Session) : Step → Session
  | ask request => (s.answer request).state
  | close => s.closeLog

/-- The calls of a step. -/
def Step.calls (s : Session) : Step → List Call
  | ask request => begunAt (maxNesting + 1) ⟨s, request⟩
  | close => []

/-- The events of a step. -/
def Step.events (s : Session) : Step → List Event
  | ask request => eventsAt (maxNesting + 1) ⟨s, request⟩
  | close => [.closed]

/-- What steps leave. -/
def after (s : Session) (steps : List Step) : Session := steps.foldl Step.apply s

/-- **The calls of a run**, those that scripts make among them. -/
def callsOf : Session → List Step → List Call
  | _, [] => []
  | s, step :: rest => step.calls s ++ callsOf (step.apply s) rest

/-- **The events of a run.** -/
def eventsOf : Session → List Step → List Event
  | _, [] => []
  | s, step :: rest => step.events s ++ eventsOf (step.apply s) rest

section

variable {s : Session} {step : Step}

lemma Step.journal_apply (s : Session) (step : Step) :
    (step.apply s).journal = s.journal.after (step.events s) := by
  cases step with
  | ask request =>
    rw [apply, ← answerAt_maxNesting]
    exact (traces_answerAt (maxNesting + 1) ⟨s, request⟩).journal
  | close => rfl

lemma Step.frame_apply (s : Session) (step : Step) : Frame s (step.apply s) := by
  cases step with
  | ask request =>
    rw [apply, ← answerAt_maxNesting]
    exact frame_answerAt (maxNesting + 1) ⟨s, request⟩
  | close => exact ⟨rfl, rfl, rfl⟩

lemma Step.tells_events (s : Session) (step : Step) :
    Tells (maxNesting + 1) s (step.events s) (step.calls s) := by
  cases step with
  | ask request => exact tells_eventsAt (maxNesting + 1) ⟨s, request⟩
  | close => exact tells_nil rfl

/-- **The files and the log of a run** are those that its events make. -/
theorem journal_after (s : Session) (steps : List Step) :
    (after s steps).journal = s.journal.after (eventsOf s steps) := by
  induction steps generalizing s with
  | nil => rfl
  | cons step rest ih =>
    rw [eventsOf, Journal.after_append, ← Step.journal_apply]
    exact ih (step.apply s)

/-- **The calls of a run are told by its events.** -/
theorem tells_eventsOf (s : Session) (steps : List Step) :
    Tells (maxNesting + 1) s (eventsOf s steps) (callsOf s steps) := by
  induction steps generalizing s with
  | nil => exact tells_nil rfl
  | cons step rest ih =>
    exact (step.tells_events s).append (ih (step.apply s)) (step.journal_apply s)
      (step.frame_apply s).loading

end

/-! ## What a log holds -/

/-- The lines that an open log gets. -/
def linesIn (events : List Event) : List String := events.filterMap Event.line?

lemma linesIn_eq (events : List Event) :
    linesIn events = (events.map Event.line?).filterMap id := by
  rw [List.filterMap_map]
  rfl

/-- An event that leaves the log open, and its file to it. -/
def Event.Spares (place : Location) : Event → Prop
  | begun _ | said _ => True
  | stored other _ => other ≠ place
  | opened .. | closed => False

lemma Event.spares_of_line? {e : Event} {line : String} (h : e.line? = some line)
    {place : Location} : e.Spares place := by
  cases e with
  | begun | said => trivial
  | stored | opened | closed => cases h

/-- **A log that is open and holds some lines**, behind which the next one goes. -/
structure Records (j : Journal) (place : Location) (codec : Text.Codec) (lines : List String) :
    Prop where
  current : ∃ path, j.log.current = some (OpenLog.handed { path, place, codec } lines)
  content : j.workspace.get? place = some (logged codec lines)

section

variable {j : Journal} {place : Location} {codec : Text.Codec} {lines : List String}

/-- A line goes behind what the log holds. -/
lemma Records.write (h : Records j place codec lines) (line : String) :
    Records (Event.apply j (.begun line)) place codec (lines ++ [line]) := by
  obtain ⟨⟨path, hcurrent⟩, hcontent⟩ := h
  have hall : logged codec (lines ++ [line])
      = logged codec lines ++ (OpenLog.handed { path, place, codec } lines).added [line] :=
    OpenLog.added_append { path, place, codec } lines [line]
  rw [Event.apply, LogSink.write_of_current hcurrent, OpenLog.handed_append]
  refine ⟨⟨path, rfl⟩, ?_⟩
  dsimp only
  rw [hall]
  by_cases hnone : (OpenLog.handed { path, place, codec } lines).added [line] = []
  · rw [OpenLog.putInto_of_isEmpty hnone, hcontent, hnone, List.append_nil]
  · have hend : (OpenLog.handed { path, place, codec } lines).position
        = (logged codec lines).length := Nat.zero_add _
    rw [OpenLog.putInto_of_ne_nil hnone, hend]
    simp only [OpenLog.handed, hcontent, Option.getD_some, LogSink.overwrite_length,
      Workspace.get?_put_self]

/-- **One event that spares the file of an open log.** -/
lemma Records.apply (h : Records j place codec lines) {e : Event} (he : e.Spares place) :
    Records (e.apply j) place codec (lines ++ linesIn [e]) := by
  cases e with
  | begun line => exact h.write line
  | said m => exact h.write m.render
  | stored other bytes =>
    have hnone : linesIn [.stored other bytes] = [] := rfl
    rw [hnone, List.append_nil]
    exact ⟨h.current, (Workspace.get?_put_of_ne _ bytes (Ne.symm he)).trans h.content⟩
  | opened path other codec => exact he.elim
  | closed => exact he.elim

/-- **What an open log holds** after events that spare its file, by induction on the events. -/
theorem Records.after (h : Records j place codec lines) {events : List Event}
    (hevents : ∀ e ∈ events, e.Spares place) :
    Records (j.after events) place codec (lines ++ linesIn events) := by
  induction events generalizing j lines with
  | nil => simpa [linesIn, Journal.after] using h
  | cons e rest ih =>
    rw [List.forall_mem_cons] at hevents
    have hrest := ih (h.apply hevents.1) hevents.2
    rw [List.append_assoc, linesIn, linesIn, ← List.filterMap_append] at hrest
    exact hrest

/-- A log that is opened holds nothing. -/
lemma records_opened (j : Journal) (path : Path) (place : Location) (codec : Text.Codec) :
    Records (Event.apply j (.opened path place codec)) place codec [] :=
  ⟨⟨path, rfl⟩, Workspace.get?_put_self _ _ _⟩

end

/-! ## Opening a log -/

section

variable {t : Task} {d : Call} {file : String} {bound : Nat}

/-- **A call opens a log**: it is a LOG of a file, and has nothing to say about it. -/
structure Call.OpensLog (d : Call) (bound : Nat) (t : Task) (file : String) : Prop where
  task : d.task? = some t
  keyword : t.keyword = .log
  words : t.words = [file]
  failure : (answerAt bound d).failure = none
  output : (answerAt bound d).output = []

lemma opening_of_openLog {s : Session} {line : Option Int}
    (hfailure : (s.openLog file line).failure = none)
    (houtput : (s.openLog file line).output = []) :
    ∃ path place codec, s.log.codec? = some codec ∧
      opening s.workspace s.log.codec? (s.target file) = [.opened path place codec] := by
  unfold openLog LogSink.openAt LogSink.openAs at hfailure houtput
  dsimp only at hfailure houtput
  rw [opening]
  generalize s.workspace.create
    ("/" ++ String.intercalate "/" (Location.ofText s.workspace.home (s.target file))) = created
    at hfailure houtput
  cases created with
  | error e =>
    cases e with
    | nulInName => exact absurd hfailure (Option.some_ne_none _)
    | _ => exact absurd houtput (List.cons_ne_nil _ _)
  | ok created =>
    cases hcodec : s.log.codec? with
    | none =>
      simp only [Except.map, hcodec] at hfailure
      exact absurd hfailure (Option.some_ne_none _)
    | some codec => exact ⟨_, created.1, codec, rfl, rfl⟩

/-- The events of a call that opens a log. -/
lemma Call.OpensLog.eventsAt (h : d.OpensLog (bound + 1) t file) :
    ∃ path place codec, t.session.log.codec? = some codec ∧
      opening t.session.workspace t.session.log.codec? (t.session.target file)
        = [.opened path place codec] ∧
      eventsAt (bound + 1) d = d.begins ++ [.closed, .opened path place codec] := by
  obtain ⟨ht, hkeyword, hwords, hfailure, houtput⟩ := h
  have hanswer : answerAt (bound + 1) d = t.session.openLog file t.line := by
    rw [answerAt_of_task? ht, Task.run, hkeyword, hwords]
    rfl
  obtain ⟨path, place, codec, hcodec, hopening⟩ :=
    opening_of_openLog (hanswer ▸ hfailure) (hanswer ▸ houtput)
  have hscript : d.opened? = none := by
    rw [opened?, ht, Option.bind_some, Task.script?, Task.file?, hkeyword]
    rfl
  have hbefore : t.before = [.closed, .opened path place codec] := by
    rw [Task.before, hkeyword, hwords]
    dsimp only
    rw [hopening]
  have hbehind : t.behind = [] := by
    rw [Task.behind, hkeyword]
  refine ⟨path, place, codec, hcodec, hopening, ?_⟩
  rw [Session.eventsAt, hscript, houtput, ht]
  simp [hbefore, hbehind]

end

lemma codec?_after (j : Journal) (events : List Event) :
    (j.after events).log.codec? = j.log.codec? := by
  induction events generalizing j with
  | nil => rfl
  | cons e rest ih =>
    refine (ih (e.apply j)).trans ?_
    cases e with
    | begun line => exact congrArg (·.codec?) (close_write j.log j.workspace line)
    | said m => exact congrArg (·.codec?) (close_write j.log j.workspace m.render)
    | stored place content => rfl
    | opened path place codec => rfl
    | closed => rfl

/-! ## The result -/

/-- **The answers, the output and the log of a run are views of one sequence of events**, whatever
is asked of a session and whenever its log is closed.

Each call of the run, at any depth of nesting, has a stretch of the events.  Made to a session at
work, whatever was sent and collected before, it answers with the messages that are said in the
stretch; their renderings are sent to the output, and every collector gets all of them once.  If the
call opens a log, then until the log is closed its file holds a line for each command that is begun
and each message that is said behind the stretch, in the order of the events and but for those that
the encoding cannot express.  The file is the text of these lines if the codec is seamless, as those
of UTF-8, Latin-1 and ASCII are. -/
theorem three_views {s : Session} (hs : s.Reachable) (steps : List Step) :
    (after s steps).journal = s.journal.after (eventsOf s steps) ∧
      begunIn (eventsOf s steps) = (callsOf s steps).filterMap Call.echo? ∧
      (∀ code, (Text.Codec.ofEncoding code).IsSeamless) ∧
      ∀ front d back, callsOf s steps = front ++ d :: back →
        ∃ bound before behind, bound + d.session.loading.length = maxNesting + 1 ∧
          eventsOf s steps = before ++ (eventsAt bound d ++ behind) ∧
          begunIn before = front.filterMap Call.echo? ∧
          d.session.journal = s.journal.after before ∧
          (answerAt bound d).state.journal = s.journal.after (before ++ eventsAt bound d) ∧
          (answerAt bound d).output = saidIn (eventsAt bound d) ∧
          (∀ i : Interpreter, i.session = d.session →
            (callAt bound d.request i).output = saidIn (eventsAt bound d) ∧
            (callAt bound d.request i).failure = (answerAt bound d).failure ∧
            (callAt bound d.request i).state =
              { session := (answerAt bound d).state
                sent := i.sent ++ (saidIn (eventsAt bound d)).map Message.render
                collectors := i.collectors.map (· ++ saidIn (eventsAt bound d)) }) ∧
          ∀ t file, d.OpensLog bound t file → ∃ path place codec,
            s.config.codec? = some codec ∧
              opening t.session.workspace s.config.codec? (t.session.target file)
                = [.opened path place codec] ∧
              eventsAt bound d = d.begins ++ [.closed, .opened path place codec] ∧
              begunIn behind = back.filterMap Call.echo? ∧
              ∀ during rest, behind = during ++ rest → (∀ e ∈ during, e.Spares place) →
                (s.journal.after (before ++ (eventsAt bound d ++ during))).workspace.get? place
                    = some (logged codec (linesIn during)) ∧
                  (codec.IsSeamless → codec.IsText (logged codec (linesIn during))
                    (codec.expressed ((linesIn during).map LogSink.pieceOf)).flatten) := by
  have htells := tells_eventsOf s steps
  obtain ⟨hloading, -, -⟩ := hs.settled
  refine ⟨journal_after s steps, htells.begun, Text.Codec.isSeamless_ofEncoding,
    fun front d back hcalls => ?_⟩
  obtain ⟨inner, before, behind, hinner, hevents, hbegun, hd⟩ := htells.stretch front d back hcalls
  have htraces := traces_answerAt (inner + 1) d
  refine ⟨inner + 1, before, behind, by simpa [hloading] using hinner, hevents, hbegun, hd, ?_,
    htraces.output, fun i hi => ?_, fun t file hopens => ?_⟩
  · rw [Journal.after_append, ← hd]
    exact htraces.journal
  · rw [callAt_eq, hi, ← htraces.output]
    exact ⟨rfl, rfl, by rw [Interpreter.answering, Interpreter.relay_eq]⟩
  · obtain ⟨path, place, codec, hcodec, hopening, hstretch⟩ := hopens.eventsAt
    have hsame : t.session.log.codec? = s.config.codec? := by
      rw [(Call.frame_of_task? hopens.task).codec?, ← hs.codec?_log]
      exact (congrArg (·.log.codec?) hd).trans (codec?_after s.journal before)
    rw [hsame] at hcodec hopening
    refine ⟨path, place, codec, hcodec, hopening, hstretch, ?_,
      fun during rest hbehind hspares => ?_⟩
    · -- the commands in front of the opening are those of the calls up to this one
      have hall := htells.begun
      have hopened : begunIn [.closed, .opened path place codec] = [] := rfl
      rw [hevents, hcalls, hstretch] at hall
      simp only [begunIn_append, begunIn_begins, List.filterMap_append, hbegun, hopened,
        List.append_nil, List.append_cancel_left_eq] at hall
      cases hecho : d.echo? <;> simpa [hecho] using hall
    · have hopened :=
        records_opened (s.journal.after (before ++ d.begins ++ [.closed])) path place codec
      have hholds := (hopened.after hspares).content
      rw [List.nil_append] at hholds
      refine ⟨?_, fun hseamless => hseamless _⟩
      rw [hstretch, ← hholds]
      simp [Journal.after]

/-- A log that a script opens, in an encoding that lacks a letter.  The script replays another one
and ends in the middle of a command, and the log is closed by an EXIT behind it. -/
theorem three_views_of_nested :
    let bytes := fun text : String => text.toList.map fun c => UInt8.ofNat c.toNat
    let s := Session.start { Config.standard with encoding := "ascii" }
      { home := ["w"]
        files := [(["w", "a"], bytes "LOG l; LOAD b; STATES"),
          (["w", "b"], bytes "STATES q;")] }
    let steps : List Step :=
      [.ask (.command "LOAD a" none), .ask (.command "STATES é;" none), .ask (.command "EXIT" none)]
    (∃ d before behind, (callsOf s steps)[1]? = some d ∧
        eventsOf s steps = before ++ (eventsAt maxNesting d ++ behind) ∧
        begunIn before = ["? LOAD a"] ∧
        begunIn behind = ["? LOAD b", "? STATES q", "? STATES é", "? EXIT"] ∧
        ∀ during rest, behind = during ++ rest → (∀ e ∈ during, e.Spares ["w", "l"]) →
          (s.journal.after (before ++ (eventsAt maxNesting d ++ during))).workspace.get? ["w", "l"]
            = some (logged (.ofEncoding .ascii) (linesIn during))) ∧
      (after s steps).workspace.get? ["w", "l"] = some (logged (.ofEncoding .ascii)
        ["? LOAD b", "? STATES q",
          "Warning (line 1): unterminated command at end of a: \"STATES\"",
          "? EXIT", "TERMINATED BY USER"]) := by
  intro bytes s steps
  have hs : s.Reachable := .start (validate_encoding "ascii") _
  refine ⟨?_, by decide +kernel⟩
  have hcodec : s.config.codec? = some (.ofEncoding .ascii) :=
    Text.Codec.ofName?_of_encoding (by decide +kernel)
  have hfound : ((callsOf s steps)[1]?.any fun d => d.session.loading.length == 1 &&
      (answerAt maxNesting d).failure == none && (answerAt maxNesting d).output == [] &&
      d.task?.any fun t => t.keyword == .log && t.words == ["l"] &&
        (opening t.session.workspace s.config.codec? (t.session.target "l")).any fun
          | .opened _ place _ => place == ["w", "l"]
          | _ => false) = true := by decide +kernel
  obtain ⟨d, hd, hfound⟩ := (Option.any_eq_true _ _).1 hfound
  simp only [Bool.and_eq_true, beq_iff_eq, Option.any_eq_true] at hfound
  obtain ⟨⟨⟨hdepth, hfailure⟩, houtput⟩, t, ht, ⟨hkeyword, hwords⟩, hopening⟩ := hfound
  obtain ⟨hlt, hget⟩ := List.getElem?_eq_some_iff.1 hd
  have hcalls : callsOf s steps = (callsOf s steps).take 1 ++ d :: (callsOf s steps).drop 2 := by
    rw [← hget, ← List.drop_eq_getElem_cons hlt, List.take_append_drop]
  obtain ⟨-, -, -, hviews⟩ := three_views hs steps
  obtain ⟨bound, before, behind, hbound, hevents, hbegun, -, -, -, -, hlog⟩ := hviews _ d _ hcalls
  obtain rfl : bound = maxNesting := by omega
  obtain ⟨path, place, codec, hknown, hplace, -, hbehind, hcontent⟩ :=
    hlog t "l" ⟨ht, hkeyword, hwords, hfailure, houtput⟩
  obtain rfl := Option.some.inj (hknown.symm.trans hcodec)
  obtain rfl : place = ["w", "l"] := by simpa [hplace] using hopening
  exact ⟨d, before, behind, hd, hevents, hbegun.trans (by decide +kernel),
    hbehind.trans (by decide +kernel),
    fun during rest h hspares => (hcontent during rest h hspares).1⟩

/-- **A log that is not the text of its lines.**  Each line is one piece to the codec, and Punycode
puts a hyphen behind every piece. -/
theorem exists_log_with_seams :
    let s := Session.start { Config.standard with encoding := "punycode" } { home := ["w"] }
    let steps : List Step :=
      [.ask (.command "LOG l" none), .ask (.command "STATES a" none),
        .ask (.command "STATES b" none), .ask (.command "LOG" none)]
    let lines := ["? STATES a", "? STATES b", "? LOG"]
    s.Reachable ∧ linesIn (((eventsOf s steps).drop 3).takeWhile (·.line?.isSome)) = lines ∧
      (after s steps).workspace.get? ["w", "l"]
        = some (("? STATES a\n-? STATES b\n-? LOG\n-").toList.map fun c => UInt8.ofNat c.toNat) ∧
      (after s steps).workspace.get? ["w", "l"]
        ≠ some (Text.Punycode.encode (lines.map LogSink.pieceOf).flatten) := by
  intro s steps lines
  exact ⟨.start (validate_encoding "punycode") _, by decide +kernel, by decide +kernel,
    by decide +kernel⟩

end AutomatonShell.Session
