import AutomatonShell.Proofs.Framing

/-!
# The course of a run

What happens between a request and its answer.  Commands make tasks, a LOAD is a task that may
replay a script, and a script is more commands, so a run is a tree of calls.  Here it is laid out as
a list, each call in the session that it finds.

* `Call`, `Call.task?` — a request, and what there is to carry out.
* `Task.script?` — the script that a task replays, if it replays one.
* `Task.Unopened`, `Task.exists_unopened` — what becomes of a LOAD that replays none.
* `answerAt`, `callsAt` — the answer to a call, and all the calls that are made on the way to it.
* **`answerAt_of_opened?`**, **`answerAt_of_opened?_eq_none`** — the two kinds of calls.  Only those
  that replay a script depend on how the commands of a script are processed.
-/

namespace AutomatonShell.Session

/-! ## Calls and tasks -/

/-- What a session can be asked for. -/
inductive Request where
  /-- A command, with its line. -/
  | command (text : String) (line : Option Int)
  /-- A file loaded without a command. -/
  | file (name : String)
  deriving Repr, DecidableEq

/-- A request, and the session that answers it. -/
structure Call where
  session : Session
  request : Request

/-- Something to carry out, in a session that has recorded it. -/
structure Task where
  session : Session
  keyword : Keyword
  words : List String
  body : List Char
  line : Option Int

/-- The task of a call.  There is none if the session has ended, and none for a command without a
word or with an unknown one. -/
def Call.task? (c : Call) : Option Task :=
  if c.session.finished then none
  else
    match c.request with
    | .file name => some ⟨c.session, .load, [name], name.toList, none⟩
    | .command text line =>
      let trimmed := trimCommand text.toList
      (Command.ofText? trimmed).bind fun command =>
        (Keyword.ofName? command.first).map fun keyword =>
          ⟨c.session.record (c.session.config.prompt ++ String.ofList trimmed), keyword,
            command.words, command.body, line⟩

/-- A script that is about to be replayed. -/
structure Script where
  file : String
  place : Location
  commands : List NumberedCommand
  /-- What its last command is missing the separator of. -/
  rest : Assembler
  length : Nat
  deriving Repr, DecidableEq

namespace Task

/-- A task carried out. -/
def run (load : Action) (t : Task) : Reply := t.session.perform load t.keyword t.words t.body t.line

/-- The file that a task asks to LOAD. -/
def file? (t : Task) : Option String :=
  match t.keyword, t.words with
  | .load, [file] => some file
  | _, _ => none

/-- The place of the script that a task asks to LOAD.  Snapshots are no scripts, and a name with a
NUL in it leads nowhere. -/
def place? (t : Task) : Option Location :=
  t.file?.bind fun file =>
    if t.session.config.isBinary file then none
    else if (t.session.target file).toList.contains (Char.ofNat 0) then none
    else some (Location.ofText t.session.workspace.home (t.session.target file))

/-- The script that a task replays: it is not being replayed already, and it can be read. -/
def script? (t : Task) : Option Script :=
  t.file?.bind fun file =>
    t.place?.bind fun place =>
      if t.session.loading.contains place then none
      else
        match t.session.scriptAt file with
        | .error _ => none
        | .ok text =>
          let lines := (Text.lines (Text.unifyNewlines text)).map String.ofList
          match ({ commentPrefix := t.session.config.commentPrefix } : Assembler).feedAll 1 lines
            with
          | .error _ => none
          | .ok (commands, rest) => some ⟨file, place, commands, rest, lines.length⟩

/-- The session in which the commands of a script are processed. -/
def enter (t : Task) (script : Script) : Session :=
  { t.session with loading := t.session.loading ++ [script.place] }

/-- What is left to do when the commands of a script have been processed. -/
def leave (t : Task) (script : Script) (replayed : Reply) : Reply :=
  { replayed with state := { replayed.state with loading := t.session.loading } }.andThen fun s =>
    if s.finished || script.rest.pieces.isEmpty then .done s
    else s.say (some script.length) (.unterminated script.file script.rest.pending)

variable {t : Task} {script : Script}

lemma run_of_file? {file : String} (h : t.file? = some file) (load : Action) :
    t.run load = load t.session file t.line := by
  obtain ⟨s, keyword, words, body, line⟩ := t
  cases keyword <;> try contradiction
  match words with
  | [word] =>
    obtain rfl : word = file := by simpa [file?] using h
    rfl

lemma run_of_file?_eq_none (h : t.file? = none) (load load' : Action) :
    t.run load = t.run load' := by
  obtain ⟨s, keyword, words, body, line⟩ := t
  obtain ⟨handler, hhandles, hperform⟩ := exists_handles keyword words body
  rw [run, run, hperform, hperform]
  cases hhandles with
  | load file => cases h
  | _ => rfl

/-- **A task that replays a script** processes its commands, and only this depends on how commands
are processed. -/
theorem run_of_script? (h : t.script? = some script) (process : Action) :
    t.run (load process)
      = t.leave script (processAll process (t.enter script) script.commands) := by
  simp only [script?, Option.bind_eq_some_iff] at h
  obtain ⟨file, hfile, place, hplace, h⟩ := h
  have hplace' := hplace
  simp only [place?, hfile, Option.bind_some] at hplace'
  split_ifs at h hplace' with hloading hbinary hnul
  obtain rfl := Option.some.inj hplace'
  rw [run_of_file? hfile, load, if_neg hbinary, replay]
  split at h
  · cases h
  · next text htext =>
    split at h
    · cases h
    · next commands rest hfeed =>
      obtain rfl := Option.some.inj h
      simp only [if_neg hnul, if_neg hloading, htext, replayLines, hfeed]
      rfl

/-- **What becomes of a LOAD that replays no script**: a snapshot is restored, and a script cannot
be looked for, is being replayed already, cannot be read, or makes no sense. -/
inductive Unopened (t : Task) (file : String) : Reply → Prop
  | snapshot (binary : t.session.config.isBinary file = true) :
    Unopened t file (t.session.restore file t.line)
  | nul (text : ¬ t.session.config.isBinary file = true)
      (nul : (t.session.target file).toList.contains (Char.ofNat 0) = true) :
    Unopened t file (.stop t.session .nulInName)
  | listed {place : Location} (found : t.place? = some place)
      (listed : place ∈ t.session.loading) :
    Unopened t file (t.session.say t.line (.recursiveLoad file))
  | unreadable {place : Location} {e : TextFileError} (found : t.place? = some place)
      (unread : t.session.scriptAt file = .error e)
      (known : ∀ name, e ≠ .unknownEncoding name) (sound : e ≠ @TextFileError.undecodable .broken) :
    Unopened t file (t.session.say t.line (.cannotOpen file))
  | unknownEncoding {place : Location} {name : String} (found : t.place? = some place)
      (unread : t.session.scriptAt file = .error (.unknownEncoding name)) :
    Unopened t file (.stop t.session (.unknownEncoding name))
  | broken {place : Location} (found : t.place? = some place)
      (unlisted : place ∉ t.session.loading)
      (unread : t.session.scriptAt file = .error (@TextFileError.undecodable .broken)) :
    Unopened t file
      (.stop t.session (@Fault.unencodable (@TextFileError.undecodable .broken)))
  | unassembled {place : Location} {lines : List String} {e : AssemblerError}
      (found : t.place? = some place)
      (unfed : ({ commentPrefix := t.session.config.commentPrefix } : Assembler).feedAll 1 lines
        = .error e) :
    Unopened t file (.stop t.session (.assembler e))

/-- **A LOAD that replays no script** does not depend on how commands are processed. -/
theorem exists_unopened {file : String} (hfile : t.file? = some file) (h : t.script? = none) :
    ∃ r, t.Unopened file r ∧ ∀ process, load process t.session file t.line = r := by
  have hplace : ¬ t.session.config.isBinary file = true →
      ¬ (t.session.target file).toList.contains (Char.ofNat 0) = true →
      t.place? = some (Location.ofText t.session.workspace.home (t.session.target file)) :=
    fun hbinary hnul => by rw [place?, hfile, Option.bind_some, if_neg hbinary, if_neg hnul]
  simp only [script?, hfile, Option.bind_some] at h
  simp only [load, replay]
  split_ifs with hbinary hnul hlisted
  · exact ⟨_, .snapshot hbinary, fun _ => rfl⟩
  · exact ⟨_, .nul hbinary hnul, fun _ => rfl⟩
  · exact ⟨_, .listed (hplace hbinary hnul) (List.contains_iff_mem.1 hlisted), fun _ => rfl⟩
  · have hfound := hplace hbinary hnul
    rw [hfound, Option.bind_some, if_neg hlisted] at h
    split at h
    · next e hread =>
      simp only [hread]
      cases e with
      | unknownEncoding name => exact ⟨_, .unknownEncoding hfound hread, fun _ => rfl⟩
      | file | unencodable => exact ⟨_, .unreadable hfound hread (by simp) (by simp), fun _ => rfl⟩
      | @undecodable failure =>
        cases failure with
        | refused => exact ⟨_, .unreadable hfound hread (by simp) (by simp), fun _ => rfl⟩
        | broken =>
          have hunlisted := mt List.contains_iff_mem.2 hlisted
          exact ⟨_, .broken hfound hunlisted hread, fun _ => rfl⟩
    · next text hread =>
      split at h
      · next e hfeed =>
        simp only [hread, replayLines, hfeed]
        exact ⟨_, .unassembled hfound hfeed, fun _ => rfl⟩
      · cases h

/-- Such a LOAD restores a snapshot, or answers briefly. -/
lemma Unopened.restore_or_brief {file : String} {r : Reply} (h : t.Unopened file r) :
    (t.session.config.isBinary file = true ∧ r = t.session.restore file t.line) ∨
      Brief t.session t.line (fun d => d = .recursiveLoad file ∨ d = .cannotOpen file) r := by
  cases h with
  | snapshot binary => exact Or.inl ⟨binary, rfl⟩
  | nul => exact Or.inr (.stop (by simp))
  | listed => exact Or.inr (.say (Or.inl rfl))
  | unreadable => exact Or.inr (.say (Or.inr rfl))
  | unknownEncoding => exact Or.inr (.stop (by simp))
  | broken => exact Or.inr (.stop (by simp))
  | unassembled => exact Or.inr (.stop (by simp))

/-- **A task that replays no script** does not depend on how commands are processed, and its reply
is a plain one. -/
theorem run_of_script?_eq_none (h : t.script? = none) :
    ∃ r, IsPlainReply t.session r ∧ ∀ process, t.run (load process) = r := by
  have hframe := Frame.refl t.session
  cases hfile : t.file? with
  | none =>
    refine ⟨t.run fun s _ _ => .done s, ?_, fun process => run_of_file?_eq_none hfile _ _⟩
    exact perform_isPlainReply _ _ _ _ _ (fun r hr => hr) fun _ => hframe.done
  | some file =>
    obtain ⟨r, hr, hload⟩ := exists_unopened hfile h
    refine ⟨r, ?_, fun process => (run_of_file? hfile _).trans (hload process)⟩
    rcases hr.restore_or_brief with ⟨-, rfl⟩ | hbrief
    · exact isPlainReply_restore _ file t.line
    · exact hbrief.isPlainReply hframe

lemma place?_of_script? (h : t.script? = some script) :
    t.place? = some script.place ∧ script.place ∉ t.session.loading := by
  simp only [script?, Option.bind_eq_some_iff] at h
  obtain ⟨file, -, place, hplace, h⟩ := h
  split_ifs at h with hloading
  split at h
  · cases h
  · split at h
    · cases h
    · obtain rfl := Option.some.inj h
      exact ⟨hplace, by simpa using hloading⟩

lemma leave_failure (t : Task) (script : Script) (replayed : Reply) :
    (t.leave script replayed).failure = replayed.failure := by
  refine Outcome.andThen_failure fun s => ?_
  split_ifs <;> rfl

end Task

/-- **What a task is made of**: the name of a file that is loaded without a command, or a command
with a keyword. -/
inductive Call.Makes : Call → Task → Prop
  | file {s : Session} {name : String} (running : s.finished = false) :
    Makes ⟨s, .file name⟩ ⟨s, .load, [name], name.toList, none⟩
  | command {s : Session} {text : String} {line : Option Int} {command : Command}
      {keyword : Keyword} (running : s.finished = false)
      (parsed : Command.ofText? (trimCommand text.toList) = some command)
      (known : Keyword.ofName? command.first = some keyword) :
    Makes ⟨s, .command text line⟩
      ⟨s.record (s.config.prompt ++ String.ofList (trimCommand text.toList)), keyword,
        command.words, command.body, line⟩

lemma Call.makes_of_task? {c : Call} {t : Task} (h : c.task? = some t) : c.Makes t := by
  obtain ⟨s, request⟩ := c
  rw [task?] at h
  split_ifs at h with hfinished
  have hrunning : s.finished = false := Bool.eq_false_iff.2 hfinished
  cases request with
  | file name =>
    obtain rfl := Option.some.inj h
    exact .file hrunning
  | command text line =>
    simp only [Option.bind_eq_some_iff, Option.map_eq_some_iff] at h
    obtain ⟨command, hparsed, keyword, hknown, rfl⟩ := h
    exact .command hrunning hparsed hknown

/-- **Why a call has no task**: the session has ended, or the command has no word, or an unknown
one. -/
inductive Call.Idle : Call → Prop
  | finished {s : Session} {request : Request} (finished : s.finished = true) : Idle ⟨s, request⟩
  | blank {s : Session} {text : String} {line : Option Int} (running : s.finished = false)
      (blank : Command.ofText? (trimCommand text.toList) = none) : Idle ⟨s, .command text line⟩
  | unknown {s : Session} {text : String} {line : Option Int} {command : Command}
      (running : s.finished = false)
      (parsed : Command.ofText? (trimCommand text.toList) = some command)
      (unknown : Keyword.ofName? command.first = none) : Idle ⟨s, .command text line⟩

lemma Call.idle_of_task?_eq_none {c : Call} (h : c.task? = none) : c.Idle := by
  obtain ⟨s, request⟩ := c
  cases hfinished : s.finished with
  | true => exact .finished hfinished
  | false =>
    rw [task?, if_neg (by simp [hfinished])] at h
    cases request with
    | file name => cases h
    | command text line =>
      cases hparsed : Command.ofText? (trimCommand text.toList) with
      | none => exact .blank hfinished hparsed
      | some command =>
        simp only [Option.bind_eq_none_iff, Option.map_eq_none_iff] at h
        exact .unknown hfinished hparsed (h command hparsed)

/-- Before a task is carried out, at most its command has been recorded. -/
lemma Call.session_of_task? {c : Call} {t : Task} (h : c.task? = some t) :
    t.session = c.session ∨ ∃ entry, t.session = c.session.record entry := by
  cases makes_of_task? h with
  | file => exact Or.inl rfl
  | command => exact Or.inr ⟨_, rfl⟩

lemma Call.frame_of_task? {c : Call} {t : Task} (h : c.task? = some t) :
    Frame c.session t.session := by
  rcases session_of_task? h with hs | ⟨entry, hs⟩ <;> rw [hs]
  · exact Frame.refl _
  · exact (Frame.refl _).record entry

lemma Call.automaton_of_task? {c : Call} {t : Task} (h : c.task? = some t) :
    t.session.automaton = c.session.automaton := by
  rcases session_of_task? h with hs | ⟨entry, hs⟩ <;> rw [hs]
  rfl

/-- The task of a call and the script that it replays. -/
def Call.opened? (c : Call) : Option (Task × Script) :=
  c.task?.bind fun t => t.script?.map fun script => (t, script)

lemma Call.opened?_eq_some {c : Call} {t : Task} {script : Script} :
    c.opened? = some (t, script) ↔ c.task? = some t ∧ t.script? = some script := by
  simp only [opened?, Option.bind_eq_some_iff, Option.map_eq_some_iff, Prod.mk.injEq]
  constructor
  · rintro ⟨u, hu, v, hv, rfl, rfl⟩
    exact ⟨hu, hv⟩
  · rintro ⟨ht, hscript⟩
    exact ⟨t, ht, script, hscript, rfl, rfl⟩

/-! ## Answers -/

/-- **A call answered**, with scripts nested no deeper than the bound. -/
def answerAt : (bound : Nat) → Call → Reply
  | 0, c => .stop c.session .nesting
  | bound + 1, ⟨s, .command text line⟩ => processWith (load (processAt bound)) s text line
  | bound + 1, ⟨s, .file name⟩ =>
    if s.finished then .done s else load (processAt bound) s name none

/-- The same call, made to a session at work. -/
def callAt : (bound : Nat) → Request → Interpreter → Interpreter.Answer
  | 0, _, i => .stop i .nesting
  | bound + 1, .command text line, i =>
    i.processWith (Interpreter.load (Interpreter.processAt bound)) text line
  | bound + 1, .file name, i =>
    if i.session.finished then .done i
    else i.collecting fun i => i.load (Interpreter.processAt bound) name none

/-- **A request answered**, at the usual bound. -/
def answer (s : Session) : Request → Reply
  | .command text line => s.process text line
  | .file name => s.runFile name

lemma answerAt_maxNesting (s : Session) (request : Request) :
    answerAt (maxNesting + 1) ⟨s, request⟩ = s.answer request := by
  cases request with
  | command text line => exact (process_eq s text line).symm
  | file name => exact (runFile_eq s name).symm

/-- **A call made to a session at work** is answered with what the session says, which is sent to
the output and into every collector. -/
theorem callAt_eq (bound : Nat) (request : Request) (i : Interpreter) :
    callAt bound request i = i.answering (answerAt bound ⟨i.session, request⟩) := by
  cases bound with
  | zero => exact (Interpreter.answering_stop i .nesting).symm
  | succ bound =>
    have hprocess := Interpreter.processAt_eq bound
    cases request with
    | command text line =>
      exact Interpreter.processWith_eq (Interpreter.load_eq hprocess) i text line
    | file name => exact Interpreter.collecting_load hprocess i name

lemma processAt_eq (bound : Nat) (s : Session) (text : String) (line : Option Int) :
    processAt bound s text line = answerAt bound ⟨s, .command text line⟩ := by
  cases bound <;> rfl

lemma answerAt_of_task? {c : Call} {t : Task} (h : c.task? = some t) (bound : Nat) :
    answerAt (bound + 1) c = t.run (load (processAt bound)) := by
  cases Call.makes_of_task? h with
  | file running =>
    rw [answerAt, running]
    rfl
  | command running parsed known =>
    simp only [answerAt, processWith, running, parsed, known]
    rfl

/-- **A session that has ended answers nothing.** -/
lemma answerAt_of_finished {c : Call} (h : c.session.finished = true) (bound : Nat) :
    answerAt (bound + 1) c = .done c.session := by
  obtain ⟨s, _ | name⟩ := c
  · rw [answerAt, processWith, if_pos h]
  · rw [answerAt, if_pos h]

section

variable {s : Session} {text : String} {line : Option Int}

/-- A command without a word is passed over. -/
lemma answerAt_of_blank (h : Command.ofText? (trimCommand text.toList) = none) (bound : Nat) :
    answerAt (bound + 1) ⟨s, .command text line⟩ = .done s := by
  simp only [answerAt, processWith, h, ite_self]

/-- A command whose first word is unknown. -/
lemma answerAt_of_unknown {command : Command} (running : s.finished = false)
    (parsed : Command.ofText? (trimCommand text.toList) = some command)
    (unknown : Keyword.ofName? command.first = none) (bound : Nat) :
    answerAt (bound + 1) ⟨s, .command text line⟩
      = (s.record (s.config.prompt ++ String.ofList (trimCommand text.toList))).say line
          (.unknownCommand command.first) := by
  simp only [answerAt, processWith, running, parsed, unknown]
  rfl

end

/-- A call without a task says at most that it has none. -/
lemma answerAt_of_task?_eq_none {c : Call} (h : c.task? = none) :
    ∃ r : Reply, Frame c.session r.state ∧ r.failure = none ∧
      ∀ bound, answerAt (bound + 1) c = r := by
  have hframe := Frame.refl c.session
  cases Call.idle_of_task?_eq_none h with
  | finished finished => exact ⟨_, hframe, rfl, answerAt_of_finished finished⟩
  | blank running blank => exact ⟨_, hframe, rfl, answerAt_of_blank blank⟩
  | unknown running parsed unknown =>
    exact ⟨_, ((hframe.record _).say _ _).frame, rfl, answerAt_of_unknown running parsed unknown⟩

/-- **A call that replays a script** processes its commands. -/
theorem answerAt_of_opened? {c : Call} {t : Task} {script : Script}
    (h : c.opened? = some (t, script)) (bound : Nat) :
    answerAt (bound + 1) c
      = t.leave script (processAll (processAt bound) (t.enter script) script.commands) := by
  obtain ⟨ht, hscript⟩ := Call.opened?_eq_some.1 h
  rw [answerAt_of_task? ht, Task.run_of_script? hscript]

/-- **A call that replays no script** does not look at the bound, and its reply is a plain one. -/
theorem answerAt_of_opened?_eq_none {c : Call} (h : c.opened? = none) :
    ∃ r, IsPlainReply c.session r ∧ ∀ bound, answerAt (bound + 1) c = r := by
  cases ht : c.task? with
  | none =>
    obtain ⟨r, hframe, hfailure, hr⟩ := answerAt_of_task?_eq_none ht
    exact ⟨r, ⟨hframe, by simp [hfailure]⟩, hr⟩
  | some t =>
    have hscript : t.script? = none := by simpa [Call.opened?, ht] using h
    obtain ⟨r, hplain, hr⟩ := Task.run_of_script?_eq_none hscript
    refine ⟨r, ⟨(Call.frame_of_task? ht).trans hplain.frame, hplain.failure_ne⟩, fun bound => ?_⟩
    rw [answerAt_of_task? ht, hr]

/-! ## Nested calls -/

/-- The calls that the commands of a script make, one after the other, until one stops early. -/
def followed (process : Action) (calls : Call → List Call) :
    Session → List NumberedCommand → List Call
  | _, [] => []
  | s, command :: rest =>
    let reply := process s command.2 (some command.1)
    calls ⟨s, .command command.2 (some command.1)⟩ ++
      if reply.failure.isSome then [] else followed process calls reply.state rest

/-- **The calls of a run**: a call, and the calls that the script makes which it replays. -/
def callsAt : (bound : Nat) → Call → List Call
  | 0, c => [c]
  | bound + 1, c =>
    c :: match c.opened? with
      | none => []
      | some (t, script) =>
        followed (processAt bound) (callsAt bound) (t.enter script) script.commands

end AutomatonShell.Session
