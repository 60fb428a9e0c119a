import AutomatonShell.Proofs.ProgramRuns

/-!
# EXIT is final for programs

What the program does besides asking its session for things is little: it may find that a command is
missing, and it opens a dialogue if there was nothing else to do.  Neither stands in the way of an
EXIT.  In front of a dialogue only a log has been opened, and what the log is asked for by is a LOG
command whatever the name of the file is, so the dialogue begins in a session that has not ended.

* `exists_ofText?_log` — the log of a command line is opened by a LOG command.
* **`isCourse_runProgram`** — a program is the course of its requests.
* **`exit_final`** — EXIT is final in sessions and programs.
-/

namespace AutomatonShell

open Session

/-! ## The log of the command line -/

lemma words_log (rest : List Char) :
    Text.words ('L' :: 'O' :: 'G' :: ' ' :: rest) = ['L', 'O', 'G'] :: Text.words rest := by
  have hword : Text.IsWord ['L', 'O', 'G'] := ⟨by simp, by simp [Text.isBlank]⟩
  have happend := Text.words_append_blank Text.isBlank_space ['L', 'O', 'G'] rest
  rwa [Text.words_of_isWord hword] at happend

/-- **What the log of the command line is asked for by is a LOG command**, also if the name of the
file is blank or ends in a semicolon. -/
lemma exists_ofText?_log (file : List Char) :
    ∃ command, Command.ofText? (trimCommand ('L' :: 'O' :: 'G' :: ' ' :: file)) = some command ∧
      command.first = "LOG" := by
  obtain ⟨rest, hwords⟩ : ∃ rest, Text.words (trimCommand ('L' :: 'O' :: 'G' :: ' ' :: file))
      = ['L', 'O', 'G'] :: rest := by
    rw [trimCommand]
    split_ifs with hlast
    · -- what stands in front of the semicolon begins in the same way
      obtain ⟨after, hafter⟩ : Text.strip ('L' :: 'O' :: 'G' :: ' ' :: file)
          <+: 'L' :: 'O' :: 'G' :: ' ' :: file := List.rdropWhile_prefix Text.isBlank _
      generalize Text.strip ('L' :: 'O' :: 'G' :: ' ' :: file) = text at hlast hafter
      obtain ⟨init, rfl⟩ : ∃ init, text = init ++ [';'] :=
        ⟨text.dropLast, (List.dropLast_append_getLast? _ hlast).symm⟩
      obtain ⟨front, rfl⟩ : ∃ front, init = 'L' :: 'O' :: 'G' :: ' ' :: front := by
        have hsplit : init ++ (';' :: after) = ['L', 'O', 'G', ' '] ++ file := by simpa using hafter
        rcases List.append_eq_append_iff.1 hsplit with ⟨back, hback, h⟩ | ⟨front, hfront, -⟩
        · rcases back with _ | ⟨c, back⟩
          · exact ⟨[], by simpa using hback.symm⟩
          · obtain ⟨rfl, -⟩ := List.cons.inj h
            have hmem : ';' ∈ ['L', 'O', 'G', ' '] := hback ▸ by simp
            exact absurd hmem (by decide)
        · exact ⟨front, hfront⟩
      have hstrip : Text.stripEnd ('L' :: 'O' :: 'G' :: ' ' :: front)
          = Text.strip ('L' :: 'O' :: 'G' :: ' ' :: front) := rfl
      rw [List.dropLast_concat, hstrip, Text.words_strip, words_log]
      exact ⟨_, rfl⟩
    · exact ⟨_, by rw [Text.words_strip, words_log]⟩
  refine ⟨_, by rw [Command.ofText?, hwords], rfl⟩

/-- Opening or closing a log does not end a session. -/
lemma finished_perform_log (load : Action) (s : Session) (words : List String) (body : List Char)
    (line : Option Int) : (s.perform load .log words body line).state.finished = s.finished := by
  match words with
  | [] =>
    show (s.stopLog line).state.finished = s.finished
    rw [stopLog]
    split_ifs <;> rfl
  | [file] =>
    show (s.openLog file line).state.finished = s.finished
    rw [openLog]
    generalize s.log.openAt s.workspace (s.target file) = opened
    obtain ⟨workspace, log, failure⟩ := opened
    dsimp only
    split <;> rfl
  | _ :: _ :: _ => rfl

lemma finished_process_log (s : Session) (file : String) :
    (s.process ("LOG " ++ file) none).state.finished = s.finished := by
  obtain ⟨command, hcommand, hfirst⟩ := exists_ofText?_log file.toList
  have htext : ("LOG " ++ file).toList = 'L' :: 'O' :: 'G' :: ' ' :: file.toList := by simp
  have hkeyword : Keyword.ofName? command.first = some .log := hfirst ▸ Keyword.ofName?_name .log
  rw [process_eq]
  simp only [processAt, processWith, htext, hcommand, hkeyword]
  split_ifs
  · rfl
  · exact finished_perform_log _ _ _ _ _

/-! ## The program -/

/-- **What a program asks for**: what its command line does and, without files and commands, what
the dialogue does. -/
def programRequests (i : Invocation) (readings : List Reading) : List Session.Request :=
  let marker := Config.standard.commentPrefix
  Running.requests marker i ++
    if i.folderMissing || !i.files.isEmpty || !i.commands.isEmpty || i.commandMissing then []
    else Shell.requests { commentPrefix := marker } 0 (readings ++ [.line ""])

/-- The end of the commands asks for nothing more. -/
lemma isCourse_closeCommands {s : Session} {requests : List Session.Request} {r : Running}
    (h : IsCourse requests s r) (missing : Bool) :
    IsCourse requests s (r.andThen fun s => Running.closeCommands s missing) := by
  have hloading : r.state.loading = s.loading := by
    rw [h.state]
    exact (frame_answerAll s requests).loading
  have hidle : ∀ t : Session, t.finished = true → Running.closeCommands t missing = .done t := by
    intro t ht
    rw [Running.closeCommands, if_neg (by simp [ht])]
  have hfinal := h.final.andThen (fun s => Running.closeCommands s missing) hloading
    (fun _ hfinished => ⟨hidle _ hfinished, by simp⟩)
    (isFinal_nil : IsFinal (farewell.render ++ "\n") [] _ _)
  rw [ite_self, List.append_nil] at hfinal
  cases hr : r.failure with
  | some fault => rwa [Outcome.andThen_of_failure_eq_some hr]
  | none =>
    rw [Outcome.andThen_of_failure_eq_none hr] at hfinal ⊢
    have hstate : (Running.closeCommands r.state missing).state = r.state ∧
        (Running.closeCommands r.state missing).output = [] := by
      rw [Running.closeCommands]
      split_ifs <;> exact ⟨rfl, rfl⟩
    refine ⟨hstate.1.trans h.state, ?_, hfinal⟩
    rw [hstate.2, List.append_nil]
    exact h.shown

/-- The dialogue that follows the log. -/
lemma isCourse_converse {s : Session} (hmarker : s.config.commentPrefix ≠ "")
    {requests : List Session.Request}
    (hopen : (answerAll s requests).state.finished = false) (readings : List Reading) :
    IsCourse
      (requests ++
        Shell.requests { commentPrefix := s.config.commentPrefix } 0 (readings ++ [.line ""]))
      s (converse (Running.ofReply (answerAll s requests)) readings) := by
  obtain ⟨reply, hreply⟩ : ∃ reply, answerAll s requests = reply := ⟨_, rfl⟩
  have hfirst := isCourse_ofReply s requests
  have hconfig : reply.state.config = s.config := hreply ▸ (frame_answerAll s requests).config
  rw [hreply] at hfirst hopen ⊢
  refine hfirst.andThen (hreply ▸ rfl) _ (fun _ hfinished => ?_) ?_
  · exact absurd (hfinished.symm.trans hopen) (by simp)
  · rw [← hconfig] at hmarker ⊢
    exact (@Shell.isCourse_turns (Shell.start reply.state) hmarker rfl
      (readings ++ [.line ""])).shown_first [Shell.greeting]

lemma finished_answerAll_log (s : Session) (log : Option String) :
    (answerAll s (Running.logRequests log)).state.finished = s.finished := by
  cases log with
  | none => rfl
  | some file =>
    rw [Running.logRequests]
    split_ifs
    · rfl
    · rw [answerAll, Outcome.forEach]
      have hdone : (fun t => Outcome.forEach answer t []) = (Outcome.done : Session → Reply) := rfl
      rw [hdone, Outcome.andThen_done]
      exact finished_process_log s file

/-- **A program is the course of its requests.** -/
theorem isCourse_runProgram {arguments : List String} {workspace : Workspace}
    {readings : List Reading} {i : Invocation} {running : Running}
    (hi : Invocation.parse arguments = .ok i)
    (hrunning : runProgram arguments workspace readings = .ran running) :
    IsCourse (programRequests i readings)
      (Session.start { Config.standard with workDir := i.workDir } workspace) running := by
  generalize hs : Session.start { Config.standard with workDir := i.workDir } workspace = s
  have hmarker : s.config.commentPrefix = Config.standard.commentPrefix := hs ▸ rfl
  have hne : Config.standard.commentPrefix ≠ "" := by decide
  simp only [runProgram, launch, hi, hs] at hrunning
  obtain rfl := Conclusion.ran.inj hrunning
  rw [programRequests]
  cases hfolder : i.folderMissing with
  | true =>
    have hwork : Running.ofInvocation s i = .stop s .missingFolder := if_pos hfolder
    have hboth : (if (i.files.isEmpty && i.commands.isEmpty && !i.commandMissing) = true then
        converse (.stop s .missingFolder) readings else .stop s .missingFolder)
          = (.stop s .missingFolder : Running) := by
      split_ifs <;> rfl
    rw [hwork, hboth, Running.requests, if_pos hfolder]
    exact ⟨rfl, List.nil_sublist _, isFinal_nil⟩
  | false =>
    rw [Running.ofInvocation_eq (hmarker ▸ hne) hfolder, hmarker]
    by_cases hinteractive : (i.files.isEmpty && i.commands.isEmpty && !i.commandMissing) = true
    · have hbusy :
          (false || !i.files.isEmpty || !i.commands.isEmpty || i.commandMissing) = false := by
        simpa [and_assoc] using hinteractive
      rw [if_pos hinteractive, hbusy, if_neg Bool.false_ne_true]
      simp only [Bool.and_eq_true, List.isEmpty_iff, Bool.not_eq_true'] at hinteractive
      obtain ⟨⟨hfiles, hcommands⟩, hmissing⟩ := hinteractive
      have hlog : Running.requests Config.standard.commentPrefix i = Running.logRequests i.log := by
        rw [Running.requests, hfolder, hfiles, hcommands]
        exact (List.append_nil _).trans (List.append_nil _)
      have hopen : (answerAll s (Running.logRequests i.log)).state.finished = false := by
        rw [finished_answerAll_log, ← hs]
        rfl
      have hclose : (fun s => Running.closeCommands s i.commandMissing) = Outcome.done := by
        rw [hmissing]
        rfl
      rw [hlog, hclose, Outcome.andThen_done, ← hmarker]
      exact isCourse_converse (hmarker ▸ hne) hopen readings
    · have hbusy :
          (false || !i.files.isEmpty || !i.commands.isEmpty || i.commandMissing) = true := by
        simpa [imp_iff_not_or] using hinteractive
      rw [if_neg hinteractive, hbusy, if_pos rfl, List.append_nil]
      exact isCourse_closeCommands (isCourse_ofReply s _) _

/-! ## The result -/

/-- **EXIT is final**, wherever it stands: behind any requests, in scripts nested to any depth, in a
file or a command of a command line, or in a line of a dialogue.  The run ends in the session that
the EXIT left, with the automaton and the files of that moment and with its log closed; the farewell
is the last that is said and shown; no call behind the EXIT answers anything; and nor do further
requests.  A program is such a run of requests. -/
theorem exit_final :
    (∀ (s : Session) (requests : List Session.Request) (before : List Call) (d : Call)
        (after : List Call) (t : Task),
      begun s requests = before ++ d :: after → d.task? = some t → t.IsExit →
        EndedBy farewell t after s (answerAll s requests) ∧
          (answerAll s requests).state.finished = true ∧
          (answerAll s requests).state.log.active = false ∧
          ∀ more,
            answerAll (answerAll s requests).state more = .done (answerAll s requests).state) ∧
      ∀ (arguments : List String) (workspace : Workspace) (readings : List Reading) (i : Invocation)
        (running : Running),
      Invocation.parse arguments = .ok i → runProgram arguments workspace readings = .ran running →
        IsCourse (programRequests i readings)
          (Session.start { Config.standard with workDir := i.workDir } workspace) running := by
  refine ⟨fun s requests before d after t hcalls ht hexit => ?_, fun _ _ _ _ _ hi hrunning =>
    isCourse_runProgram hi hrunning⟩
  have hended := isFinal_answerAll s requests before d after t hcalls ht hexit
  exact ⟨hended, hended.finished, hended.closed,
    fun more => answerAll_of_finished hended.finished more⟩

/-- An EXIT in a script that another script replays, with commands behind it in both and a command
that each leaves unfinished, while a log is open; and the same in a dialogue. -/
theorem exit_final_of_nested :
    let bytes := fun text : String => text.toList.map fun c => UInt8.ofNat c.toNat
    let w : Workspace :=
      { home := ["w"]
        files := [(["w", "a"], bytes "LOG l; LOAD b; SYMBOLS 0; STATES"),
          (["w", "b"], bytes "STATES q; EXIT; CLEAR; PRINT p; STATES")] }
    let s := Session.start { Config.standard with workDir := none } w
    let requests : List Session.Request :=
      [.command "LOAD a" none, .command "STATES r" none, .file "b"]
    let reply := answerAll s requests
    let readings : List Reading := [.line "LOAD a; STATES r;\n", .line "LOAD b;\n"]
    ((∃ said, reply.output = said ++ [.info "TERMINATED BY USER"]) ∧
        reply.state.log.active = false ∧ reply.state.automaton.states = ["Q"] ∧
        ((begun s requests).drop 5).map (·.request) = [.command "CLEAR" (some 1),
          .command "PRINT p" (some 1), .command "SYMBOLS 0" (some 1), .command "STATES r" none,
          .file "b"] ∧
        (∀ e ∈ (begun s requests).drop 5, e.session.finished = true) ∧
        answerAll reply.state requests = .done reply.state) ∧
      ∀ running, runProgram [] w readings = .ran running →
        running.state = (answerAll s (programRequests {} readings)).state := by
  intro bytes w s requests reply readings
  obtain ⟨d, hd, t, ht, hexit⟩ : ∃ d, (begun s requests)[4]? = some d ∧
      ∃ t, d.task? = some t ∧ t.IsExit := by
    have hfound : ((begun s requests)[4]?.bind Call.task?).any (fun t =>
        t.keyword == .exit && t.words.isEmpty) = true := by decide +kernel
    obtain ⟨t, ht, hexit⟩ := Option.any_eq_true _ _ |>.1 hfound
    obtain ⟨d, hd, ht⟩ := Option.bind_eq_some_iff.1 ht
    exact ⟨d, hd, t, ht, by simpa [Task.IsExit] using hexit⟩
  obtain ⟨hlt, hget⟩ := List.getElem?_eq_some_iff.1 hd
  have hcalls : begun s requests = (begun s requests).take 4 ++ d :: (begun s requests).drop 5 := by
    rw [← hget, ← List.drop_eq_getElem_cons hlt, List.take_append_drop]
  obtain ⟨hended, -, hclosed, hmore⟩ := exit_final.1 s requests _ d _ t hcalls ht hexit
  refine ⟨⟨hended.output, hclosed, by decide +kernel, by decide +kernel,
    fun e he => (hended.after e he).1, hmore requests⟩, fun running hrunning => ?_⟩
  exact (exit_final.2 [] w readings {} running rfl hrunning).state

end AutomatonShell
