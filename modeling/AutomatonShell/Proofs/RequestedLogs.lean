import AutomatonShell.Proofs.DefinedSessions
import AutomatonShell.Proofs.LogHistories
import AutomatonShell.Proofs.ProgramEnding

/-!
# The log that a command line asks for

The log of a command line is opened by a LOG command, in which the name of the file is taken apart
like the text of any command.  What the command is about is therefore not the name but its words,
when the name is trimmed as a command is (`words_trimCommand_append`).  The name is its own only
word just when it has no blank and does not end in a semicolon (`words_trimCommand_eq_self_iff`).
All other names log to some other file, or to none.

For a name that is its own word, the log is open before anything else is asked for, and the events
of all that is asked for then are what the file gets.

* `words_trimCommand_append` — the words of a command whose first word is given.
* `Session.answer_log` — what a LOG command is answered in a session without a log.
* `Session.answeredEvents`, `Session.traces_answerAll` — the events of requests.
* **`log_of_command_line`** — which file a program logs to, and what the file holds.
* **`exists_log_not_opened`** — a file that can be created and is not logged to.
-/

namespace AutomatonShell

/-! ## The words of a name -/

namespace Text

lemma words_stripEnd (text : List Char) : words (stripEnd text) = words text := by
  have hsplit : stripEnd text ++ text.rtakeWhile isBlank = text :=
    List.rdropWhile_append_rtakeWhile
  conv_rhs => rw [← hsplit]
  exact (words_append_isBlankText (fun c hc => List.mem_rtakeWhile_imp hc) _).symm

end Text

/-- The words of a trimmed text: a final semicolon is dropped, and blanks do not count. -/
lemma words_trimCommand (text : List Char) : Text.words (trimCommand text)
    = Text.words (if (Text.strip text).getLast? = some ';' then (Text.strip text).dropLast
        else Text.strip text) := by
  rw [trimCommand]
  split_ifs
  · exact Text.words_stripEnd _
  · rfl

/-- **What follows the first word of a command is trimmed as a command is.** -/
theorem words_trimCommand_append {first : List Char} (hfirst : Text.IsWord first)
    (hlast : first.getLast? ≠ some ';') (body : List Char) :
    Text.words (trimCommand (first ++ ' ' :: body)) = first :: Text.words (trimCommand body) := by
  rw [words_trimCommand, words_trimCommand]
  by_cases hblank : Text.IsBlankText body
  · have hspace : Text.IsBlankText (' ' :: body) := List.forall_mem_cons.2 ⟨rfl, hblank⟩
    rw [Text.strip_append_isBlankText hspace, hfirst.isTrimmed.strip, if_neg hlast,
      Text.strip_eq_nil_iff.2 hblank, Text.words_of_isWord hfirst]
    rfl
  · obtain ⟨before, after, hbefore, hafter, hbody⟩ := Text.exists_blanks_strip body
    have hleft : Text.strip body ≠ [] := fun h => hblank (Text.strip_eq_nil_iff.1 h)
    have hstrip : Text.strip (first ++ ' ' :: body)
        = first ++ ' ' :: before ++ Text.strip body := by
      have htrimmed := hfirst.isTrimmed.append (Text.isTrimmed_strip hleft) (' ' :: before)
      have htext : first ++ ' ' :: body = first ++ ' ' :: before ++ Text.strip body ++ after := by
        conv_lhs => rw [hbody]
        simp
      rw [htext, Text.strip_append_isBlankText hafter, htrimmed.strip]
    have hwords : ∀ text, Text.words (first ++ ' ' :: before ++ text)
        = first :: Text.words text := by
      intro text
      rw [List.append_assoc, List.cons_append, Text.words_append_blank Text.isBlank_space,
        Text.words_of_isWord hfirst, Text.words_append_of_isBlankText hbefore]
      rfl
    rw [hstrip, List.getLast?_append_of_ne_nil _ hleft]
    split_ifs
    · rw [List.dropLast_append_of_ne_nil hleft, hwords]
    · rw [hwords]

/-- **A name is its own only word** just when it has no blank and does not end in a semicolon. -/
theorem words_trimCommand_eq_self_iff {name : List Char} :
    Text.words (trimCommand name) = [name] ↔
      Text.IsWord name ∧ name.getLast? ≠ some ';' := by
  constructor
  · intro h
    have hmem : name ∈ Text.words (trimCommand name) := h ▸ List.mem_singleton_self name
    have hword : Text.IsWord name :=
      ⟨Text.ne_nil_of_mem_words hmem, fun c hc => not_isBlank_of_mem_words hmem c hc⟩
    refine ⟨hword, fun hlast => ?_⟩
    -- without its semicolon the name is too short to be the word
    rw [words_trimCommand, hword.isTrimmed.strip, if_pos hlast] at h
    have hne : name.dropLast ≠ [] := fun hnil => by simp [hnil, Text.words] at h
    have hshort : Text.IsWord name.dropLast :=
      ⟨hne, fun c hc => hword.2 c (List.mem_of_mem_dropLast hc)⟩
    rw [Text.words_of_isWord hshort, List.singleton_inj] at h
    have hlength := congrArg List.length h
    rw [List.length_dropLast] at hlength
    have hpos := List.length_pos_of_ne_nil hword.1
    omega
  · rintro ⟨hword, hlast⟩
    rw [words_trimCommand, hword.isTrimmed.strip, if_neg hlast, Text.words_of_isWord hword]

namespace Session

variable {s : Session} {codec : Text.Codec} {place : Location}

/-! ## The LOG command -/

/-- LOG in a session without a log, which there is nothing to stop in. -/
lemma perform_log (hlog : s.log.current = none) (load : Action) (words : List String)
    (body : List Char) (line : Option Int) :
    s.perform load .log words body line = match words with
      | [] => s.say line .logNotEnabled
      | [file] => s.openLog file line
      | _ => s.say line (.arity .log .atMostOneFile) := by
  match words with
  | [] =>
    have hinactive : s.log.active = false := by rw [LogSink.active, hlog, Option.isSome_none]
    show s.stopLog line = _
    rw [stopLog, if_neg (by simp [hinactive])]
  | [file] => rfl
  | _ :: _ :: _ => rfl

/-- **What a LOG command is answered** in a session without a log: it is about the words of the
name, whatever the name is. -/
theorem answer_log (hopen : s.finished = false) (hlog : s.log.current = none) (file : String) :
    s.answer (.command ("LOG " ++ file) none) =
      match (Text.words (trimCommand file.toList)).map String.ofList with
      | [] => s.say none .logNotEnabled
      | [name] => s.openLog name none
      | _ => s.say none (.arity .log .atMostOneFile) := by
  have hword : Text.IsWord ['L', 'O', 'G'] := ⟨by simp, by simp [Text.isBlank]⟩
  have htext : ("LOG " ++ file).toList = ['L', 'O', 'G'] ++ ' ' :: file.toList := by simp
  have hwords := words_trimCommand_append hword (by decide) file.toList
  rw [← htext] at hwords
  obtain ⟨body, hcommand⟩ : ∃ body, Command.ofText? (trimCommand ("LOG " ++ file).toList)
      = some ⟨"LOG", (Text.words (trimCommand file.toList)).map String.ofList, body⟩ :=
    ⟨_, by rw [Command.ofText?, hwords]⟩
  have hkeyword : Keyword.ofName? "LOG" = some .log := Keyword.ofName?_name .log
  simp only [answer, process_eq, processAt, processWith, hopen, Bool.false_eq_true, if_false,
    hcommand, hkeyword, record_of_no_log hlog]
  exact perform_log hlog _ _ body none

/-- A log that can be opened is opened, without a word. -/
lemma openLog_of_logFile? {file : String} (hcodec : s.log.codec? = some codec)
    (hplace : s.workspace.logFile? (s.target file) = some place) (line : Option Int) :
    s.openLog file line = .done { s with
      workspace := s.workspace.put place []
      log := { s.log with
        current := some { path := .ofString (s.target file), place, codec } } } := by
  have hopened : s.log.openAt s.workspace (s.target file) = (s.workspace.put place [],
      { s.log with
        current := some { path := .ofString (s.target file), place, codec } }, none) := by
    show s.log.openAs s.workspace _ (s.workspace.createLog (s.target file)) = _
    rw [Workspace.logFile?_eq_some.1 hplace, LogSink.openAs]
    simp only [hcodec]
  rw [openLog, hopened]

/-- **A name that is its own word** opens the log of its file. -/
lemma answer_log_of_isWord {file : String} (hopen : s.finished = false)
    (hlog : s.log.current = none) (hword : Text.IsWord file.toList)
    (hlast : file.toList.getLast? ≠ some ';')
    (hcodec : s.log.codec? = some codec)
    (hplace : s.workspace.logFile? (s.target file) = some place) :
    s.answer (.command ("LOG " ++ file) none) = .done { s with
      workspace := s.workspace.put place []
      log := { s.log with
        current := some { path := .ofString (s.target file), place, codec } } } := by
  rw [answer_log hopen hlog, words_trimCommand_eq_self_iff.2 ⟨hword, hlast⟩, List.map_singleton,
    String.ofList_toList]
  exact openLog_of_logFile? hcodec hplace none

/-- In the default configuration, logs are in UTF-8. -/
lemma codec?_start (workDir : Option Path) (w : Workspace) :
    (Session.start { Config.standard with workDir } w).log.codec? = some (.ofEncoding .utf8) := by
  have hname : Platform.standard.codec? "utf-8" = some (.ofEncoding .utf8) :=
    show Text.Codec.ofName? "utf-8" = _ from
      @Text.Codec.ofName?_of_encoding "utf-8" .utf8 (by decide)
  have hconfig : Config.codec? { Config.standard with workDir }
      = Platform.standard.codec? "utf-8" := rfl
  exact hconfig.trans hname

/-! ## The events of requests -/

/-- **The events of requests** that are answered one after the other, up to one that ends in a
fault. -/
def answeredEvents : Session → List Request → List Event
  | _, [] => []
  | s, request :: rest =>
    eventsAt (maxNesting + 1) ⟨s, request⟩ ++
      if (s.answer request).failure.isSome then [] else answeredEvents (s.answer request).state rest

/-- **The answers to requests, the files and the log are views of their events**, by induction on
the requests. -/
theorem traces_answerAll (s : Session) (requests : List Request) :
    Traces s (answeredEvents s requests) (answerAll s requests) := by
  induction requests generalizing s with
  | nil => exact ⟨rfl, rfl⟩
  | cons request rest ih =>
    have hfirst := traces_answerAt (maxNesting + 1) ⟨s, request⟩
    rw [answerAt_maxNesting] at hfirst
    exact hfirst.andThen (fun s => answerAll s rest) (ih _)

/-- The commands that begin in the events are those of the calls. -/
lemma begunIn_answeredEvents (s : Session) (requests : List Request) :
    begunIn (answeredEvents s requests) = (begun s requests).filterMap Call.echo? := by
  induction requests generalizing s with
  | nil => rfl
  | cons request rest ih =>
    have hfirst := (tells_eventsAt (maxNesting + 1) ⟨s, request⟩).begun
    rw [answeredEvents, begun, begunIn_append, hfirst, List.filterMap_append]
    split_ifs
    · rfl
    · rw [ih]

end Session

open Session

/-! ## The program -/

lemma exists_running {arguments : List String} {i : Invocation}
    (hi : Invocation.parse arguments = .ok i) (workspace : Workspace) (readings : List Reading) :
    ∃ running, runProgram arguments workspace readings = .ran running := by
  simp only [runProgram, launch, hi]
  exact ⟨_, rfl⟩

/-- **Which file a program logs to, and what the file holds.**

The first thing that a program with a log asks for is the LOG command of its name.  What is answered
depends on the words of the name, when it is trimmed as a command is: without words there is no log,
one word is the file that is logged to, and several are a mistake.  The one word is the name itself
just when the name has no blank and does not end in a semicolon.

If the name is such a one and the file can be created, the log is opened at the place that the name
means in the working directory; nothing is said, and the file is empty.  Everything that is asked
for afterwards goes there: as long as nobody closes or switches the log or writes the file
otherwise, the file holds a line for each command that is begun and each message that is said. -/
theorem log_of_command_line {arguments : List String} {i : Invocation} {file : String}
    (hi : Invocation.parse arguments = .ok i) (hlog : i.log = some file) (hfile : file ≠ "")
    (hfolder : i.folderMissing = false) (workspace : Workspace) (readings : List Reading) :
    let s := Session.start { Config.standard with workDir := i.workDir } workspace
    let words := Text.words (trimCommand file.toList)
    let first := s.answer (.command ("LOG " ++ file) none)
    ∃ running more, runProgram arguments workspace readings = .ran running ∧
      programRequests i readings = .command ("LOG " ++ file) none :: more ∧
      IsCourse (programRequests i readings) s running ∧
      (first = match words.map String.ofList with
        | [] => s.say none .logNotEnabled
        | [name] => s.openLog name none
        | _ => s.say none (.arity .log .atMostOneFile)) ∧
      (words = [file.toList] ↔ Text.IsWord file.toList ∧ file.toList.getLast? ≠ some ';') ∧
      ∀ place, Text.IsWord file.toList → file.toList.getLast? ≠ some ';' →
        workspace.logFile? (s.target file) = some place →
        let later := answeredEvents first.state more
        first = .done { s with
          workspace := workspace.put place []
          log.current := some
            { path := .ofString (s.target file), place, codec := .ofEncoding .utf8 } } ∧
        (workspace.home.IsProper → place = Location.ofText workspace.home (s.target file)) ∧
        running.state.journal = first.state.journal.after later ∧
        begunIn later = (begun first.state more).filterMap Call.echo? ∧
        saidIn later = (answerAll first.state more).output ∧
        ∀ during rest, later = during ++ rest → (∀ e ∈ during, e.Spares place) →
          (first.state.journal.after during).workspace.get? place
            = some (logged (.ofEncoding .utf8) (linesIn during)) := by
  intro s words first
  obtain ⟨running, hrunning⟩ := exists_running hi workspace readings
  have hcourse : IsCourse (programRequests i readings) s running := isCourse_runProgram hi hrunning
  obtain ⟨more, hmore⟩ : ∃ more,
      programRequests i readings = .command ("LOG " ++ file) none :: more := by
    rw [programRequests, Running.requests, if_neg (by simp [hfolder]), hlog, Running.logRequests,
      if_neg hfile]
    exact ⟨_, rfl⟩
  refine ⟨running, more, hrunning, hmore, hcourse, answer_log rfl rfl file,
    words_trimCommand_eq_self_iff, fun place hword hlast hplace => ?_⟩
  intro later
  have hcodec : s.log.codec? = some (.ofEncoding .utf8) := codec?_start i.workDir workspace
  have hopened : first = _ := answer_log_of_isWord rfl rfl hword hlast hcodec hplace
  have htraces := traces_answerAll first.state more
  refine ⟨hopened, fun hhome =>
      Workspace.place_of_createLog hhome (Workspace.logFile?_eq_some.1 hplace), ?_,
    begunIn_answeredEvents _ _, htraces.output.symm, fun during rest _ hspares => ?_⟩
  · have hall : answerAll s (.command ("LOG " ++ file) none :: more)
        = answerAll first.state more := by
      have hcons : answerAll s (.command ("LOG " ++ file) none :: more)
          = first.andThen fun t => answerAll t more := rfl
      rw [hcons, hopened, Outcome.done_andThen]
      rfl
    rw [hcourse.state, hmore, hall]
    exact htraces.journal
  · have hjournal : first.state.journal
        = Event.apply s.journal
          (.opened (.ofString (s.target file)) place (.ofEncoding .utf8)) := by
      rw [hopened]
      rfl
    rw [hjournal]
    exact ((records_opened ..).after hspares).content

/-- A log in a folder to work in, and a dialogue in which another log is opened. -/
theorem log_of_command_line_of_dialogue :
    let w : Workspace := { home := ["w"], folders := [["w", "d"]] }
    let readings : List Reading := [.line "STATES a b;\n", .line "STATES; LOG other;\n"]
    let i : Invocation := { log := some "run.log", workDir := some (.ofString "d") }
    let s := Session.start { Config.standard with workDir := i.workDir } w
    let first := s.answer (.command "LOG run.log" none)
    let more : List Session.Request := [.command "STATES a b" (some 1), .command "STATES" (some 2),
      .command "LOG other" (some 2)]
    ∃ during rest, programRequests i readings = .command "LOG run.log" none :: more ∧
      first.output = [] ∧ answeredEvents first.state more = during ++ rest ∧
      linesIn during = ["? STATES a b", "? STATES", "STATES A B", "? LOG other"] ∧
      (first.state.journal.after during).workspace.get? ["w", "d", "run.log"]
        = some (logged (.ofEncoding .utf8) (linesIn during)) := by
  intro w readings i s first more
  have hi : Invocation.parse ["--work-dir", "d", "--log", "run.log"] = .ok i := by rfl
  obtain ⟨running, more', -, hmore, -, -, -, hopens⟩ :=
    log_of_command_line hi rfl (by decide) rfl w readings
  obtain ⟨hfirst, -, -, -, -, hholds⟩ := hopens ["w", "d", "run.log"]
    ⟨by simp, by simp [Text.isBlank]⟩ (by decide) (by decide +kernel)
  have hrequests : programRequests i readings = .command "LOG run.log" none :: more := by
    decide +kernel
  obtain ⟨-, rfl⟩ := List.cons.inj (hmore.symm.trans hrequests)
  obtain ⟨during, rest, hsplit, hduring⟩ : ∃ during rest,
      answeredEvents first.state more = during ++ rest ∧ during.map Event.line?
        = ["? STATES a b", "? STATES", "STATES A B", "? LOG other"].map some :=
    ⟨_, _, (List.take_append_drop 4 _).symm, by decide +kernel⟩
  refine ⟨during, rest, hmore, congrArg Outcome.output hfirst, hsplit, ?_,
    hholds during rest hsplit fun e he => ?_⟩
  · rw [linesIn_eq, hduring]
    rfl
  · have hline : e.line? ∈ ["? STATES a b", "? STATES", "STATES A B", "? LOG other"].map some :=
      hduring ▸ List.mem_map_of_mem he
    obtain ⟨line, -, hline⟩ := List.mem_map.1 hline
    exact Event.spares_of_line? hline.symm

/-- **A file that can be created and is not logged to**: the blank in its name makes two words of
it.  The program says that this is a mistake, and there is no such file when it has ended. -/
theorem exists_log_not_opened :
    let w : Workspace := { home := ["w"] }
    w.logFile? "my log.txt" = some ["w", "my log.txt"] ∧
      ∃ running, runProgram ["--log", "my log.txt", "-e", "STATES a"] w [] = .ran running ∧
        running.output = ["Error: LOG takes at most one file name\n"] ∧
        running.state.automaton.states = ["A"] ∧ running.state.log.active = false ∧
        running.state.workspace.get? ["w", "my log.txt"] = none := by
  refine ⟨by decide, _, rfl, ?_, ?_, ?_, ?_⟩ <;> decide +kernel

end AutomatonShell
