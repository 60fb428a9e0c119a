import AutomatonShell.Proofs.FileNames
import AutomatonShell.Proofs.ListingReplay
import AutomatonShell.Proofs.StoredFiles

/-!
# A compiled automaton is loaded again

COMPILE writes a snapshot and LOAD restores it, in the same session and after whatever happened in
between.  For this the two have to agree on the file, which is a matter of how a name is cut out of
a command, where it leads, and whether LOAD takes it for that of a snapshot; and the file has to
keep what was written.  Everybody else is kept from writing it by assumption.  The log writes to its
file whenever a command begins and whenever something is said, so it must not be open there, neither
when the report of COMPILE is written nor when LOAD begins.

* `Asks` — a text that is a command with one word.
* `compiled_of_reported`, `load_of_holds` — what the two commands leave.
* `Automaton.IsCopyOf` — the same automaton in the same orders.
* **`load_compiled`** — COMPILE and then LOAD.
-/

namespace AutomatonShell

/-- **The same automaton in the same orders**, but for the final states, which have no order. -/
structure Automaton.IsCopyOf (b a : Automaton) : Prop where
  symbols : b.symbols = a.symbols
  states : b.states = a.states
  initial : b.initial = a.initial
  finals : b.finals.Perm a.finals
  transitions : b.transitions = a.transitions

namespace Session

variable {s : Session} {text file : String} {line : Option Int}

/-! ## A command with one word -/

/-- **A text that is a command with one word.** -/
def Asks (text : String) (keyword : Keyword) (word : String) : Prop :=
  (Command.ofText? (trimCommand text.toList)).map (fun c => (Keyword.ofName? c.first, c.words))
    = some (some keyword, [word])

instance (text : String) (keyword : Keyword) (word : String) :
    Decidable (Asks text keyword word) := inferInstanceAs (Decidable (_ = _))

/-- A command with one word, from its text to what is carried out. -/
lemma process_asks {keyword : Keyword} (hs : s.finished = false) (h : Asks text keyword file)
    (line : Option Int) : ∃ entry body,
      s.process text line
        = (s.record entry).perform (load (processAt maxNesting)) keyword [file] body line := by
  obtain ⟨command, hcommand, hparts⟩ := Option.map_eq_some_iff.1 h
  obtain ⟨hkeyword, hwords⟩ := Prod.mk.inj hparts
  rw [process_eq, processAt, processWith, if_neg (by simp [hs])]
  simp only [hcommand, hkeyword, hwords]
  exact ⟨_, _, rfl⟩

/-- **A keyword and a word with a space between them.**  The word may hold semicolons, but not at
its end. -/
lemma asks_word (keyword : Keyword) (hword : Text.IsWord file.toList)
    (hend : file.toList.getLast? ≠ some ';') : Asks (keyword.name ++ " " ++ file) keyword file := by
  have htext : (keyword.name ++ " " ++ file).toList
      = keyword.name.toList ++ ' ' :: file.toList := by
    simp
  have htrimmed : Text.IsTrimmed (keyword.name.toList ++ ' ' :: file.toList) := by
    simpa using (isWord_name keyword).isTrimmed.append hword.isTrimmed [' ']
  have htrim : trimCommand (keyword.name.toList ++ ' ' :: file.toList)
      = keyword.name.toList ++ ' ' :: file.toList := by
    rw [trimCommand, htrimmed.strip, if_neg]
    obtain ⟨d, hd, -⟩ := hword.isTrimmed.2
    rw [Option.mem_def] at hd
    rw [List.getLast?_append, List.getLast?_cons, hd]
    rwa [hd] at hend
  rw [Asks, htext, htrim, Command.ofText?, Text.words_append_blank Text.isBlank_space,
    Text.words_of_isWord (isWord_name keyword), Text.words_of_isWord hword]
  simp [Keyword.ofName?_name]

/-! ## Success -/

lemma eq_of_mem_say {d d' : Diagnostic} {line' : Option Int}
    (h : d.message line ∈ (s.say line' d').output) :
    d.severity = d'.severity ∧ d.text = d'.text := by
  have heq := List.mem_singleton.1 h
  exact ⟨congrArg Message.severity heq, congrArg Message.text heq⟩

/-- **What was done when COMPILE reported success.** -/
lemma compile_of_reported (h : (Diagnostic.compiled file).message line
      ∈ (s.compile file line).output) :
    s.config.isCompileTarget file = true ∧
      ∃ w, s.workspace.saveSnapshot s.automaton (s.target file) s.config.library = (w, none) ∧
        s.compile file line = say { s with workspace := w } line (.compiled file) := by
  rw [compile] at h ⊢
  cases htarget : s.config.isCompileTarget file with
  | false =>
    rw [htarget] at h
    cases (eq_of_mem_say h).1
  | true =>
    rw [htarget] at h
    cases hsaved : s.workspace.saveSnapshot s.automaton (s.target file) s.config.library with
    | mk w failure =>
      simp only [Bool.not_true, Bool.false_eq_true, if_false, hsaved] at h ⊢
      refine ⟨trivial, ?_⟩
      rcases failure with _ | (e | _)
      · exact ⟨w, rfl, rfl⟩
      · cases e with
        | nulInName => cases h
        | _ => cases (eq_of_mem_say h).1
      · cases (eq_of_mem_say h).1

/-- A command that has a file compiled names one. -/
lemma isWord_of_reported (hs : s.finished = false)
    (hblank : ∀ c ∈ file.toList, Text.isBlank c = false)
    (h : (Diagnostic.compiled file).message line ∈ (s.process ("COMPILE " ++ file) line).output) :
    Text.IsWord file.toList := by
  refine ⟨fun hnil => ?_, hblank⟩
  obtain rfl : file = "" := String.toList_eq_nil_iff.1 hnil
  have htext : "COMPILE " ++ "" = String.ofList (commandText .compile []) := by decide
  obtain ⟨entry, hprocess⟩ := process_keyword hs .compile (List.not_mem_nil (a := ';')) line
  rw [htext, hprocess] at h
  cases (eq_of_mem_say h).1

/-- **What a COMPILE leaves that reported success**: the snapshot in the file that the name leads
to, and every other file as it was, but for that of the log. -/
lemma compiled_of_reported (hs : s.finished = false) (hasks : Asks text .compile file)
    (h : (Diagnostic.compiled file).message line ∈ (s.process text line).output) :
    s.config.isCompileTarget file = true ∧ ∃ place bytes,
      Snapshot.encode s.automaton s.config.library = some bytes ∧
      Workspace.Alike {other | other = place ∨ s.logPlace? = some other} s.workspace
        (s.process text line).state.workspace ∧
      (s.process text line).state.workspace.locate (s.target file) = .ok place ∧
      (s.logPlace? ≠ some place →
        (s.process text line).state.workspace.Holds (s.target file) place bytes) := by
  obtain ⟨entry, body, hprocess⟩ := process_asks hs hasks line
  have hprocess : s.process text line = (s.record entry).compile file line := hprocess
  rw [hprocess] at h ⊢
  obtain ⟨htarget, w, hsaved, hcompile⟩ := compile_of_reported h
  obtain ⟨place, bytes, hbytes, hput, hholds⟩ := Workspace.holds_saveSnapshot hsaved
  rw [hcompile]
  set report := ((Diagnostic.compiled file).message line).render
  have hlog : logPlace? { s.record entry with workspace := w } = s.logPlace? :=
    logPlace?_record s entry
  have hreport := alike_record { s.record entry with workspace := w } report
  rw [hlog] at hreport
  refine ⟨htarget, place, bytes, hbytes, ?_, hreport.locate_eq_ok hholds.locate, fun hother => ?_⟩
  · have hentry := (alike_record s entry).mono fun other => Or.inr (a := other = place)
    have hput := hput.mono fun other => Or.inl (b := s.logPlace? = some other)
    exact (hentry.trans hput).trans (hreport.mono fun other => Or.inr (a := other = place))
  · exact hholds.alike hreport ((hreport.content place hother).trans hholds.content)

/-- **What a LOAD does** whose file holds the snapshot of an automaton. -/
lemma load_of_holds {place : Location} {bytes : List UInt8} {a : Automaton}
    (hlibrary : s.config.library.KeepsAutomata) (ha : a.WellFormed)
    (hbytes : Snapshot.encode a s.config.library = some bytes) (hs : s.finished = false)
    (hasks : Asks text .load file) (hbinary : s.config.isBinary file = true)
    (hlog : s.logPlace? ≠ some place)
    (hholds : s.workspace.Holds (s.target file) place bytes) (line : Option Int) :
    (s.process text line).failure = none ∧
      (s.process text line).output = [(Diagnostic.loaded file).message line] ∧
      (s.process text line).state.automaton.IsCopyOf a := by
  obtain ⟨entry, body, hprocess⟩ := process_asks hs hasks line
  have hloaded : (s.record entry).snapshotAt file
      = .ok { a with finals := Automaton.sorted a.finals } := by
    refine (hholds.alike (alike_record s entry) ?_).loadSnapshot hlibrary ha hbytes
    rw [get?_record hlog, hholds.content]
  have hload : s.process text line = (s.record entry).restore file line :=
    hprocess.trans (if_pos hbinary)
  rw [hload]
  unfold restore
  rw [hloaded]
  exact ⟨rfl, rfl, rfl, rfl, rfl, Automaton.sorted_perm a.finals, rfl⟩

/-- CLEAR begins a command and removes everything. -/
lemma process_clear (hs : s.finished = false) (line : Option Int) : s.process "CLEAR" line
    = .done { s.record (s.config.prompt ++ "CLEAR") with automaton := {} } := by
  rw [process_eq, processAt, processWith, if_neg (by simp [hs])]
  rfl

/-- **COMPILE and then LOAD.**  Take any platform whose library keeps automata, and a configuration
in which every name without blanks that is accepted for COMPILE has one of the endings.  Let COMPILE
report success for such a name that does not end in a semicolon.  Then it has written the file that
the name leads to, and no other but that of the log; with the names and the working directory of the
default configuration this is a file directly inside that directory.  Any later LOAD of the name
says that the file was loaded and brings the automaton back, if the session still runs, the file
still holds what COMPILE left in it, and no log was open on it at the one time or is at the other.
The default configuration is one of those in question, and the library that is built in keeps
automata. -/
theorem load_compiled (hs : s.Reachable) (hopen : s.finished = false)
    (hlibrary : s.config.library.KeepsAutomata) (hnames : s.config.NamesAgree)
    (hblank : ∀ c ∈ file.toList, Text.isBlank c = false)
    (hend : file.toList.getLast? ≠ some ';')
    (hcompiled : (Diagnostic.compiled file).message line
      ∈ (s.process ("COMPILE " ++ file) line).output) :
    Config.standard.NamesAgree ∧ Snapshot.Library.standard.KeepsAutomata ∧ ∃ place,
      s.workspace.locate (s.target file) = .ok place ∧
      (s.config.accepts = Config.standard.accepts → s.config.workDir = none →
        place = s.workspace.home ++ [file]) ∧
      Workspace.Alike {other | other = place ∨ s.logPlace? = some other} s.workspace
        (s.process ("COMPILE " ++ file) line).state.workspace ∧
      ∀ (steps : List Step) (line' : Option Int),
        let compiled := (s.process ("COMPILE " ++ file) line).state
        let later := after compiled steps
        later.finished = false → s.logPlace? ≠ some place → later.logPlace? ≠ some place →
        later.workspace.get? place = compiled.workspace.get? place →
          (later.process ("LOAD " ++ file) line').failure = none ∧
          (later.process ("LOAD " ++ file) line').output
            = [(Diagnostic.loaded file).message line'] ∧
          (later.process ("LOAD " ++ file) line').state.automaton.IsCopyOf s.automaton := by
  have hword := isWord_of_reported hopen hblank hcompiled
  have hasks : Asks ("COMPILE " ++ file) .compile file := asks_word .compile hword hend
  obtain ⟨htarget, place, bytes, hbytes, halike, hlocate, hholds⟩ :=
    compiled_of_reported hopen hasks hcompiled
  have hplace := halike.symm.locate_eq_ok hlocate
  refine ⟨Config.namesAgree_standard, Snapshot.Library.keepsAutomata_standard, place, hplace,
    fun haccepts hfolder => ?_, halike, ?_⟩
  · rw [target, Config.resolve, hfolder] at hplace
    rw [Config.isCompileTarget, haccepts] at htarget
    exact locate_archiveName hblank htarget hplace
  · intro steps line' compiled later hlater hlog hlog' hcontent
    have hframe : later.config = s.config :=
      (frame_after compiled steps).config.trans (frame_process s _ line).config
    have htarget' : later.target file = s.target file := by rw [target, target, hframe]
    have hheld : later.workspace.Holds (later.target file) place bytes := by
      rw [htarget']
      exact (hholds hlog).alike (alike_after compiled steps)
        (hcontent.trans (hholds hlog).content)
    rw [← hframe] at hlibrary hbytes
    refine load_of_holds hlibrary hs.wellFormed hbytes hlater (asks_word .load hword hend) ?_ hlog'
      hheld line'
    rw [hframe]
    exact hnames file hblank htarget

/-- A snapshot of two states, loaded after everything was cleared. -/
theorem load_compiled_cleared :
    let s := (((Session.start Config.standard { home := ["w"], files := [] }).process
      "STATES a b" none).state.process "SYMBOLS 0" none).state
    let later := after (s.process "COMPILE m.fsm" none).state [.ask (.command "CLEAR" none)]
    s.automaton.states = ["A", "B"] ∧ later.automaton = {} ∧
      (later.process "LOAD m.fsm" none).output = [⟨.info, "loaded m.fsm", none⟩] ∧
      (later.process "LOAD m.fsm" none).state.automaton.IsCopyOf s.automaton := by
  intro s
  have hs : s.Reachable := .process (.process (.start validate_standard _) _ _) _ _
  have hconfig : s.config = Config.standard :=
    (frame_process _ _ _).config.trans (frame_process _ _ _).config
  obtain ⟨hopen, hlog, hstates⟩ : s.finished = false ∧ s.logPlace? = none ∧
      s.automaton.states = ["A", "B"] := by decide +kernel
  obtain ⟨hreported, hopen', hlog'⟩ : (Diagnostic.compiled "m.fsm").message none
      ∈ (s.process "COMPILE m.fsm" none).output ∧
      (s.process "COMPILE m.fsm" none).state.finished = false ∧
      (s.process "COMPILE m.fsm" none).state.logPlace? = none := by decide +kernel
  have hload := @load_compiled s "m.fsm" none
  rw [show "COMPILE " ++ "m.fsm" = "COMPILE m.fsm" by decide,
    show "LOAD " ++ "m.fsm" = "LOAD m.fsm" by decide] at hload
  clear_value s
  obtain ⟨-, -, place, -, -, -, hload⟩ := hload hs hopen
    (hconfig ▸ Snapshot.Library.keepsAutomata_standard) (hconfig ▸ Config.namesAgree_standard)
    (by simp [Text.isBlank]) (by decide) hreported
  generalize (s.process "COMPILE m.fsm" none).state = compiled at *
  intro later
  have hlater : later = { compiled.record _ with automaton := {} } :=
    congrArg Outcome.state (process_clear hopen' none)
  have hlater_log : later.logPlace? = none := by
    rw [hlater]
    exact (logPlace?_record compiled _).trans hlog'
  have hcontent : later.workspace.get? place = compiled.workspace.get? place := by
    rw [hlater]
    exact get?_record (by simp [hlog']) _
  obtain ⟨-, houtput, hcopy⟩ := hload [.ask (.command "CLEAR" none)] none
    ((congrArg finished hlater).trans hopen')
    (by simp [hlog]) (ne_of_eq_of_ne hlater_log (by simp)) hcontent
  exact ⟨hstates, congrArg automaton hlater, houtput, hcopy⟩

end Session

end AutomatonShell
