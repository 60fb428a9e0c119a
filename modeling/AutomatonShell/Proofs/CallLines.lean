import AutomatonShell.Proofs.CommandCharacters
import AutomatonShell.Proofs.SnapshotWording

/-!
# Calls that are answered on lines

As long as the names of the automaton are on one line, there are few ways for a newline to get into
an answer: a group of TRANSITIONS that is shown as it was typed, the name of a file that is loaded,
and what a snapshot stores (`Task.BringsNewline`).  A call that makes no such calls is answered on
lines and leaves names on lines (`OnLines`), whatever scripts it replays.

* `OnLines`, `Brief.onLines` — replies on lines.
* `Task.BringsNewline`, **`Task.onLines_run`** — one task.
* **`onLines_answerAt`** — one call, with the scripts that it replays.
* `Task.ShowsNewline`, `Task.ShowsNewline.exists_said` — the ways out.
-/

namespace AutomatonShell

/-- **How a run ends** is said on one line. -/
lemma Automaton.HasLineNames.onLine_walkFrom {a : Automaton} (h : a.HasLineNames) {q : String}
    (hq : q ∈ a.states) {text : List Char} (htext : '\n' ∉ text) :
    (a.walkFrom q text).diagnostic.OnLine := by
  rw [walkFrom]
  cases hvisits : a.visits q text with
  | error e =>
    obtain ⟨before, c, after, trace, state, rfl, htrace, hlast, hnext⟩ := visits_eq_error hvisits
    have hc : IsLine (String.singleton c) := by
      rw [IsLine, String.toList_singleton, List.mem_singleton]
      rintro rfl
      exact htext (List.mem_append_right _ List.mem_cons_self)
    have hstate : IsLine state := h.isLine_state
      (walk_visits_mem h.wellFormed hq htrace state (List.mem_of_getLast? hlast))
    refine List.forall_mem_singleton.2 ?_
    rcases next_eq_error.1 hnext with ⟨-, rfl⟩ | ⟨-, -, rfl⟩
    · exact (isLine_behind (by decide)).2 hc
    · have hmiddle : IsLine " in state " := isLine_ofList.2 (by decide)
      have hfront : IsLine ("no transition for " ++ String.singleton c) :=
        (isLine_behind (by decide)).2 hc
      exact isLine_append.2 ⟨isLine_append.2 ⟨hfront, hmiddle⟩, hstate⟩
  | ok trace =>
    have hspace : IsLine " " := isLine_ofList.2 (by decide)
    have hverdict : ∀ accepted, IsLine (if accepted = true then "YES" else "NO") := by
      intro accepted
      cases accepted <;> exact isLine_ofList.2 (by decide)
    refine List.forall_mem_singleton.2 ((isLine_intercalate hspace).2 ?_)
    refine List.forall_mem_append.2 ⟨fun p hp => ?_, List.forall_mem_singleton.2 (hverdict _)⟩
    exact h.isLine_state (walk_visits_mem h.wellFormed hq hvisits p hp)

namespace Session

/-! ## Replies -/

/-- **A reply on lines**: its messages are on one line, and so are the names that it leaves. -/
structure OnLines (r : Reply) : Prop where
  said : ∀ m ∈ r.output, IsLine m.render
  names : r.state.automaton.HasLineNames

lemma OnLines.andThen {first : Reply} {next : Session → Reply} (hfirst : OnLines first)
    (hnext : first.failure = none → OnLines (next first.state)) : OnLines (first.andThen next) := by
  cases hfailure : first.failure with
  | some fault => rwa [Outcome.andThen_of_failure_eq_some hfailure]
  | none =>
    obtain ⟨hsaid, hnames⟩ := hnext hfailure
    rw [Outcome.andThen_of_failure_eq_none hfailure]
    exact ⟨List.forall_mem_append.2 ⟨hfirst.said, hsaid⟩, hnames⟩

section

variable {s : Session} (h : s.automaton.HasLineNames) {file : String} {line : Option Int}

include h

lemma onLines_done : OnLines (.done s) := ⟨List.forall_mem_nil _, h⟩

lemma onLines_stop (fault : Fault) : OnLines (.stop s fault) := ⟨List.forall_mem_nil _, h⟩

lemma onLines_say {d : Diagnostic} (hd : d.OnLine) : OnLines (s.say line d) :=
  ⟨List.forall_mem_singleton.2 (Diagnostic.isLine_message_iff.2 hd), h⟩

lemma onLines_sayAll {ds : List Diagnostic} (hds : ∀ d ∈ ds, d.OnLine) :
    OnLines (s.sayAll line ds) := by
  obtain ⟨-, houtput, -⟩ := sayAll_eq s line ds
  refine ⟨?_, by rwa [automaton_sayAll]⟩
  rw [houtput]
  exact List.forall_mem_map.2 fun d hd => Diagnostic.isLine_message_iff.2 (hds d hd)

lemma onLines_listAll : OnLines (s.listAll line) := by
  have hlisting : ∀ text ∈ s.automaton.listing, IsLine text := by
    intro text htext
    rw [Automaton.listing_eq] at htext
    obtain ⟨letters, hletters, rfl⟩ := List.mem_map.1 htext
    rw [isLine_ofList, List.mem_append, not_or]
    refine ⟨fun hmem => ?_, by decide⟩
    have hlisted := ((h.wellFormed.plainNames h.plain).isTrimmed_of_mem hletters).2 _ hmem
    exact absurd hlisted.not_isLineBoundary (by decide)
  rw [listAll]
  split
  · exact onLines_say h (List.forall_mem_nil _)
  · next lines _ =>
    refine onLines_sayAll h (List.forall_mem_map.2 fun text htext => ?_)
    exact List.forall_mem_singleton.2 (hlisting text htext)

lemma onLines_execute {text : String} (htext : IsLine text) : OnLines (s.execute text line) := by
  rw [execute_eq h.wellFormed]
  refine onLines_say h ?_
  split
  · exact List.forall_mem_nil _
  · next q hq => exact h.onLine_walkFrom (h.wellFormed.initial_mem q hq) htext

lemma onLines_exit : OnLines (s.exit line) :=
  ⟨List.forall_mem_singleton.2 (Diagnostic.isLine_message_iff.2 (List.forall_mem_nil _)), h⟩

end

/-- A brief answer is on lines if all that it could say is. -/
lemma Brief.onLines {s : Session} {line : Option Int} {answers : Diagnostic → Prop} {r : Reply}
    (hr : Brief s line answers r) (h : s.automaton.HasLineNames)
    (hanswers : ∀ d, answers d → d.OnLine) : OnLines r := by
  cases hr with
  | done => exact onLines_done h
  | say expected => exact onLines_say h (hanswers _ expected)
  | stop => exact onLines_stop h _

/-- **A snapshot that brings a newline**: in the name of a state, or in what the wording of its
error shows as it stands. -/
inductive SnapshotBringsNewline (loaded : Except LoadError Automaton) : Prop
  | state {a : Automaton} {q : String} (restored : loaded = .ok a) (mem : q ∈ a.states)
      (newline : ¬ IsLine q)
  | refusal {e : SnapshotError} {part : String} (refused : loaded = .error (.snapshot e))
      (mem : part ∈ e.shown) (newline : ¬ IsLine part)

/-- **A snapshot that brings no newline** is restored, or refused, on one line. -/
lemma onLines_restore {s : Session} (h : s.automaton.HasLineNames) {file : String}
    (hfile : IsLine file) (hloaded : ¬ SnapshotBringsNewline (s.snapshotAt file))
    (line : Option Int) : OnLines (s.restore file line) := by
  have hnames : ((s.snapshotAt file).toOption.getD s.automaton).HasLineNames := by
    cases hload : s.snapshotAt file with
    | error e => exact h
    | ok a =>
      exact .of_isLine (Workspace.loadSnapshot_wellFormed hload)
        fun q hq => not_not.1 fun hnot => hloaded (.state hload hq hnot)
  refine (brief_restore s file line).onLines hnames ?_
  rintro d (rfl | rfl | rfl | ⟨e, he, hnumber, hread, rfl⟩)
  · exact List.forall_mem_singleton.2 hfile
  · exact List.forall_mem_singleton.2 hfile
  · exact List.forall_mem_singleton.2 hfile
  · have hmessage : IsLine e.message := (SnapshotError.isLine_message_iff hnumber hread).2
      fun part hpart => not_not.1 fun hnot => hloaded (.refusal he hpart hnot)
    exact List.forall_mem_cons.2 ⟨hfile, List.forall_mem_singleton.2 hmessage⟩

/-! ## Tasks -/

/-- **A task that brings a newline**: a broken group, a newline in the name of the file to LOAD, or
a snapshot that brings one. -/
inductive Task.BringsNewline (t : Task) : Prop
  | group {group : List Char} (keyword : t.keyword = .transitions)
      (mem : group ∈ t.body.splitOn ',') (broken : IsBroken group)
  | name {file : String} (loads : t.file? = some file) (newline : ¬ IsLine file)
  | snapshot {file : String} (loads : t.file? = some file)
      (binary : t.session.config.isBinary file = true)
      (content : SnapshotBringsNewline (t.session.snapshotAt file))

section

variable {t : Task} (h : t.session.automaton.HasLineNames) (hline : ¬ t.BringsNewline)
  (hscript : t.script? = none)

include h hline hscript

/-- A LOAD that replays no script. -/
lemma onLines_load {file : String} (hfile : t.file? = some file) (process : Action) :
    OnLines (load process t.session file t.line) := by
  have hname : IsLine file := not_not.1 fun hnot => hline (.name hfile hnot)
  obtain ⟨r, hr, hload⟩ := t.exists_unopened hfile hscript
  rw [hload]
  rcases hr.restore_or_brief with ⟨hbinary, rfl⟩ | hbrief
  · exact onLines_restore h hname (fun hnot => hline (.snapshot hfile hbinary hnot)) _
  · refine hbrief.onLines h ?_
    rintro d (rfl | rfl) <;> exact List.forall_mem_singleton.2 hname

/-- **A task that brings no newline** speaks on lines. -/
lemma Task.onLines_run
    (hwords : t.file? = none → ∀ word ∈ t.words, ∀ c ∈ word.toList, Text.isBlank c = false)
    (process : Action) : OnLines (t.run (load process)) := by
  have hload : ∀ file, t.file? = some file → OnLines (load process t.session file t.line) :=
    fun file hfile => onLines_load h hline hscript hfile process
  have hgroups : t.keyword = .transitions → ∀ group ∈ t.body.splitOn ',', ¬ IsBroken group :=
    fun hkeyword group hgroup hbroken => hline (.group hkeyword hgroup hbroken)
  have hword : t.file? = none → ∀ word ∈ t.words, IsLine word :=
    fun hfile word hmem => isLine_of_not_isBlank (hwords hfile word hmem)
  clear hscript hline
  obtain ⟨s, keyword, words, body, line⟩ := t
  obtain ⟨handler, hhandles, hperform⟩ := exists_handles keyword words body
  rw [run, hperform]
  cases hhandles with dsimp only
  | define defines =>
    have hblank := hwords (by cases keyword <;> first | rfl | exact absurd defines (by decide))
    obtain ⟨-, -, houtput⟩ := declare_eq (s.automaton.define_failure keyword words body) s line
    refine ⟨?_, ?_⟩
    · rw [houtput]
      exact List.forall_mem_map.2 fun d hd =>
        Diagnostic.isLine_message_iff.2 (h.onLine_define hblank keyword hgroups d hd)
    · rw [automaton_declare]
      exact h.define hblank keyword body
  | arity => exact onLines_say h (List.forall_mem_nil _)
  | listAll => exact onLines_listAll h
  | print file =>
    have hfile : IsLine file := hword rfl file List.mem_cons_self
    refine (brief_print s file line).onLines h ?_
    rintro d (rfl | rfl) <;> exact List.forall_mem_singleton.2 hfile
  | execute text => exact onLines_execute h (hword rfl text List.mem_cons_self)
  | compile file =>
    have hfile : IsLine file := hword rfl file List.mem_cons_self
    refine (brief_compile s file line).onLines h ?_
    rintro d (rfl | rfl | rfl) <;> exact List.forall_mem_singleton.2 hfile
  | load file => exact hload file rfl
  | stopLog =>
    refine (brief_stopLog s line).onLines ?_ ?_
    · split_ifs <;> exact h
    · rintro d (rfl | rfl) <;> exact List.forall_mem_nil _
  | openLog file =>
    have hfile : IsLine file := hword rfl file List.mem_cons_self
    obtain ⟨opened, -, hopened⟩ := brief_openLog s file line
    refine hopened.onLines h ?_
    rintro d rfl
    exact List.forall_mem_singleton.2 hfile
  | exit => exact onLines_exit h

end

/-- **A task that shows a newline**: a broken group of TRANSITIONS, a snapshot that is refused with
a newline in the wording, or the bare STATES when the name of a state has one. -/
inductive Task.ShowsNewline (t : Task) : Prop
  | group {group : List Char} (keyword : t.keyword = .transitions)
      (mem : group ∈ t.body.splitOn ',') (broken : IsBroken group)
  | refused {file : String} {e : SnapshotError} {part : String} (loads : t.file? = some file)
      (binary : t.session.config.isBinary file = true)
      (content : t.session.snapshotAt file = .error (.snapshot e))
      (mem : part ∈ e.shown) (newline : ¬ IsLine part)
  | states {q : String} (keyword : t.keyword = .states) (words : t.words = [])
      (mem : q ∈ t.session.automaton.states) (newline : ¬ IsLine q)

/-- **What shows a newline is said on several lines.** -/
lemma Task.ShowsNewline.exists_said {t : Task} (h : t.ShowsNewline) (process : Action) :
    ∃ m ∈ (t.run (load process)).output, ¬ IsLine m.render := by
  obtain ⟨s, keyword, words, body, line⟩ := t
  have hsay : ∀ {d : Diagnostic}, ¬ d.OnLine → ∃ m ∈ (s.say line d).output, ¬ IsLine m.render :=
    fun {d} hd => ⟨_, List.mem_singleton_self _, fun hm => hd (Diagnostic.isLine_message_iff.1 hm)⟩
  cases h with
  | @group group hkeyword hmem hbroken =>
    obtain rfl : keyword = .transitions := hkeyword
    have hshown := s.automaton.malformed_mem_declareTransitions hmem hbroken
    obtain ⟨-, -, houtput⟩ := declare_eq (s.automaton.declareTransitions_failure body) s line
    obtain ⟨m, hm, hbreaks⟩ := hsay (d := .malformedTransition (String.ofList (Text.strip group)))
      fun hd => isLine_ofList.1 (List.forall_mem_singleton.1 hd) hbroken.2
    obtain rfl := List.mem_singleton.1 hm
    refine ⟨_, ?_, hbreaks⟩
    show _ ∈ (s.declare line (s.automaton.declareTransitions body)).output
    rw [houtput]
    exact List.mem_map_of_mem hshown
  | @refused file e part hfile hbinary hcontent hmem hnewline =>
    have hnumber : ∀ kind, e ≠ .notNumber kind := by
      rintro kind rfl
      cases hmem
    have hread : ∀ f, e ≠ .unreadable f := by
      rintro f rfl
      cases hmem
    have hrun : run (load process) ⟨s, keyword, words, body, line⟩
        = s.say line (.cannotLoad file e) := by
      rw [run_of_file? hfile, load, if_pos hbinary]
      unfold restore
      rw [hcontent]
      cases e <;> first | rfl | cases hmem
    rw [hrun]
    refine hsay fun hd => ?_
    have hmessage : IsLine e.message :=
      hd e.message (List.mem_cons_of_mem file (List.mem_singleton_self _))
    exact hnewline ((SnapshotError.isLine_message_iff hnumber hread).1 hmessage part hmem)
  | @states q hkeyword hwords hmem hnewline =>
    obtain ⟨rfl, rfl⟩ : keyword = .states ∧ words = [] := ⟨hkeyword, hwords⟩
    exact hsay fun hd => hnewline (hd q hmem)

/-! ## Calls -/

/-- **A call that brings a newline.** -/
def Call.BringsNewline (c : Call) : Prop := ∃ t, c.task? = some t ∧ t.BringsNewline

section

variable {c : Call} {t : Task} {script : Script} {bound : Nat}

lemma Task.file?_of_script? (h : t.script? = some script) : t.file? = some script.file := by
  simp only [script?, Option.bind_eq_some_iff] at h
  obtain ⟨file, hfile, place, -, h⟩ := h
  split_ifs at h
  split at h
  · cases h
  · split at h
    · cases h
    · obtain rfl := Option.some.inj h
      exact hfile

lemma Task.mem_words_of_file? {file : String} (h : t.file? = some file) : file ∈ t.words := by
  rw [file?] at h
  split at h
  · next word _ hwords =>
    obtain rfl := Option.some.inj h
    rw [hwords]
    exact List.mem_singleton_self _
  · cases h

/-- The words of a command hold no blanks. -/
lemma Call.not_isBlank_of_task? (ht : c.task? = some t) (hfile : t.file? = none) :
    ∀ word ∈ t.words, ∀ ch ∈ word.toList, Text.isBlank ch = false := by
  cases makes_of_task? ht with
  | file => cases hfile
  | command running parsed => exact not_isBlank_of_ofText? parsed

/-- A call without a task shows at most a word. -/
lemma onLines_of_task?_eq_none (h : c.session.automaton.HasLineNames) (ht : c.task? = none)
    (bound : Nat) : OnLines (answerAt (bound + 1) c) := by
  cases Call.idle_of_task?_eq_none ht with
  | finished finished =>
    rw [answerAt_of_finished finished]
    exact onLines_done h
  | blank running blank =>
    rw [answerAt_of_blank blank]
    exact onLines_done h
  | unknown running parsed unknown =>
    rw [answerAt_of_unknown running parsed unknown]
    exact onLines_say (by exact h) (List.forall_mem_singleton.2 (isLine_first_of_ofText? parsed))

/-- The commands of a script, one after the other. -/
lemma onLines_processAll
    (hanswer : ∀ c : Call, c.session.automaton.HasLineNames →
      (∀ d ∈ begunAt bound c, ¬ d.BringsNewline) → OnLines (answerAt bound c))
    {s : Session} (h : s.automaton.HasLineNames) {commands : List NumberedCommand}
    (hcalls : ∀ d ∈ followed (processAt bound) (begunAt bound) s commands, ¬ d.BringsNewline) :
    OnLines (processAll (processAt bound) s commands) := by
  induction commands generalizing s with
  | nil => exact onLines_done h
  | cons command rest ih =>
    rw [followed, List.forall_mem_append] at hcalls
    have hfirst := hanswer ⟨s, .command command.2 (some command.1)⟩ h hcalls.1
    rw [← processAt_eq] at hfirst
    rw [processAll, Outcome.forEach]
    refine hfirst.andThen fun hfailure => ?_
    exact ih hfirst.names (by simpa [hfailure] using hcalls.2)

/-- **A call is answered on lines**, if none of the calls that it makes brings a newline, by
induction on the bound on nesting. -/
theorem onLines_answerAt (bound : Nat) (c : Call) (h : c.session.automaton.HasLineNames)
    (hcalls : ∀ d ∈ begunAt bound c, ¬ d.BringsNewline) : OnLines (answerAt bound c) := by
  induction bound generalizing c with
  | zero => exact onLines_stop h _
  | succ bound ih =>
    cases ht : c.task? with
    | none => exact onLines_of_task?_eq_none h ht bound
    | some t =>
      have hnames : t.session.automaton.HasLineNames := by rwa [Call.automaton_of_task? ht]
      have hself : ¬ t.BringsNewline := by
        refine fun hbrings => hcalls c ?_ ⟨t, ht, hbrings⟩
        rw [begunAt]
        exact List.mem_cons_self
      cases hscript : t.script? with
      | none =>
        rw [answerAt_of_task? ht]
        exact Task.onLines_run hnames hself hscript (Call.not_isBlank_of_task? ht) _
      | some script =>
        have hopened : c.opened? = some (t, script) := Call.opened?_eq_some.2 ⟨ht, hscript⟩
        rw [begunAt_of_opened? hopened, List.forall_mem_cons] at hcalls
        obtain ⟨hsaid, hleft⟩ := onLines_processAll ih (s := t.enter script) hnames hcalls.2
        have hfile : IsLine script.file := not_not.1 fun hnot =>
          hself (.name (Task.file?_of_script? hscript) hnot)
        rw [answerAt_of_opened? hopened, Task.leave]
        refine OnLines.andThen ⟨hsaid, hleft⟩ fun _ => ?_
        split_ifs
        · exact onLines_done hleft
        · exact onLines_say (by exact hleft) (List.forall_mem_cons.2
            ⟨hfile, List.forall_mem_singleton.2 (isLine_of_script? hscript).2⟩)

end

end Session

end AutomatonShell
