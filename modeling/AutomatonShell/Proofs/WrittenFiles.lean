import AutomatonShell.Proofs.EditedParts
import AutomatonShell.Proofs.Recording
import AutomatonShell.Proofs.SpelledPaths

/-!
# Which files a run writes

Apart from the open log, a file is written only by a command that names it.  In the course of events
of a run there are two kinds that store something in a file, and each of them is owed to a call that
was begun: a PRINT, COMPILE or LOG, with the name of this file (`exists_writer`).  All other events
write to the log, and at a place that no call names they leave what was there, but for lines of a
log that was open before the run and has its place there (`adds_after`).

* `Workspace.place_of_create`, `Location.ofText_slashes` — what a path leads to is what its text
  says.
* `Task.written?`, `Event.stores?` — the place of the file that a command names, and the place that
  an event stores something at.
* **`exists_writer`** — every file that is stored is named by a call.
* `Journal.Adds`, `adds_after` — what becomes of a place that is not stored at.
* **`changes_of_call`** — what a call may change, of the automaton and of the files.
-/

namespace AutomatonShell

/-! ## Places -/

lemma Path.rootOf_eq_relative_iff {text : String} :
    rootOf text = .relative ↔ text.toList.head? ≠ some '/' := by
  rw [rootOf]
  cases htext : text.toList with
  | nil => simp
  | cons c rest =>
    by_cases hc : c = '/'
    · subst hc
      simp only [List.takeWhile_cons, beq_self_eq_true, if_true, List.length_cons,
        List.head?_cons, ne_eq, not_true, iff_false]
      split <;> simp_all
    · simp [hc]

namespace Workspace

variable {w w' : Workspace} {path : String} {place : Location}

/-- **A file that is created** is at the place that the text of its path says. -/
lemma place_of_create (h : w.create path = .ok (place, w')) :
    place = Location.ofText w.home path := by
  rw [create] at h
  obtain ⟨found, hfound, h⟩ := bind_eq_ok.1 h
  split_ifs at h
  obtain ⟨rfl, -⟩ := Prod.mk.inj (Except.ok.inj h)
  obtain ⟨-, -, -, hdescend⟩ := locate_eq_ok.1 hfound
  rw [descend_eq_ok hdescend, startOf, Location.ofText]
  congr 1
  by_cases hroot : path.toList.head? = some '/'
  · rw [if_pos hroot, if_neg fun h => Path.rootOf_eq_relative_iff.1 h hroot]
  · rw [if_neg hroot, if_pos (Path.rootOf_eq_relative_iff.2 hroot)]

end Workspace

namespace Location

/-- A place as file systems have them: its names are no texts that mean something else. -/
def IsProper (place : Location) : Prop :=
  ∀ name ∈ place, name ≠ "" ∧ '/' ∉ name.toList ∧ name ≠ "." ∧ name ≠ ".."

lemma IsProper.follow {here : Location} (h : here.IsProper) {names : List String}
    (hnames : ∀ name ∈ names, name ≠ "" ∧ '/' ∉ name.toList) :
    (Location.follow here names).IsProper := by
  induction names generalizing here with
  | nil => exact h
  | cons name rest ih =>
    rw [List.forall_mem_cons] at hnames
    refine @ih (step here name) ?_ hnames.2
    rw [step]
    split_ifs with hdot hdots
    · exact h
    · exact fun other hother => h other (List.dropLast_subset here hother)
    · refine List.forall_mem_append.2 ⟨h, ?_⟩
      rw [List.forall_mem_singleton]
      exact ⟨hnames.1.1, hnames.1.2, hdot, hdots⟩

/-- Plain names lead to the place that they are. -/
lemma follow_of_isProper {names : List String} (h : Location.IsProper names) (here : Location) :
    Location.follow here names = here ++ names := by
  induction names generalizing here with
  | nil => simp [Location.follow]
  | cons name rest ih =>
    rw [IsProper, List.forall_mem_cons] at h
    have hstep : step here name = here ++ [name] := by
      rw [step, if_neg h.1.2.2.1, if_neg h.1.2.2.2]
    have hrest := ih h.2 (here ++ [name])
    rw [Location.follow, List.foldl_cons, hstep, ← Location.follow, hrest]
    simp

/-- **A place spelled out** with a slash in front is read back. -/
lemma ofText_slashes {place : Location} (h : place.IsProper) (home : Location) :
    Location.ofText home ("/" ++ String.intercalate "/" place) = place := by
  have hspelled : "/" ++ String.intercalate "/" place
      = String.ofList (Path.spelled 1 (place.map String.toList)) := by
    rw [← String.toList_inj, String.toList_append, String.toList_intercalate, String.toList_ofList,
      String.toList_ofList]
    rfl
  have hnames : Path.namesOf ("/" ++ String.intercalate "/" place) = place := by
    rw [hspelled, Path.namesOf_spelled, List.map_map]
    · simp [Function.comp_def]
    · intro chars hchars
      obtain ⟨name, hmem, rfl⟩ := List.mem_map.1 hchars
      exact ⟨fun hnil => (h name hmem).1 (String.toList_eq_nil_iff.1 hnil), (h name hmem).2.1⟩
  have hroot : Path.rootOf ("/" ++ String.intercalate "/" place) ≠ .relative := by
    rw [ne_eq, Path.rootOf_eq_relative_iff, hspelled, String.toList_ofList]
    simp [Path.spelled]
  rw [ofText, hnames, if_neg hroot, follow_of_isProper h, List.nil_append]

lemma IsProper.ofText {home : Location} (h : home.IsProper) (text : String) :
    (Location.ofText home text).IsProper := by
  have hnames : ∀ name ∈ Path.namesOf text, name ≠ "" ∧ '/' ∉ name.toList := by
    intro name hname
    obtain ⟨chars, hchars, rfl⟩ := List.mem_map.1 hname
    obtain ⟨hmem, hne⟩ := List.mem_filter.1 hchars
    refine ⟨fun hempty => ?_, ?_⟩
    · have hnil : chars = [] := by simpa using congrArg String.toList hempty
      simp [hnil] at hne
    · rw [String.toList_ofList]
      exact not_mem_of_mem_splitOn hmem
  rw [Location.ofText]
  split_ifs
  · exact h.follow hnames
  · exact IsProper.follow (by simp [IsProper]) hnames

end Location

namespace Session

variable {t : Task} {c : Call} {bound : Nat} {place : Location}

/-! ## Who stores a file -/

/-- **The place of the file that a command names to write it.**  LOG spells the place out before it
opens the file. -/
def Task.written? (t : Task) : Option Location :=
  let place := fun file => Location.ofText t.session.workspace.home (t.session.target file)
  match t.keyword, t.words with
  | .print, [file] => some (place file)
  | .compile, [file] => some (place file)
  | .log, [file] =>
    some (Location.ofText t.session.workspace.home ("/" ++ String.intercalate "/" (place file)))
  | _, _ => none

/-- The place that an event stores something at. -/
def Event.stores? : Event → Option Location
  | stored place _ => some place
  | opened _ place _ => some place
  | _ => none

/-- A call that names the file at a place to write it. -/
def Call.Writes (c : Call) (place : Location) : Prop :=
  ∃ t, c.task? = some t ∧ t.written? = some place

/-- What is stored in a file that is created is stored at the place of its path. -/
lemma stores_storing {w : Workspace} {path : String} {content : Option (List UInt8)} :
    ∀ e ∈ storing w path content, ∀ p, e.stores? = some p → p = Location.ofText w.home path := by
  intro e he p hp
  rw [storing] at he
  split at he
  · cases he
  · next place' w' hcreate =>
    rw [← Workspace.place_of_create hcreate]
    rcases List.mem_cons.1 he with rfl | he
    · exact (Option.some.inj hp).symm
    · obtain ⟨bytes, -, rfl⟩ := Option.map_eq_some_iff.1 (Option.mem_toList.1 he)
      exact (Option.some.inj hp).symm

lemma stores_opening {w : Workspace} {codec? : Option Text.Codec} {path : String} :
    ∀ e ∈ opening w codec? path, ∀ p, e.stores? = some p →
      p = Location.ofText w.home ("/" ++ String.intercalate "/" (Location.ofText w.home path)) := by
  intro e he p hp
  rw [opening] at he
  split at he
  · cases he
  · next place' w' hcreate =>
    rw [← Workspace.place_of_create hcreate]
    split at he
    · rw [List.mem_singleton.1 he] at hp
      exact (Option.some.inj hp).symm
    · rw [List.mem_singleton.1 he] at hp
      exact (Option.some.inj hp).symm

/-- **A task stores only the file that it names.** -/
lemma written?_of_mem_before {e : Event} (he : e ∈ t.before) {p : Location}
    (hp : e.stores? = some p) : t.written? = some p := by
  obtain ⟨s, keyword, words, body, line⟩ := t
  rw [Task.before] at he
  split at he
  · next file hkeyword hwords =>
    obtain ⟨rfl, rfl⟩ : keyword = .print ∧ words = [file] := ⟨hkeyword, hwords⟩
    exact congrArg some (stores_storing e he p hp).symm
  · next file hkeyword hwords =>
    obtain ⟨rfl, rfl⟩ : keyword = .compile ∧ words = [file] := ⟨hkeyword, hwords⟩
    split_ifs at he
    · exact congrArg some (stores_storing e he p hp).symm
    · cases he
  · split_ifs at he
    · rw [List.mem_singleton.1 he] at hp
      cases hp
    · cases he
  · next file hkeyword hwords =>
    obtain ⟨rfl, rfl⟩ : keyword = .log ∧ words = [file] := ⟨hkeyword, hwords⟩
    rcases List.mem_cons.1 he with rfl | he
    · cases hp
    · exact congrArg some (stores_opening e he p hp).symm
  · cases he

/-- Nothing is stored by a command that is begun, by messages, and behind what is said. -/
lemma stores?_of_mem_begins {e : Event} (he : e ∈ c.begins) : e.stores? = none := by
  obtain ⟨line, -, rfl⟩ := Option.map_eq_some_iff.1 (Option.mem_toList.1 he)
  rfl

lemma stores?_of_mem_said {messages : List Message} {e : Event}
    (he : e ∈ messages.map Event.said) : e.stores? = none := by
  obtain ⟨m, -, rfl⟩ := List.mem_map.1 he
  rfl

lemma stores?_of_mem_behind {e : Event} (he : e ∈ t.behind) : e.stores? = none := by
  rw [Task.behind] at he
  split at he
  · rw [List.mem_singleton.1 he]
    rfl
  · cases he

lemma stores?_of_mem_leaving {script : Script} {replayed : Reply} {e : Event}
    (he : e ∈ Task.leaving script replayed) : e.stores? = none := by
  rw [Task.leaving] at he
  split_ifs at he
  · cases he
  · cases he
  · rw [List.mem_singleton.1 he]
    rfl

/-- What the commands of a script store. -/
lemma exists_writer_followed {e : Event}
    (h : ∀ c, e ∈ eventsAt bound c → ∃ d ∈ begunAt bound c, d.Writes place) (s : Session)
    (commands : List NumberedCommand)
    (he : e ∈ followedEvents (processAt bound) (eventsAt bound) s commands) :
    ∃ d ∈ followed (processAt bound) (begunAt bound) s commands, d.Writes place := by
  induction commands generalizing s with
  | nil => cases he
  | cons command rest ih =>
    rw [followedEvents] at he
    rw [followed]
    rcases List.mem_append.1 he with hfirst | hrest
    · obtain ⟨d, hd, hwrites⟩ := h _ hfirst
      exact ⟨d, List.mem_append_left _ hd, hwrites⟩
    · split_ifs at hrest ⊢
      · cases hrest
      · obtain ⟨d, hd, hwrites⟩ := ih _ hrest
        exact ⟨d, List.mem_append_right _ hd, hwrites⟩

/-- **Every file that a run stores is named by a call of the run**, by induction on the bound on
nesting. -/
theorem exists_writer {e : Event} (hp : e.stores? = some place) (bound : Nat) (c : Call)
    (he : e ∈ eventsAt bound c) : ∃ d ∈ begunAt bound c, d.Writes place := by
  have hnone : e.stores? ≠ none := by simp [hp]
  induction bound generalizing c with
  | zero => cases he
  | succ bound ih =>
    cases hopened : c.opened? with
    | some opened =>
      obtain ⟨t, script⟩ := opened
      rw [eventsAt, hopened] at he
      rw [begunAt_of_opened? hopened]
      rcases List.mem_append.1 he with he | he
      · exact absurd (stores?_of_mem_begins he) hnone
      · rcases List.mem_append.1 he with he | he
        · obtain ⟨d, hd, hwrites⟩ := exists_writer_followed ih _ _ he
          exact ⟨d, List.mem_cons_of_mem c hd, hwrites⟩
        · exact absurd (stores?_of_mem_leaving he) hnone
    | none =>
      rw [eventsAt, hopened] at he
      rw [begunAt_of_opened?_eq_none hopened]
      refine ⟨c, List.mem_singleton_self c, ?_⟩
      cases ht : c.task? with
      | none =>
        simp only [ht, Option.elim_none, List.nil_append, List.append_nil, List.mem_append] at he
        rcases he with he | he
        · exact absurd (stores?_of_mem_begins he) hnone
        · exact absurd (stores?_of_mem_said he) hnone
      | some t =>
        simp only [ht, Option.elim_some, List.mem_append] at he
        rcases he with he | ((he | he) | he)
        · exact absurd (stores?_of_mem_begins he) hnone
        · exact ⟨t, ht, written?_of_mem_before he hp⟩
        · exact absurd (stores?_of_mem_said he) hnone
        · exact absurd (stores?_of_mem_behind he) hnone

/-! ## What becomes of the other files -/

/-- No log is open whose file is at a place. -/
def Journal.LogsElsewhere (j : Journal) (place : Location) : Prop :=
  ∀ log ∈ j.log.current, log.place ≠ place

/-- **What becomes of a place that nothing is stored at.**  What was there is the same, and so is
the open log, if its file is there; or the log that was open has its file there, and has put lines
behind those that it had written before. -/
inductive Journal.Adds (place : Location) (j j' : Journal) : Prop
  | nothing (content : j'.workspace.get? place = j.workspace.get? place)
      (after : j'.log.current = j.log.current ∨ j'.LogsElsewhere place)
  | lines (log : OpenLog) (lines : List String) (before : j.log.current = some log)
      (here : log.place = place)
      (content : j'.workspace.get? place = (log.putInto j.workspace lines).get? place)
      (after : j'.log.current = some (log.handed lines) ∨ j'.LogsElsewhere place)

section

variable {j j' j'' : Journal}

lemma Journal.Adds.trans (h : j.Adds place j') (h' : j'.Adds place j'') : j.Adds place j'' := by
  cases h' with
  | nothing content' after' =>
    cases h with
    | nothing content after =>
      refine .nothing (content'.trans content) ?_
      rcases after' with hsame | helse
      · exact after.imp hsame.trans fun h log hlog => h log (hsame ▸ hlog)
      · exact Or.inr helse
    | lines log lines before here content after =>
      refine .lines log lines before here (content'.trans content) ?_
      rcases after' with hsame | helse
      · exact after.imp hsame.trans fun h log hlog => h log (hsame ▸ hlog)
      · exact Or.inr helse
  | lines log' second before' here' content' after' =>
    cases h with
    | nothing content after =>
      -- a log that has its file there was open before
      have hsame := after.resolve_right fun h => h log' before' here'
      subst here'
      refine .lines log' second (hsame.symm.trans before') rfl (content'.trans ?_) after'
      exact OpenLog.get?_putInto_congr content second
    | lines log first before here content after =>
      have hsame := after.resolve_right fun h => h log' before' here'
      obtain rfl := Option.some.inj (before'.symm.trans hsame)
      subst here
      refine .lines log (first ++ second) before rfl (content'.trans ?_) ?_
      · rw [← OpenLog.putInto_append]
        exact @OpenLog.get?_putInto_congr (log.handed first) _ _ content second
      · rwa [← OpenLog.handed_append]

/-- A line that the log gets. -/
lemma adds_write (j : Journal) (place : Location) (line : String) :
    j.Adds place (Event.apply j (.begun line)) := by
  cases hlog : j.log.current with
  | none =>
    have hsame : Event.apply j (.begun line) = j := by
      rw [Event.apply, LogSink.write_of_closed hlog]
    rw [hsame]
    exact .nothing rfl (Or.inl rfl)
  | some log =>
    have hwrite : Event.apply j (.begun line)
        = ⟨log.putInto j.workspace [line], { j.log with current := some (log.handed [line]) }⟩ := by
      rw [Event.apply, LogSink.write_of_current hlog]
    rw [hwrite]
    by_cases hplace : log.place = place
    · exact .lines log [line] hlog hplace rfl (Or.inl rfl)
    · refine .nothing (OpenLog.get?_putInto_of_ne (Ne.symm hplace) _) (Or.inr ?_)
      rintro other hother
      obtain rfl := Option.some.inj hother
      exact hplace

/-- **An event that stores nothing at a place** adds at most a line of the log there. -/
lemma adds_apply {e : Event} (h : e.stores? ≠ some place) (j : Journal) :
    j.Adds place (e.apply j) := by
  cases e with
  | begun line => exact adds_write j place line
  | said m => exact adds_write j place m.render
  | stored other content =>
    have hne : place ≠ other := fun heq => h (congrArg some heq.symm)
    exact .nothing (Workspace.get?_put_of_ne _ content hne) (Or.inl rfl)
  | opened path other code =>
    have hne : place ≠ other := fun heq => h (congrArg some heq.symm)
    refine .nothing (Workspace.get?_put_of_ne _ [] hne) (Or.inr ?_)
    rintro log hlog
    rw [← Option.some.inj hlog]
    exact hne.symm
  | closed => exact .nothing rfl (Or.inr fun log hlog => nomatch hlog)

/-- **Events that store nothing at a place**, by induction on the events. -/
theorem adds_after {events : List Event} (h : ∀ e ∈ events, e.stores? ≠ some place) (j : Journal) :
    j.Adds place (j.after events) := by
  induction events generalizing j with
  | nil => exact .nothing rfl (Or.inl rfl)
  | cons e rest ih =>
    rw [List.forall_mem_cons] at h
    exact (adds_apply h.1 j).trans (ih h.2 (e.apply j))

/-- The working directory and the folders stay the same. -/
lemma folders_after (events : List Event) (j : Journal) :
    (j.after events).workspace.home = j.workspace.home ∧
      (j.after events).workspace.folders = j.workspace.folders := by
  have hwrite : ∀ (log : LogSink) (w : Workspace) (line : String),
      (log.write w line).1.home = w.home ∧ (log.write w line).1.folders = w.folders := by
    intro log w line
    cases hlog : log.current with
    | none =>
      rw [LogSink.write_of_closed hlog]
      exact ⟨rfl, rfl⟩
    | some current =>
      rw [LogSink.write_of_current hlog]
      exact ⟨current.home_putInto w _, current.folders_putInto w _⟩
  induction events generalizing j with
  | nil => exact ⟨rfl, rfl⟩
  | cons e rest ih =>
    obtain ⟨hhome, hfolders⟩ := ih (e.apply j)
    have happly : (e.apply j).workspace.home = j.workspace.home ∧
        (e.apply j).workspace.folders = j.workspace.folders := by
      cases e with
      | begun line => exact hwrite _ _ line
      | said m => exact hwrite _ _ m.render
      | stored other content => exact ⟨rfl, rfl⟩
      | opened path other code => exact ⟨rfl, rfl⟩
      | closed => exact ⟨rfl, rfl⟩
    exact ⟨hhome.trans happly.1, hfolders.trans happly.2⟩

end

/-! ## The result -/

/-- LOG writes the file that its name says, in a working directory as file systems have them. -/
lemma written?_log {file : String} (hkeyword : t.keyword = .log) (hwords : t.words = [file])
    (hhome : t.session.workspace.home.IsProper) :
    t.written? = some (Location.ofText t.session.workspace.home (t.session.target file)) := by
  rw [Task.written?, hkeyword, hwords]
  exact congrArg some (Location.ofText_slashes (hhome.ofText _) _)

/-- **What a call may change**, whatever it asks for and however it ends.

The automaton stays the same, unless the keyword is one that edits it, the number of words is right
and, for a LOAD, the file can be loaded; and then only those parts change that the keyword is about.
Of the files, only those change that a call of the run names to PRINT, to COMPILE or to LOG to; and
the file of the log that was open, where lines are put behind those that the log has written before:
at the end of the file, unless others have written it.  A call that replays no script is the only
one of its run. -/
theorem changes_of_call (bound : Nat) (c : Call) :
    let reply := answerAt (bound + 1) c
    let old := c.session.workspace
    let new := reply.state.workspace
    (bound = maxNesting → reply = c.session.answer c.request) ∧
    (c.EditsNothing → reply.state.automaton = c.session.automaton) ∧
    (∀ t, c.task? = some t → t.keyword.allows t.words.length = false →
      ∃ rule, reply = t.session.say t.line (.arity t.keyword rule)) ∧
    (∀ t, c.task? = some t → t.keyword.Keeps c.session.automaton reply.state.automaton) ∧
    (new.home = old.home ∧ new.folders = old.folders) ∧
    (∀ place, (∀ d ∈ begunAt (bound + 1) c, ¬ d.Writes place) →
      new.get? place = old.get? place ∨
        ∃ log lines, c.session.log.current = some log ∧ log.place = place ∧
          new.get? place = some (LogSink.overwrite ((old.get? place).getD []) log.position
            (log.added lines)) ∧
          ∀ content, old.get? place = some content → log.position = content.length →
            new.get? place = some (content ++ log.added lines)) ∧
    (c.opened? = none → begunAt (bound + 1) c = [c]) ∧
    ∀ (t : Task) (file : String), t.keyword = .log → t.words = [file] →
      t.session.workspace.home.IsProper →
        t.written? = some (Location.ofText t.session.workspace.home (t.session.target file)) := by
  intro reply old new
  have hjournal := (traces_answerAt (bound + 1) c).journal
  have hnew : new = (c.session.journal.after (eventsAt (bound + 1) c)).workspace :=
    congrArg Journal.workspace hjournal
  refine ⟨?_, fun hedits => automaton_answerAt hedits bound, fun t ht hwords => ?_,
    fun t ht => keeps_answerAt ht bound, ?_, fun place hplace => ?_,
    fun hopened => begunAt_of_opened?_eq_none hopened bound,
    fun t file hkeyword hwords hhome => written?_log hkeyword hwords hhome⟩
  · rintro rfl
    exact answerAt_maxNesting c.session c.request
  · obtain ⟨rule, hrule⟩ := exists_arity hwords (load (processAt bound))
    exact ⟨rule, (answerAt_of_task? ht bound).trans hrule⟩
  · rw [hnew]
    exact folders_after _ c.session.journal
  · have hstores : ∀ e ∈ eventsAt (bound + 1) c, e.stores? ≠ some place := by
      intro e he hstores
      obtain ⟨d, hd, hwrites⟩ := exists_writer hstores (bound + 1) c he
      exact hplace d hd hwrites
    rw [hnew]
    cases adds_after hstores c.session.journal with
    | nothing content after => exact Or.inl content
    | lines log lines before here content after =>
      subst here
      by_cases hadded : log.added lines = []
      · rw [OpenLog.putInto_of_isEmpty hadded] at content
        exact Or.inl content
      · rw [OpenLog.putInto_of_ne_nil hadded, Workspace.get?_put_self] at content
        refine Or.inr ⟨log, lines, before, rfl, content, fun bytes hbytes hend => ?_⟩
        have hold : c.session.journal.workspace.get? log.place = some bytes := hbytes
        rw [content, hold, Option.getD_some, hend, LogSink.overwrite_length]

end Session

end AutomatonShell
