import AutomatonShell.Proofs.Execution
import AutomatonShell.Proofs.ListingBytes
import AutomatonShell.Proofs.Runs
import AutomatonShell.Proofs.TransitionGroups

/-!
# What ends a single command early

Commands answer mistakes with messages, and most of what could end them early cannot happen.  Words
are checked before the model sees them, so declarations are not refused.  Well-formed automata have
a table, so they can be executed.  What remains has to do with files: **a name with a NUL in it**, a
listing that the encoding cannot express, a script that it cannot make sense of, and **a snapshot
whose reading breaks off**.

* `Automaton.declareTransitions_failure` and its siblings — declarations.
* `Keyword.onAutomaton`, `Session.Task.failure_of_mem_onAutomaton` — commands without files.
* `Session.IsSound` — what is asked of a session.
* `Session.Task.fault?` — the fault of a task, read off its words and the files.
* `Session.print_failure` and its siblings — commands with files.
* **`Session.Task.failure_eq`** — every task that replays no script.
-/

namespace AutomatonShell

/-! ## Declarations are not refused -/

namespace Automaton

lemma declareState_failure (a : Automaton) (word : String) :
    (a.declareState word).failure = none := by
  rw [declareState]
  split_ifs with hname
  · rfl
  · rfl
  · rw [Bool.not_eq_true, Bool.not_eq_false'] at hname
    simp [settle, addStates, canonicalName_of_isStateName hname]

lemma declareInitial_failure (a : Automaton) (word : String) :
    (a.declareInitial word).failure = none := by
  rw [declareInitial]
  split_ifs with hname hdeclared
  · rfl
  all_goals
    rw [Bool.not_eq_true, Bool.not_eq_false'] at hname
    simp [Outcome.andThen, Outcome.done, say, settle, setInitialState,
      canonicalName_of_isStateName hname]

lemma declareFinal_failure (a : Automaton) (word : String) :
    (a.declareFinal word).failure = none := by
  rw [declareFinal]
  split_ifs with hname hdeclared hfinal
  · rfl
  · rw [Bool.not_eq_true, Bool.not_eq_false'] at hname
    simp [Outcome.andThen, say, settle, addFinalStates, canonicalName_of_isStateName hname]
  · rfl
  · rw [Bool.not_eq_true, Bool.not_eq_false'] at hname
    simp [settle, addFinalStates, canonicalName_of_isStateName hname]

lemma declareSymbols_failure (a : Automaton) (words : List String) :
    (a.declareSymbols words).failure = none := by
  rw [declareSymbols, Outcome.andThen_failure]
  · refine Outcome.forEach_failure_eq_none (fun a word => ?_) a words
    rw [declareSymbol]
    split_ifs <;> rfl
  · intro a
    dsimp only
    split_ifs <;> rfl

lemma declareTransitions_failure (a : Automaton) (body : List Char) :
    (a.declareTransitions body).failure = none := by
  obtain ⟨hwhole, hfailure⟩ := a.declareTransitions_intercalate
    fun (g : List Char) (hg : g ∈ body.splitOn ',') => not_mem_of_mem_splitOn hg
  rw [List.intercalate_splitOn] at hwhole
  rwa [hwhole]

lemma declareStates_failure (a : Automaton) (words : List String) :
    (a.declareStates words).failure = none :=
  Outcome.forEach_failure_eq_none declareState_failure a words

lemma declareFinals_failure (a : Automaton) (words : List String) :
    (a.declareFinals words).failure = none :=
  Outcome.forEach_failure_eq_none declareFinal_failure a words

/-- Definition commands are not refused. -/
lemma define_failure (a : Automaton) (keyword : Keyword) (words : List String) (body : List Char) :
    (a.define keyword words body).failure = none := by
  unfold define
  split
  · rfl
  · exact a.declareSymbols_failure words
  · rfl
  · exact a.declareStates_failure words
  · rfl
  · exact a.declareInitial_failure _
  · rfl
  · rfl
  · exact a.declareFinals_failure words
  · exact a.declareTransitions_failure body
  · rfl
  · rfl
  · rfl

end Automaton

/-- The commands whose work is on the automaton, whatever their words. -/
def Keyword.onAutomaton : List Keyword :=
  [.symbols, .states, .initialState, .finalStates, .transitions, .clear, .execute]

/-- What EXECUTE says of a run. -/
def Run.diagnostic : Run → Diagnostic
  | stopped e => .runStopped e
  | run => .ran run

namespace Session

/-! ## One task -/

/-- What a session that a history leads to is like, if the encoding it was configured with
exists. -/
structure IsSound (s : Session) : Prop where
  wellFormed : s.automaton.WellFormed
  commentPrefix_ne : s.config.commentPrefix ≠ ""
  codec_known : s.config.codec?.isSome
  log_codec : s.log.codec? = s.config.codec?

/-- The fault of opening a path: it holds a NUL. -/
def nulFault? (path : String) : Option Fault :=
  if path.toList.contains (Char.ofNat 0) then some .nulInName else none

/-- The fault of writing a listing: a line of it cannot be expressed. -/
def listingFault? (s : Session) : Option Fault :=
  if s.config.codec?.any fun codec => (codec.emit (s.automaton.listingText.map String.toList)).2
  then some (@Fault.unencodable .unencodable)
  else none

/-- The fault of loading a snapshot: its reading breaks off. -/
def snapshotFault? : Except LoadError Automaton → Option Fault
  | .error (.file .nulInName) => some .nulInName
  | .error (.snapshot .notArray) => some (@Fault.snapshotEntry .notArray)
  | .error (.snapshot (.notNumber kind)) => some (@Fault.snapshotEntry (.notNumber kind))
  | .error (.snapshot (.unreadable f)) => if f.isAboutFile then none else some (.archive f)
  | _ => none

/-- The fault of reading a script: its bytes as a whole make no sense. -/
def scriptFault? : Except TextFileError (List Char) → Option Fault
  | .error (@TextFileError.undecodable .broken) =>
    some (@Fault.unencodable (@TextFileError.undecodable .broken))
  | _ => none

/-- The fault of a task.  Only tasks with files have one. -/
def Task.fault? (t : Task) : Option Fault :=
  match t.keyword, t.words with
  | .print, [file] =>
    (nulFault? (t.session.target file)).or <|
      if (t.session.workspace.create (t.session.target file)).toOption.isSome then
        listingFault? t.session
      else none
  | .compile, [file] =>
    if t.session.config.isCompileTarget file then nulFault? (t.session.target file) else none
  | .log, [file] =>
    nulFault? ("/" ++ String.intercalate "/"
      (Location.ofText t.session.workspace.home (t.session.target file)))
  | .load, [file] =>
    if t.session.config.isBinary file then snapshotFault? (t.session.snapshotAt file)
    else
      (nulFault? (t.session.target file)).or <|
        if t.place?.any (t.session.loading.contains ·) then none
        else scriptFault? (t.session.scriptAt file)
  | _, _ => none

lemma descend_ne_nulInName (w : Workspace) (here : Location) (names : List String) :
    w.descend here names ≠ .error .nulInName := by
  induction names generalizing here with
  | nil => simp [Workspace.descend]
  | cons name rest ih =>
    rw [Workspace.descend]
    split_ifs <;> first | exact ih _ | simp

/-- A file is refused for a NUL in its path exactly if there is one. -/
lemma locate_eq_nulInName {w : Workspace} {path : String} :
    w.locate path = .error .nulInName ↔ path.toList.contains (Char.ofNat 0) = true := by
  rw [Workspace.locate]
  split_ifs with hnul <;> simp_all [descend_ne_nulInName]

lemma create_eq_nulInName {w : Workspace} {path : String} :
    w.create path = .error .nulInName ↔ path.toList.contains (Char.ofNat 0) = true := by
  rw [← locate_eq_nulInName (w := w), Workspace.create]
  cases w.locate path with
  | error e => simp [bind, Except.bind]
  | ok place =>
    simp only [bind, Except.bind]
    split_ifs <;> simp

/-- How a new file is opened: not at all for a NUL in the path, perhaps not for another reason, or
it is. -/
lemma create_cases (w : Workspace) (path : String) :
    (nulFault? path = some .nulInName ∧ w.create path = .error .nulInName) ∨
    (nulFault? path = none ∧ ((∃ created, w.create path = .ok created) ∨
      ∃ e, e ≠ .nulInName ∧ w.create path = .error e)) := by
  rw [nulFault?]
  split_ifs with hnul
  · exact Or.inl ⟨rfl, create_eq_nulInName.2 hnul⟩
  · refine Or.inr ⟨rfl, ?_⟩
    cases hcreate : w.create path with
    | error e =>
      refine Or.inr ⟨e, ?_, rfl⟩
      rintro rfl
      exact hnul (create_eq_nulInName.1 hcreate)
    | ok created => exact Or.inl ⟨created, rfl⟩

variable {s : Session}

lemma print_failure (h : IsSound s) (file : String) (line : Option Int) :
    (s.print file line).failure
      = (nulFault? (s.target file)).or
          (if (s.workspace.create (s.target file)).toOption.isSome then listingFault? s
            else none) := by
  obtain ⟨codec, hcodec⟩ := Option.isSome_iff_exists.1 h.codec_known
  have hlisting : listingFault? s
      = if (codec.emit (s.automaton.listingText.map String.toList)).2 then
          some (@Fault.unencodable .unencodable) else none := by
    rw [listingFault?, hcodec]
    rfl
  rw [print, Workspace.writeText, Workspace.createText, hlisting, hcodec]
  rcases create_cases s.workspace (s.target file) with ⟨hnul, hcreate⟩ |
    ⟨hnul, ⟨created, hcreate⟩ | ⟨e, he, hcreate⟩⟩
  · rw [hnul, hcreate]
    rfl
  · rw [hnul, hcreate]
    dsimp only
    cases hrefused : (codec.emit (s.automaton.listingText.map String.toList)).2 with
    | false => rfl
    | true => rfl
  · rw [hnul, hcreate]
    cases e with
    | nulInName => exact absurd rfl he
    | _ => rfl

lemma openLog_failure (h : IsSound s) (file : String) (line : Option Int) :
    (s.openLog file line).failure = nulFault? ("/" ++ String.intercalate "/"
      (Location.ofText s.workspace.home (s.target file))) := by
  obtain ⟨codec, hcodec⟩ := Option.isSome_iff_exists.1 h.codec_known
  rw [← h.log_codec] at hcodec
  rw [openLog, LogSink.openAt, LogSink.openAs.eq_def, hcodec]
  rcases create_cases s.workspace ("/" ++ String.intercalate "/"
      (Location.ofText s.workspace.home (s.target file))) with ⟨hnul, hcreate⟩ |
    ⟨hnul, ⟨created, hcreate⟩ | ⟨e, he, hcreate⟩⟩
  · rw [hnul, hcreate]
    rfl
  · rw [hnul, hcreate]
    rfl
  · rw [hnul, hcreate]
    cases e with
    | nulInName => exact absurd rfl he
    | _ => rfl

lemma compile_failure (s : Session) (file : String) (line : Option Int) :
    (s.compile file line).failure
      = if s.config.isCompileTarget file then nulFault? (s.target file) else none := by
  rw [compile]
  cases htarget : s.config.isCompileTarget file with
  | false => rfl
  | true =>
    rw [if_neg (by simp), if_pos rfl, nulFault?, Workspace.saveSnapshot]
    cases hcreate : s.workspace.create (s.target file) with
    | error e =>
      split_ifs with hnul
      · obtain rfl : e = .nulInName := by
          rw [create_eq_nulInName.2 hnul] at hcreate
          exact (Except.error.inj hcreate).symm
        rfl
      · cases e <;> first | rfl | exact absurd (create_eq_nulInName.1 hcreate) hnul
    | ok created =>
      have hnul : ¬ (s.target file).toList.contains (Char.ofNat 0) = true := fun hnul => by
        simp [create_eq_nulInName.2 hnul] at hcreate
      rw [if_neg hnul]
      obtain ⟨place, w⟩ := created
      cases Snapshot.encode s.automaton s.config.library <;> rfl

lemma restore_failure (s : Session) (file : String) (line : Option Int) :
    (s.restore file line).failure
      = snapshotFault? (s.snapshotAt file) := by
  unfold restore
  generalize s.snapshotAt file = loaded
  rcases loaded with (_ | e | e) | _
  · rfl
  · cases e <;> rfl
  · cases e with
    | unreadable f => cases hfile : f.isAboutFile <;> simp [snapshotFault?, hfile] <;> rfl
    | _ => rfl
  · rfl

/-- EXECUTE says how the walk through the automaton ends. -/
lemma execute_eq (h : s.automaton.WellFormed) (text : String) (line : Option Int) :
    s.execute text line = s.say line (match s.automaton.initial with
      | none => .nowhereToStart
      | some q => (s.automaton.walkFrom q text.toList).diagnostic) := by
  rw [execute]
  cases hq : s.automaton.initial with
  | none => rfl
  | some q =>
    obtain ⟨m, hm, hrep⟩ := Matrix.ofAutomaton_represents h hq
    rw [Automaton.run, hm]
    dsimp only
    rw [Matrix.run_represents hrep h hq]
    cases s.automaton.walkFrom q text.toList <;> rfl

lemma execute_failure (h : s.automaton.WellFormed) (text : String) (line : Option Int) :
    (s.execute text line).failure = none := by
  rw [execute_eq h]
  rfl

/-- **A task on the automaton does not break off.**  Its words are checked before the model sees
them, and a well-formed automaton can be executed. -/
theorem Task.failure_of_mem_onAutomaton {t : Task} (h : t.session.automaton.WellFormed)
    (hkeyword : t.keyword ∈ Keyword.onAutomaton) (load : Action) : (t.run load).failure = none := by
  obtain ⟨s, keyword, words, body, line⟩ := t
  obtain ⟨handler, hhandles, hperform⟩ := exists_handles keyword words body
  rw [run, hperform]
  cases hhandles with dsimp only
  | define => exact (declare_eq (s.automaton.define_failure keyword words body) s line).1
  | arity => rfl
  | execute text => exact execute_failure h text line
  | listAll | print | compile | load | stopLog | openLog | exit =>
    simp [Keyword.onAutomaton] at hkeyword

lemma feedAll_ne_error {a : Assembler} (h : a.commentPrefix ≠ "") (number : Int)
    (lines : List String) (e : AssemblerError) : a.feedAll number lines ≠ .error e := by
  induction lines generalizing a number e with
  | nil => simp [Assembler.feedAll]
  | cons line rest ih =>
    simp only [Assembler.feedAll, Assembler.feed, if_neg h, bind, Except.bind, pure, Except.pure]
    split
    · next e' he => exact absurd he (ih (by exact h) (number + 1) e')
    · simp

/-- A LOAD that replays no script breaks off for what is wrong with the file or with its name. -/
lemma load_failure {t : Task} {file : String} (h : IsSound t.session) (hscript : t.script? = none)
    (hfile : t.file? = some file) (process : Action) :
    (load process t.session file t.line).failure
      = if t.session.config.isBinary file then snapshotFault? (t.session.snapshotAt file)
        else
          (nulFault? (t.session.target file)).or
            (if t.place?.any (t.session.loading.contains ·) then none
              else scriptFault? (t.session.scriptAt file)) := by
  have hplain : ∀ place, t.place? = some place → ¬ t.session.config.isBinary file = true ∧
      nulFault? (t.session.target file) = none := by
    intro place hplace
    simp only [Task.place?, hfile, Option.bind_some] at hplace
    split_ifs at hplace with hbinary hnul
    exact ⟨hbinary, if_neg hnul⟩
  obtain ⟨r, hr, hload⟩ := t.exists_unopened hfile hscript
  rw [hload]
  cases hr with
  | snapshot binary =>
    rw [if_pos binary]
    exact restore_failure _ _ _
  | nul text nul =>
    rw [if_neg text, nulFault?, if_pos nul]
    rfl
  | listed found listed =>
    obtain ⟨hbinary, hnul⟩ := hplain _ found
    rw [if_neg hbinary, hnul, found, Option.any_some, List.contains_iff_mem.2 listed]
    rfl
  | unreadable found unread known sound =>
    obtain ⟨hbinary, hnul⟩ := hplain _ found
    rw [if_neg hbinary, hnul, unread]
    split_ifs with hlisted
    · rfl
    · rw [scriptFault?]
      · rfl
      · simpa using sound
  | unknownEncoding found unread =>
    -- the encoding is known
    obtain ⟨codec, hcodec⟩ := Option.isSome_iff_exists.1 h.codec_known
    rw [scriptAt, Workspace.readText, hcodec] at unread
    split at unread
    · simp at unread
    · dsimp only at unread
      split at unread <;> simp at unread
  | broken found unlisted unread =>
    obtain ⟨hbinary, hnul⟩ := hplain _ found
    rw [if_neg hbinary, hnul, unread, found, Option.any_some, if_neg (by simpa using unlisted)]
    rfl
  | unassembled found unfed =>
    exact absurd unfed (feedAll_ne_error (by exact h.commentPrefix_ne) _ _ _)

/-- A definition command has no fault, and nor has a command with a wrong number of words. -/
lemma Task.fault?_eq_none {t : Task}
    (h : t.keyword ∈ Keyword.definitions ∨ t.keyword.allows t.words.length = false) :
    t.fault? = none := by
  rw [fault?]
  split <;> simp_all [Keyword.definitions, Keyword.allows]

/-- **The failure of a task** that replays no script. -/
theorem Task.failure_eq {t : Task} (h : IsSound t.session) (hscript : t.script? = none)
    (process : Action) : (t.run (load process)).failure = t.fault? := by
  have hload := fun file (hfile : t.file? = some file) => load_failure h hscript hfile process
  obtain ⟨s, keyword, words, body, line⟩ := t
  obtain ⟨handler, hhandles, hperform⟩ := exists_handles keyword words body
  rw [run, hperform]
  cases hhandles with dsimp only
  | define defines =>
    rw [fault?_eq_none (Or.inl defines)]
    exact (declare_eq (s.automaton.define_failure keyword words body) s line).1
  | arity rule refused =>
    rw [fault?_eq_none (Or.inr refused)]
    rfl
  | listAll =>
    rw [listAll]
    split
    · rfl
    · exact (sayAll_eq s line _).1
  | print file => exact print_failure h file line
  | execute text => exact execute_failure h.wellFormed text line
  | compile file => exact compile_failure s file line
  | load file => exact hload file rfl
  | stopLog =>
    rw [stopLog]
    split_ifs <;> rfl
  | openLog file => exact openLog_failure h file line
  | exit => exact Outcome.andThen_failure fun _ => rfl

/-- A task that replays a script has no fault of its own. -/
lemma Task.fault?_of_script? {t : Task} {script : Script} (h : t.script? = some script) :
    t.fault? = none := by
  have hplace := (place?_of_script? h).1
  obtain ⟨s, keyword, words, body, line⟩ := t
  match keyword, words with
  | .load, [file] =>
    have hread : scriptFault? (s.scriptAt file) = none := by
      simp only [script?, file?, Option.bind_some, hplace] at h
      split_ifs at h
      split at h
      · cases h
      · next text htext => exact congrArg scriptFault? htext
    simp only [place?, file?, Option.bind_some] at hplace
    split_ifs at hplace with hbinary hnul
    simp only [fault?, if_neg hbinary, nulFault?, if_neg hnul, hread, ite_self, Option.none_or]
  | .load, [] => cases hplace
  | .load, _ :: _ :: _ => cases hplace
  | .symbols, _ | .states, _ | .initialState, _ | .finalStates, _ | .transitions, _ | .print, _
  | .execute, _ | .compile, _ | .clear, _ | .log, _ | .exit, _ => cases hplace

end Session

end AutomatonShell
