import AutomatonShell.Proofs.Reachable

/-!
# What commands never change

The configuration stays what it is, logs stay in their encoding, and the scripts that are listed
as being replayed are the same before and after every command, however it ends.  The last is the
only one with an argument to it: a replay puts the list back itself, so nothing has to be known of
what the commands of the script do to it (`frame_replayLines`).

* `Frame` — two sessions that differ in nothing else than commands can change.
* **`perform_isPlainReply`** — what a single command answers: it stays within the frame, and only
  the LOAD of a script can go too deep.
* **`frame_processAt`** — commands, and scripts of commands.
* **`Reachable.settled`** — what follows for every history.
-/

namespace AutomatonShell.Session

variable {s t : Session}

/-- Nothing differs but the automaton, the files, the open log and whether the session has
ended. -/
structure Frame (s t : Session) : Prop where
  config : t.config = s.config
  loading : t.loading = s.loading
  log : t.log.close = s.log.close

lemma Frame.refl (s : Session) : Frame s s := ⟨rfl, rfl, rfl⟩

lemma Frame.trans {u : Session} (h : Frame s t) (h' : Frame t u) : Frame s u :=
  ⟨h'.config.trans h.config, h'.loading.trans h.loading, h'.log.trans h.log⟩

/-- What a sink is when no log is open stays the same. -/
lemma close_write (sink : LogSink) (w : Workspace) (line : String) :
    (sink.write w line).2.close = sink.close := by
  unfold LogSink.write
  split <;> rfl

lemma close_openAs (sink : LogSink) (w : Workspace) (path : String)
    (created : Except FileError Location) :
    (sink.openAs w path created).2.1.close = sink.close := by
  unfold LogSink.openAs
  split
  · rfl
  · dsimp only
    split <;> rfl

lemma Frame.codec? (h : Frame s t) : t.log.codec? = s.log.codec? := congrArg (·.codec?) h.log

lemma Frame.record (h : Frame s t) (line : String) : Frame s (t.record line) :=
  h.trans ⟨rfl, rfl, close_write _ _ _⟩

/-! ## One command -/

/-- A reply that stays within the frame of a session, and does not complain about nesting. -/
structure IsPlainReply (s : Session) (r : Reply) : Prop where
  frame : Frame s r.state
  failure_ne : r.failure ≠ some .nesting

lemma Frame.done (h : Frame s t) : IsPlainReply s (.done t) := ⟨h, by simp [Outcome.done]⟩

lemma Frame.stop (h : Frame s t) {fault : Fault} (hfault : fault ≠ .nesting) :
    IsPlainReply s (.stop t fault) := ⟨h, by simpa [Outcome.stop] using hfault⟩

lemma Frame.say (h : Frame s t) (line : Option Int) (d : Diagnostic) :
    IsPlainReply s (t.say line d) := ⟨h.record _, by simp [Session.say, emit]⟩

lemma Frame.sayAll (h : Frame s t) (line : Option Int) (ds : List Diagnostic) :
    IsPlainReply s (t.sayAll line ds) := by
  refine ⟨Outcome.forEach_keeps (fun _ d _ hu => (hu.say line d).frame) h, ?_⟩
  induction ds generalizing t with
  | nil => exact h.done.failure_ne
  | cons d rest ih =>
    rw [Session.sayAll, Outcome.forEach, Outcome.andThen_of_failure_eq_none rfl]
    exact ih (h.say line d).frame

lemma IsPlainReply.andThen {r : Reply} {next : Session → Reply} (h : IsPlainReply s r)
    (hnext : ∀ t, Frame s t → IsPlainReply s (next t)) : IsPlainReply s (r.andThen next) := by
  cases hr : r.failure with
  | some fault => rwa [Outcome.andThen_of_failure_eq_some hr]
  | none =>
    obtain ⟨hframe, hfailure⟩ := hnext _ h.frame
    rw [Outcome.andThen_of_failure_eq_none hr]
    exact ⟨hframe, hfailure⟩

lemma isPlainReply_declare (s : Session) (line : Option Int) (d : Declaration) :
    IsPlainReply s (s.declare line d) := by
  have h : Frame s { s with automaton := d.state } := ⟨rfl, rfl, rfl⟩
  refine (h.sayAll line _).andThen fun t ht => ?_
  split
  · exact ht.done
  · exact ht.stop (by simp)

lemma isPlainReply_listAll (s : Session) (line : Option Int) :
    IsPlainReply s (s.listAll line) := by
  rw [listAll]
  split
  · exact (Frame.refl s).say line _
  · exact (Frame.refl s).sayAll line _

/-- A brief answer in a session that has stayed within the frame. -/
lemma Brief.isPlainReply {line : Option Int} {answers : Diagnostic → Prop} {r : Reply}
    (hr : Brief t line answers r) (h : Frame s t) : IsPlainReply s r := by
  cases hr with
  | done => exact h.done
  | say => exact h.say line _
  | stop other => exact h.stop other

lemma isPlainReply_exit (s : Session) (line : Option Int) : IsPlainReply s (s.exit line) := by
  refine ((Frame.refl s).say line _).andThen fun t ht => ?_
  have h : Frame s { t.closeLog with finished := true } :=
    ⟨ht.config, ht.loading, ht.log⟩
  exact h.done

lemma isPlainReply_restore (s : Session) (file : String) (line : Option Int) :
    IsPlainReply s (s.restore file line) :=
  (brief_restore s file line).isPlainReply ⟨rfl, rfl, rfl⟩

/-- **What a single command answers**: something plain, unless it is a LOAD. -/
theorem perform_isPlainReply {P : Reply → Prop} {load : Action} (s : Session) (keyword : Keyword)
    (words : List String) (body : List Char) (line : Option Int)
    (hplain : ∀ r, IsPlainReply s r → P r) (hload : ∀ file, P (load s file line)) :
    P (s.perform load keyword words body line) := by
  obtain ⟨handler, hhandles, hperform⟩ := exists_handles keyword words body
  rw [hperform]
  cases hhandles with
  | define => exact hplain _ (isPlainReply_declare s line _)
  | arity => exact hplain _ ((Frame.refl s).say line _)
  | listAll => exact hplain _ (isPlainReply_listAll s line)
  | print file => exact hplain _ ((brief_print s file line).isPlainReply ⟨rfl, rfl, rfl⟩)
  | execute text => exact hplain _ ((brief_execute s text line).isPlainReply (Frame.refl s))
  | compile file => exact hplain _ ((brief_compile s file line).isPlainReply ⟨rfl, rfl, rfl⟩)
  | load file => exact hload file
  | stopLog =>
    refine hplain _ ((brief_stopLog s line).isPlainReply ?_)
    split_ifs <;> exact ⟨rfl, rfl, rfl⟩
  | openLog file =>
    have hlog : (s.log.openAt s.workspace (s.target file)).2.1.close = s.log.close :=
      close_openAs _ _ _ _
    obtain ⟨opened, heq, hopened⟩ := brief_openLog s file line
    rw [heq] at hlog
    exact hplain _ (hopened.isPlainReply ⟨rfl, rfl, hlog⟩)
  | exit => exact hplain _ (isPlainReply_exit s line)

/-! ## Scripts -/

lemma frame_processWith {load : Action}
    (hload : ∀ s file line, Frame s (load s file line).state) (s : Session) (text : String)
    (line : Option Int) : Frame s (processWith load s text line).state := by
  have h := Frame.refl s
  simp only [processWith]
  split_ifs
  · exact h
  · split
    · exact h
    · split
      · exact ((h.record _).say line _).frame
      · refine perform_isPlainReply (P := fun r => Frame s r.state) _ _ _ _ line
          (fun r hr => ?_) fun file => ?_
        · exact (h.record _).trans hr.frame
        · exact (h.record _).trans (hload _ file line)

lemma processAll_frame {process : Action}
    (hprocess : ∀ s text line, Frame s (process s text line).state) (s : Session)
    (commands : List NumberedCommand) : Frame s (processAll process s commands).state :=
  processAll_keeps (fun t text line ht => ht.trans (hprocess t text line)) commands (Frame.refl s)

/-- A script that has been replayed is no longer listed, however the replay ended. -/
lemma frame_replayLines {process : Action}
    (hprocess : ∀ s text line, Frame s (process s text line).state) (s : Session)
    (place : Location) (file : String) (lines : List String) :
    Frame s (s.replayLines process place file lines).state := by
  rw [replayLines]
  split
  · exact Frame.refl s
  · next commands rest _ =>
    have hall := processAll_frame hprocess { s with loading := s.loading ++ [place] } commands
    refine Outcome.andThen_keeps (I := Frame s) ⟨hall.config, rfl, hall.log⟩ fun t ht => ?_
    split_ifs
    · exact ht
    · exact (ht.say _ _).frame

lemma frame_replay {process : Action}
    (hprocess : ∀ s text line, Frame s (process s text line).state) (s : Session) (file : String)
    (line : Option Int) : Frame s (s.replay process file line).state := by
  have h := Frame.refl s
  simp only [replay]
  split_ifs
  · exact h
  · exact (h.say line _).frame
  · split
    · exact frame_replayLines hprocess s _ file _
    · exact h
    · exact h
    · exact (h.say line _).frame

/-- **What processing changes**, by induction on the bound on nesting. -/
theorem frame_processAt (bound : Nat) (s : Session) (text : String) (line : Option Int) :
    Frame s (processAt bound s text line).state ∧
      Frame s (s.load (processAt bound) text line).state := by
  have hload : ∀ process : Action, (∀ s text line, Frame s (process s text line).state) →
      ∀ s file line, Frame s (load process s file line).state := by
    intro process hprocess s file line
    rw [load]
    split_ifs
    · exact (isPlainReply_restore s file line).frame
    · exact frame_replay hprocess s file line
  have hall : ∀ s text line, Frame s (processAt bound s text line).state := by
    induction bound with
    | zero => exact fun s text line => Frame.refl s
    | succ bound ih => exact frame_processWith (hload _ ih)
  exact ⟨hall s text line, hload _ hall s text line⟩

lemma frame_process (s : Session) (text : String) (line : Option Int) :
    Frame s (s.process text line).state := by
  rw [process_eq]
  exact (frame_processAt (maxNesting + 1) s text line).1

lemma frame_runFile (s : Session) (file : String) : Frame s (s.runFile file).state := by
  rw [runFile_eq]
  split_ifs
  · exact Frame.refl s
  · exact (frame_processAt maxNesting s file none).2

/-- **No script is being replayed between commands**, and logs are written as an accepted
configuration says. -/
theorem Reachable.settled (h : Reachable s) :
    s.loading = [] ∧
      s.log.close = { encoding := s.config.encoding, codec? := s.config.codec? } ∧
      ∃ (settings : Settings) (platform : Platform),
        settings.validate platform = .ok s.config := by
  induction h with
  | start hconfig _ => exact ⟨rfl, rfl, _, _, hconfig⟩
  | call _ _ ih => exact ih
  | takeOver _ _ ih _ => exact ih
  | restored _ _ ih => exact ih
  | process _ text line ih =>
    obtain ⟨hconfig, hloading, hlog⟩ := frame_process _ text line
    rwa [hloading, hlog, hconfig]
  | runFile _ file ih =>
    obtain ⟨hconfig, hloading, hlog⟩ := frame_runFile _ file
    rwa [hloading, hlog, hconfig]
  | closeLog _ ih => exact ih
  | outside _ _ ih => exact ih

lemma Reachable.codec?_log (h : Reachable s) : s.log.codec? = s.config.codec? :=
  congrArg (·.codec?) h.settled.2.1

end AutomatonShell.Session
