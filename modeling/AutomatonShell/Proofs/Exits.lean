import AutomatonShell.Proofs.Ending

/-!
# Only EXIT ends a session

A session is open until an EXIT is carried out, whether this is one of the commands that it is
handed or stands in a script that one of them replays.  So one can see from the calls of a run
whether it ends the session, without looking at what the run leaves.

* `finished_run` — a task that is no EXIT and replays no script leaves a session as open as it is.
* `Exits` — an EXIT among the calls of a run.
* **`finished_answerAll_iff`** — a run ends an open session exactly if there is one.
-/

namespace AutomatonShell.Session

variable {s : Session} {c : Call} {t : Task}

/-! ## One task -/

lemma finished_sayAll (s : Session) (line : Option Int) (ds : List Diagnostic) :
    (s.sayAll line ds).state.finished = s.finished :=
  Outcome.forEach_keeps (I := fun t : Session => t.finished = s.finished) (fun _ _ _ h => h) rfl

lemma finished_declare (s : Session) (line : Option Int) (d : Declaration) :
    (s.declare line d).state.finished = s.finished := by
  refine Outcome.andThen_keeps (I := fun t : Session => t.finished = s.finished)
    (finished_sayAll _ line _) fun t ht => ?_
  split <;> exact ht

lemma finished_listAll (s : Session) (line : Option Int) :
    (s.listAll line).state.finished = s.finished := by
  rw [listAll]
  split
  · rfl
  · exact finished_sayAll s line _

lemma Brief.finished_eq {answers : Diagnostic → Prop} {line : Option Int} {r : Reply}
    (h : Brief s line answers r) : r.state.finished = s.finished := by
  cases h <;> rfl

/-- A task that is no EXIT, up to what a LOAD does. -/
lemma finished_perform (hexit : ¬ t.IsExit) {load : Action}
    (hload : ∀ file, t.file? = some file →
      (load t.session file t.line).state.finished = t.session.finished) :
    (t.run load).state.finished = t.session.finished := by
  obtain ⟨s, keyword, words, body, line⟩ := t
  obtain ⟨handler, hhandles, hperform⟩ := exists_handles keyword words body
  rw [Task.run, hperform]
  cases hhandles with dsimp only
  | define => exact finished_declare s line _
  | arity => rfl
  | listAll => exact finished_listAll s line
  | print file => exact (brief_print s file line).finished_eq
  | execute text => exact (brief_execute s text line).finished_eq
  | compile file => exact (brief_compile s file line).finished_eq
  | load file => exact hload file rfl
  | stopLog =>
    refine (brief_stopLog s line).finished_eq.trans ?_
    split_ifs <;> rfl
  | openLog file =>
    obtain ⟨opened, -, hopened⟩ := brief_openLog s file line
    exact hopened.finished_eq
  | exit => exact absurd ⟨rfl, rfl⟩ hexit

/-- **A task that is no EXIT and replays no script** leaves a session as open as it is. -/
lemma finished_run (hexit : ¬ t.IsExit) (hscript : t.script? = none) (process : Action) :
    (t.run (load process)).state.finished = t.session.finished := by
  refine finished_perform hexit fun file hfile => ?_
  obtain ⟨r, hr, hload⟩ := Task.exists_unopened hfile hscript
  rw [hload]
  rcases hr.restore_or_brief with ⟨-, rfl⟩ | hbrief
  · exact (brief_restore t.session file t.line).finished_eq
  · exact hbrief.finished_eq

lemma finished_of_task? (ht : c.task? = some t) : t.session.finished = c.session.finished := by
  rcases Call.session_of_task? ht with hs | ⟨entry, hs⟩ <;> rw [hs]
  rfl

/-- A call without a task. -/
lemma finished_of_task?_eq_none (ht : c.task? = none) (bound : Nat) :
    (answerAt (bound + 1) c).state.finished = c.session.finished := by
  cases Call.idle_of_task?_eq_none ht with
  | finished finished =>
    rw [answerAt_of_finished finished]
    rfl
  | blank running blank =>
    rw [answerAt_of_blank blank]
    rfl
  | unknown running parsed unknown =>
    rw [answerAt_of_unknown running parsed unknown]
    rfl

/-- What is left to do behind a script ends nothing. -/
lemma finished_leave (t : Task) (script : Script) (replayed : Reply) :
    (t.leave script replayed).state.finished = replayed.state.finished := by
  refine Outcome.andThen_keeps (I := fun u : Session => u.finished = replayed.state.finished) rfl ?_
  intro u hu
  split_ifs <;> exact hu

/-! ## Runs -/

/-- A call that carries out an EXIT. -/
def Call.IsExit (c : Call) : Prop := ∃ t, c.task? = some t ∧ t.IsExit

/-- Two steps in sequence, of which the second is not carried out if the first stops early. -/
lemma exists_isExit_of_andThen {r : Reply} {next : Session → Reply} {calls calls' : List Call}
    (hfirst : r.state.finished = true → ∃ d ∈ calls, d.IsExit)
    (hnext : r.state.finished = false → (next r.state).state.finished = true →
      ∃ d ∈ calls', d.IsExit)
    (hended : (r.andThen next).state.finished = true) :
    ∃ d ∈ calls ++ if r.failure.isSome then [] else calls', d.IsExit := by
  cases hfinished : r.state.finished with
  | true =>
    obtain ⟨d, hd, hexit⟩ := hfirst hfinished
    exact ⟨d, List.mem_append_left _ hd, hexit⟩
  | false =>
    cases hfailure : r.failure with
    | some fault =>
      rw [Outcome.andThen_of_failure_eq_some hfailure, hfinished] at hended
      cases hended
    | none =>
      rw [Outcome.andThen_of_failure_eq_none hfailure] at hended
      obtain ⟨d, hd, hexit⟩ := hnext hfinished hended
      exact ⟨d, List.mem_append_right _ hd, hexit⟩

/-- The commands of a script: a sequence of as many steps. -/
lemma exists_isExit_of_processAll {bound : Nat}
    (h : ∀ c : Call, c.session.finished = false → (answerAt bound c).state.finished = true →
      ∃ d ∈ begunAt bound c, d.IsExit)
    {commands : List NumberedCommand} (hopen : s.finished = false)
    (hended : (processAll (processAt bound) s commands).state.finished = true) :
    ∃ d ∈ followed (processAt bound) (begunAt bound) s commands, d.IsExit := by
  induction commands generalizing s with
  | nil => exact absurd (hopen.symm.trans hended) Bool.noConfusion
  | cons command rest ih =>
    have hfirst := h ⟨s, .command command.2 (some command.1)⟩ hopen
    rw [← processAt_eq] at hfirst
    exact exists_isExit_of_andThen hfirst ih hended

/-- **A call that ends an open session** carries out an EXIT, by induction on the bound on
nesting. -/
lemma exists_isExit_of_answerAt (bound : Nat) (c : Call) (hopen : c.session.finished = false)
    (hended : (answerAt bound c).state.finished = true) : ∃ d ∈ begunAt bound c, d.IsExit := by
  induction bound generalizing c with
  | zero => exact absurd (hopen.symm.trans hended) Bool.noConfusion
  | succ bound ih =>
    cases hopened : c.opened? with
    | some opened =>
      obtain ⟨t, script⟩ := opened
      obtain ⟨ht, -⟩ := Call.opened?_eq_some.1 hopened
      have hopen' : (t.enter script).finished = false := (finished_of_task? ht).trans hopen
      rw [answerAt_of_opened? hopened, finished_leave] at hended
      obtain ⟨d, hd, hexit⟩ := exists_isExit_of_processAll ih hopen' hended
      rw [begunAt_of_opened? hopened]
      exact ⟨d, List.mem_cons_of_mem _ hd, hexit⟩
    | none =>
      rw [begunAt_of_opened?_eq_none hopened]
      refine ⟨c, List.mem_singleton_self c, ?_⟩
      cases ht : c.task? with
      | none =>
        rw [finished_of_task?_eq_none ht, hopen] at hended
        cases hended
      | some t =>
        refine ⟨t, ht, ?_⟩
        by_contra hexit
        have hscript : t.script? = none := by simpa [Call.opened?, ht] using hopened
        rw [answerAt_of_task? ht, finished_run hexit hscript, finished_of_task? ht, hopen] at hended
        cases hended

/-- **An EXIT in a run of requests**, as one of them or in a script that is replayed. -/
def Exits (s : Session) (requests : List Request) : Prop := ∃ d ∈ begun s requests, d.IsExit

/-- Such a run is ended by it. -/
lemma Exits.endedBy {requests : List Request} (h : s.Exits requests) :
    ∃ t after, EndedBy farewell t after s (answerAll s requests) := by
  obtain ⟨d, hd, t, ht, hexit⟩ := h
  obtain ⟨before, after, hcalls⟩ := List.append_of_mem hd
  exact ⟨t, after, isFinal_answerAll s requests before d after t hcalls ht hexit⟩

/-- **A run ends an open session exactly if it carries out an EXIT.** -/
theorem finished_answerAll_iff (hopen : s.finished = false) (requests : List Request) :
    (answerAll s requests).state.finished = true ↔ s.Exits requests := by
  constructor
  · intro hended
    induction requests generalizing s with
    | nil => exact absurd (hopen.symm.trans hended) Bool.noConfusion
    | cons request rest ih =>
      have hfirst := exists_isExit_of_answerAt (maxNesting + 1) ⟨s, request⟩ hopen
      rw [answerAt_maxNesting] at hfirst
      exact exists_isExit_of_andThen hfirst ih hended
  · intro hexits
    obtain ⟨t, after, hended⟩ := hexits.endedBy
    exact hended.finished

end AutomatonShell.Session
