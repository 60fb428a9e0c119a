import AutomatonShell.Proofs.Runs

/-!
# EXIT is final

EXIT says its farewell, closes the log and ends the session.  It may stand anywhere: in the middle
of a script, in a script that another script replays, or in front of further requests.  Whatever
stands behind it still has its turn, and each of these turns has to notice that the session has
ended.  Here the turns are laid out: an EXIT splits the calls of a run into those before and those
after it, and **what the run leaves is what the EXIT left** (`isFinal_answerAt`), but for the list
of scripts, which every replay puts back.

The argument is one lemma about two steps in sequence (`IsFinal.andThen`): if the EXIT is in the
first, the second finds an ended session; if it is in the second, it has the last word there.
Commands of a script, and requests to a session, are both such sequences.

* `begunAt` — the calls of a run that begin.
* `Task.IsExit`, `Task.exited` — an EXIT without arguments, and what it leaves.
* `IsFinal` — no call behind an EXIT changes or says anything.
* **`isFinal_answerAt`** — a request, with scripts nested to any depth.
* **`isFinal_answerAll`** — requests one after the other.
-/

namespace AutomatonShell.Session

variable {s : Session} {c : Call} {t : Task} {bound : Nat}

/-! ## Sessions that have ended -/

lemma Call.task?_of_finished (h : c.session.finished = true) : c.task? = none := by
  rw [task?, if_pos h]

lemma Call.opened?_of_finished (h : c.session.finished = true) : c.opened? = none := by
  rw [opened?, task?_of_finished h, Option.bind_none]

lemma answer_of_finished (h : s.finished = true) (request : Request) :
    s.answer request = .done s := by
  rw [← answerAt_maxNesting]
  exact answerAt_of_finished h maxNesting

lemma processAll_of_finished (h : s.finished = true) (bound : Nat)
    (commands : List NumberedCommand) :
    processAll (processAt (bound + 1)) s commands = .done s := by
  induction commands with
  | nil => rfl
  | cons command rest ih =>
    rw [processAll, Outcome.forEach, processAt_eq, answerAt_of_finished h, Outcome.done_andThen]
    exact ih

/-! ## EXIT -/

/-- An EXIT without arguments. -/
def Task.IsExit (t : Task) : Prop := t.keyword = .exit ∧ t.words = []

/-- The last message of a session. -/
def farewell : Message := Diagnostic.terminated.message none

/-- **What EXIT leaves**: the farewell in the log, the log closed, and the session ended. -/
def Task.exited (t : Task) : Session :=
  { (t.session.record farewell.render).closeLog with finished := true }

lemma Task.run_of_isExit (h : t.IsExit) (load : Action) :
    t.run load = { state := t.exited, output := [farewell] } := by
  obtain ⟨hkeyword, hwords⟩ := h
  rw [run, hkeyword, hwords]
  rfl

/-- An EXIT replays no script. -/
lemma Task.script?_of_isExit (h : t.IsExit) : t.script? = none := by
  rw [script?, file?, h.1]
  rfl

/-! ## Calls that begin -/

/-- **The calls of a run that begin.**  These are all its calls but one that is nested too deeply:
it breaks the run off and nothing of it is carried out. -/
def begunAt : (bound : Nat) → Call → List Call
  | 0, _ => []
  | bound + 1, c =>
    c :: match c.opened? with
      | none => []
      | some (t, script) =>
        followed (processAt bound) (begunAt bound) (t.enter script) script.commands

lemma begunAt_of_opened? {script : Script} (h : c.opened? = some (t, script)) (bound : Nat) :
    begunAt (bound + 1) c
      = c :: followed (processAt bound) (begunAt bound) (t.enter script) script.commands := by
  rw [begunAt, h]

lemma begunAt_of_opened?_eq_none (h : c.opened? = none) (bound : Nat) :
    begunAt (bound + 1) c = [c] := by
  rw [begunAt, h]

lemma finished_of_mem_begunAt (h : c.session.finished = true) :
    ∀ d ∈ begunAt bound c, d.session.finished = true := by
  cases bound with
  | zero => simp [begunAt]
  | succ bound => simpa [begunAt_of_opened?_eq_none (Call.opened?_of_finished h)] using h

lemma finished_of_mem_followed (h : s.finished = true) (commands : List NumberedCommand) :
    ∀ d ∈ followed (processAt (bound + 1)) (begunAt (bound + 1)) s commands,
      d.session.finished = true := by
  induction commands with
  | nil => simp [followed]
  | cons command rest ih =>
    have hfirst : processAt (bound + 1) s command.2 (some command.1) = .done s :=
      (processAt_eq _ _ _ _).trans (answerAt_of_finished h bound)
    rw [followed, hfirst]
    refine List.forall_mem_append.2 ⟨finished_of_mem_begunAt h, ?_⟩
    simpa [Outcome.done] using ih

/-! ## The last word -/

section

variable {μ : Type} {last : μ} {calls calls' after : List Call} {r : Outcome Session μ Fault}
  {next : Session → Outcome Session μ Fault}

/-- **What an EXIT makes of a run**, with the calls behind it.  The run ends without a fault in the
session that the EXIT left; the farewell is the last that it says; and the calls behind find a
session that has ended, which answers nothing. -/
structure EndedBy (last : μ) (t : Task) (after : List Call) (s : Session)
    (r : Outcome Session μ Fault) : Prop where
  failure : r.failure = none
  state : r.state = { t.exited with loading := s.loading }
  output : ∃ said, r.output = said ++ [last]
  after : ∀ e ∈ after, e.session.finished = true ∧
    ∀ bound, answerAt (bound + 1) e = .done e.session

lemma EndedBy.finished (h : EndedBy last t after s r) : r.state.finished = true := by
  rw [h.state]
  rfl

lemma EndedBy.closed (h : EndedBy last t after s r) : r.state.log.active = false := by
  rw [h.state]
  rfl

/-- **EXIT has the last word**, wherever in a run a call is an EXIT. -/
def IsFinal (last : μ) (calls : List Call) (s : Session) (r : Outcome Session μ Fault) : Prop :=
  ∀ before d after t, calls = before ++ d :: after → d.task? = some t → t.IsExit →
    EndedBy last t after s r

lemma isFinal_nil : IsFinal last [] s r := by
  intro before d after t h
  simp at h

/-- An EXIT in the first of two steps: the second finds an ended session and does nothing. -/
lemma EndedBy.andThen_left (h : EndedBy last t after s r)
    (hnext : next r.state = .done r.state) (hcalls : ∀ e ∈ calls, e.session.finished = true) :
    EndedBy last t (after ++ calls) s (r.andThen next) := by
  have hsame : r.andThen next = r := by
    rw [Outcome.andThen_of_failure_eq_none h.failure, hnext]
    obtain ⟨state, output, failure⟩ := r
    obtain rfl : failure = none := h.failure
    simp [Outcome.done]
  rw [hsame]
  refine ⟨h.failure, h.state, h.output, List.forall_mem_append.2 ⟨h.after, fun e he => ?_⟩⟩
  exact ⟨hcalls e he, answerAt_of_finished (hcalls e he)⟩

/-- An EXIT in the second of two steps. -/
lemma EndedBy.andThen_right (h : EndedBy last t after r.state (next r.state))
    (hfailure : r.failure = none) (hloading : r.state.loading = s.loading) :
    EndedBy last t after s (r.andThen next) := by
  rw [Outcome.andThen_of_failure_eq_none hfailure]
  obtain ⟨said, houtput⟩ := h.output
  exact ⟨h.failure, hloading ▸ h.state,
    ⟨r.output ++ said, by rw [List.append_assoc, ← houtput]⟩, h.after⟩

/-- One of the calls of two steps is in the first or in the second. -/
lemma append_eq_append_cons {α : Type} {first second before after : List α} {a : α}
    (h : first ++ second = before ++ a :: after) :
    (∃ rest, first = before ++ a :: rest ∧ after = rest ++ second) ∨
      ∃ front, before = first ++ front ∧ second = front ++ a :: after := by
  rcases List.append_eq_append_iff.1 h with ⟨front, hbefore, hsecond⟩ | ⟨rest, hfirst, hrest⟩
  · exact Or.inr ⟨front, hbefore, hsecond⟩
  · cases rest with
    | nil => exact Or.inr ⟨[], by simpa using hfirst.symm, hrest.symm⟩
    | cons b rest =>
      obtain ⟨rfl, rfl⟩ := List.cons.inj hrest
      exact Or.inl ⟨rest, hfirst, rfl⟩

/-- **Two steps in sequence**, of which the second is not carried out if the first stops early, and
does nothing in a session that has ended. -/
lemma IsFinal.andThen (hfirst : IsFinal last calls s r)
    (next : Session → Outcome Session μ Fault) (hloading : r.state.loading = s.loading)
    (hidle : r.failure = none → r.state.finished = true →
      next r.state = .done r.state ∧ ∀ e ∈ calls', e.session.finished = true)
    (hnext : IsFinal last calls' r.state (next r.state)) :
    IsFinal last (calls ++ if r.failure.isSome then [] else calls') s (r.andThen next) := by
  intro before d after t hcalls ht hexit
  rcases append_eq_append_cons hcalls with ⟨rest, hfront, rfl⟩ | ⟨front, -, hback⟩
  · have hended := hfirst before d rest t hfront ht hexit
    obtain ⟨hdone, hcalls'⟩ := hidle hended.failure hended.finished
    refine hended.andThen_left hdone fun e he => hcalls' e ?_
    rwa [hended.failure] at he
  · cases hr : r.failure with
    | some fault => simp [hr] at hback
    | none =>
      have hended := hnext front d after t (by simpa [hr] using hback) ht hexit
      exact hended.andThen_right hr hloading

end

/-- The commands of a script: a sequence of as many steps. -/
lemma isFinal_processAll
    (h : ∀ c, IsFinal farewell (begunAt bound c) c.session (answerAt bound c)) (s : Session)
    (commands : List NumberedCommand) :
    IsFinal farewell (followed (processAt bound) (begunAt bound) s commands) s
      (processAll (processAt bound) s commands) := by
  induction commands generalizing s with
  | nil => exact isFinal_nil
  | cons command rest ih =>
    have hfirst := h ⟨s, .command command.2 (some command.1)⟩
    rw [← processAt_eq] at hfirst
    refine hfirst.andThen (fun s => processAll (processAt bound) s rest)
      (frame_processAt bound _ _ _).1.loading (fun hfailure hfinished => ?_) (ih _)
    cases bound with
    | zero => exact nomatch hfailure
    | succ bound =>
      exact ⟨processAll_of_finished hfinished bound rest, finished_of_mem_followed hfinished rest⟩

/-- Nothing is left to do when a script has ended the session. -/
lemma Task.leave_of_finished (t : Task) (script : Script) {replayed : Reply}
    (hfailure : replayed.failure = none) (hfinished : replayed.state.finished = true) :
    t.leave script replayed
      = { replayed with state := { replayed.state with loading := t.session.loading } } := by
  obtain ⟨state, output, failure⟩ := replayed
  obtain rfl : failure = none := hfailure
  have hfinished : state.finished = true := hfinished
  simp [leave, Outcome.andThen, Outcome.done, hfinished]

/-- **EXIT is final in the run of a request**, by induction on the bound on nesting.  The scripts
that an EXIT ends are left one after the other, without a word about their unfinished commands. -/
theorem isFinal_answerAt (bound : Nat) (c : Call) :
    IsFinal farewell (begunAt bound c) c.session (answerAt bound c) := by
  induction bound generalizing c with
  | zero => exact isFinal_nil
  | succ bound ih =>
    intro before d after t hcalls ht hexit
    cases hopened : c.opened? with
    | none =>
      rw [begunAt_of_opened?_eq_none hopened] at hcalls
      obtain ⟨rfl, hd, rfl⟩ : before = [] ∧ d = c ∧ after = [] := by
        simpa [List.append_eq_cons_iff] using hcalls.symm
      subst hd
      have hloading : t.exited.loading = d.session.loading := (Call.frame_of_task? ht).loading
      rw [answerAt_of_task? ht, Task.run_of_isExit hexit]
      exact ⟨rfl, hloading ▸ rfl, ⟨[], rfl⟩, by simp⟩
    | some opened =>
      obtain ⟨u, script⟩ := opened
      obtain ⟨hu, hscript⟩ := Call.opened?_eq_some.1 hopened
      rw [begunAt_of_opened? hopened] at hcalls
      rcases before with _ | ⟨e, before⟩
      · -- the call itself replays a script
        obtain ⟨rfl, -⟩ := List.cons.inj hcalls
        obtain rfl := Option.some.inj (ht.symm.trans hu)
        exact nomatch hscript.symm.trans (Task.script?_of_isExit hexit)
      · obtain ⟨-, hcalls⟩ := List.cons.inj hcalls
        have hended := isFinal_processAll ih _ _ before d after t hcalls ht hexit
        rw [answerAt_of_opened? hopened,
          Task.leave_of_finished u script hended.failure hended.finished]
        refine ⟨hended.failure, ?_, hended.output, hended.after⟩
        show { (processAll _ _ _).state with loading := u.session.loading } = _
        rw [hended.state, (Call.frame_of_task? hu).loading]

/-! ## Requests one after the other -/

/-- Requests answered one after the other, up to one that ends in a fault. -/
def answerAll (s : Session) (requests : List Request) : Reply := Outcome.forEach answer s requests

/-- The calls that begin when requests are answered one after the other. -/
def begun : Session → List Request → List Call
  | _, [] => []
  | s, request :: rest =>
    begunAt (maxNesting + 1) ⟨s, request⟩ ++
      if (s.answer request).failure.isSome then [] else begun (s.answer request).state rest

lemma answerAll_append (s : Session) (requests more : List Request) :
    answerAll s (requests ++ more)
      = (answerAll s requests).andThen fun s => answerAll s more :=
  Outcome.forEach_append answer s requests more

/-- **All requests to a session that has ended** are answered with nothing. -/
theorem answerAll_of_finished (h : s.finished = true) (requests : List Request) :
    answerAll s requests = .done s := by
  induction requests with
  | nil => rfl
  | cons request rest ih =>
    rw [answerAll, Outcome.forEach, answer_of_finished h, Outcome.done_andThen]
    exact ih

lemma finished_of_mem_begun (h : s.finished = true) (requests : List Request) :
    ∀ e ∈ begun s requests, e.session.finished = true := by
  induction requests with
  | nil => simp [begun]
  | cons request rest ih =>
    rw [begun, answer_of_finished h]
    refine List.forall_mem_append.2 ⟨finished_of_mem_begunAt h, ?_⟩
    simpa [Outcome.done] using ih

lemma frame_answerAll (s : Session) (requests : List Request) :
    Frame s (answerAll s requests).state := by
  refine Outcome.forEach_keeps (I := Frame s) (fun t request _ ht => ht.trans ?_) (Frame.refl s)
  cases request with
  | command text line => exact frame_process t text line
  | file name => exact frame_runFile t name

/-- **EXIT is final in a run of requests.** -/
theorem isFinal_answerAll (s : Session) (requests : List Request) :
    IsFinal farewell (begun s requests) s (answerAll s requests) := by
  induction requests generalizing s with
  | nil => exact isFinal_nil
  | cons request rest ih =>
    have hfirst := isFinal_answerAt (maxNesting + 1) ⟨s, request⟩
    rw [answerAt_maxNesting] at hfirst
    have hloading : (s.answer request).state.loading = s.loading := by
      simpa [answerAll, Outcome.forEach, Outcome.andThen_done] using
        (frame_answerAll s [request]).loading
    exact hfirst.andThen (fun s => answerAll s rest) hloading (fun _ hfinished =>
      ⟨answerAll_of_finished hfinished rest, finished_of_mem_begun hfinished rest⟩) (ih _)

end AutomatonShell.Session
