import AutomatonShell.Proofs.LoggedLines
import AutomatonShell.Proofs.Runs
import Mathlib.Data.Finset.Card

/-!
# How deeply scripts are nested

Scripts may LOAD each other in any pattern, and may rewrite each other while they are replayed.  A
run comes to an end all the same, because of what is listed rather than of what the files hold: a
script is replayed only if its place is not listed, so **the places that are listed are different**
(`stack_isSelection`), and there are no more of them than places that are asked for.

The bound on nesting plays no part in this.  A run that breaks off for its nesting has as many
scripts listed as its bound allows (`exists_deep_of_failure`), and a run that does not break off is
the same with every greater bound (`answerAt_of_le`).

* **`forall_mem_callsAt`** — what holds in every session of a run.
* `exists_of_processAll_failure`, `followed_congr` — the steps for the commands of a script.
* `Appends`, **`answerAt_of_isRefused`** — what a LOAD of a script does that is being replayed.
* **`loads_bounded`** — a run as a whole.
-/

namespace AutomatonShell.Session

/-! ## Calls of a script -/

section

variable {process process' : Action} {calls calls' : Call → List Call} {I : Session → Prop}
  {s : Session} {commands : List NumberedCommand}

/-- What every call of a run hands on to the sessions of the calls it makes. -/
lemma forall_mem_followed {A B : Call → Prop} (hprocess : Action.Keeps I process)
    (hcalls : ∀ s request, I s → (∀ d ∈ calls ⟨s, request⟩, A d) → ∀ d ∈ calls ⟨s, request⟩, B d)
    (h : I s) (hA : ∀ d ∈ followed process calls s commands, A d) :
    ∀ d ∈ followed process calls s commands, B d := by
  induction commands generalizing s with
  | nil => simp [followed]
  | cons command rest ih =>
    simp only [followed, List.forall_mem_append] at hA ⊢
    refine ⟨hcalls _ _ h hA.1, ?_⟩
    split_ifs at hA ⊢
    · simp
    · exact ih (hprocess _ _ _ h) hA.2

/-- A script stops early because one of its commands does. -/
lemma exists_of_processAll_failure (calls : Call → List Call)
    (hprocess : Action.Keeps I process) (h : I s) {fault : Fault}
    (hfault : (processAll process s commands).failure = some fault) :
    ∃ t text line, I t ∧ (process t text line).failure = some fault ∧
      calls ⟨t, .command text line⟩ ⊆ followed process calls s commands := by
  induction commands generalizing s with
  | nil => cases hfault
  | cons command rest ih =>
    rw [processAll, Outcome.forEach] at hfault
    rw [followed]
    cases hfirst : (process s command.2 (some command.1)).failure with
    | some reason =>
      rw [Outcome.andThen_of_failure_eq_some hfirst] at hfault
      exact ⟨s, _, _, h, hfault, List.subset_append_left _ _⟩
    | none =>
      rw [Outcome.andThen_of_failure_eq_none hfirst] at hfault
      obtain ⟨t, text, line, ht, hfailure, hcalls⟩ := ih (hprocess _ _ _ h) hfault
      refine ⟨t, text, line, ht, hfailure, fun d hd => List.mem_append_right _ ?_⟩
      simpa [hfirst] using hcalls hd

/-- Two ways of processing that agree on commands that do not go too deep agree on scripts that do
not. -/
lemma followed_congr
    (hagree : ∀ s text line, (process s text line).failure ≠ some .nesting →
      process' s text line = process s text line ∧
        calls' ⟨s, .command text line⟩ = calls ⟨s, .command text line⟩)
    (h : (processAll process s commands).failure ≠ some .nesting) :
    processAll process' s commands = processAll process s commands ∧
      followed process' calls' s commands = followed process calls s commands := by
  induction commands generalizing s with
  | nil => exact ⟨rfl, rfl⟩
  | cons command rest ih =>
    simp only [processAll, Outcome.forEach, followed] at h ih ⊢
    cases hfirst : (process s command.2 (some command.1)).failure with
    | some reason =>
      rw [Outcome.andThen_of_failure_eq_some hfirst] at h
      obtain ⟨hsame, hcalls⟩ := hagree _ _ _ h
      rw [hsame, hcalls, Outcome.andThen_of_failure_eq_some hfirst,
        Outcome.andThen_of_failure_eq_some hfirst, hfirst]
      exact ⟨rfl, rfl⟩
    | none =>
      rw [Outcome.andThen_of_failure_eq_none hfirst] at h
      obtain ⟨hsame, hcalls⟩ := hagree _ _ _ (by rw [hfirst]; simp)
      obtain ⟨hrest, hfollowed⟩ := ih h
      rw [hsame, hcalls, Outcome.andThen_of_failure_eq_none hfirst,
        Outcome.andThen_of_failure_eq_none hfirst, hfirst, hrest, hfollowed]
      exact ⟨rfl, rfl⟩

end

/-! ## Calls of a run -/

/-- The place of the script that a call asks to LOAD. -/
def Call.place? (c : Call) : Option Location := c.task?.bind Task.place?

/-- The scripts that are being replayed while a call is answered, the one that it replays itself
behind the others. -/
def Call.stack (c : Call) : List Location :=
  c.session.loading ++ (c.opened?.map (·.2.place)).toList

section

variable {c : Call} {t : Task} {script : Script} {bound : Nat}

lemma mem_callsAt_self (bound : Nat) (c : Call) : c ∈ callsAt bound c := by
  cases bound <;> simp [callsAt]

lemma callsAt_of_opened? (h : c.opened? = some (t, script)) (bound : Nat) :
    callsAt (bound + 1) c
      = c :: followed (processAt bound) (callsAt bound) (t.enter script) script.commands := by
  rw [callsAt, h]

lemma callsAt_of_opened?_eq_none (h : c.opened? = none) (bound : Nat) :
    callsAt (bound + 1) c = [c] := by
  rw [callsAt, h]

/-- A call replays a script only if none of that place is being replayed. -/
lemma Call.place?_of_opened? (h : c.opened? = some (t, script)) :
    c.place? = some script.place ∧ script.place ∉ c.session.loading ∧
      (t.enter script).loading = c.session.loading ++ [script.place] := by
  obtain ⟨ht, hscript⟩ := opened?_eq_some.1 h
  obtain ⟨hplace, hloading⟩ := Task.place?_of_script? hscript
  have hsame := (frame_of_task? ht).loading
  exact ⟨by simp [place?, ht, hplace], hsame ▸ hloading, by rw [Task.enter, hsame]⟩

/-- **What holds in every session of a run**, by induction on the bound: what processing keeps and
what the commands of a script find when it holds where the script is replayed.  `A` is what is
known of the calls themselves. -/
theorem forall_mem_callsAt {I : Session → Prop} {A : Call → Prop}
    (hprocess : ∀ bound, Action.Keeps I (processAt bound))
    (henter : ∀ c t script, c.opened? = some (t, script) → A c → I c.session →
      I (t.enter script))
    (h : I c.session) (hA : ∀ d ∈ callsAt bound c, A d) : ∀ d ∈ callsAt bound c, I d.session := by
  induction bound generalizing c with
  | zero => simpa [callsAt] using h
  | succ bound ih =>
    cases hopened : c.opened? with
    | none => simpa [callsAt_of_opened?_eq_none hopened] using h
    | some opened =>
      obtain ⟨t, script⟩ := opened
      rw [callsAt_of_opened? hopened, List.forall_mem_cons] at hA ⊢
      refine ⟨h, forall_mem_followed (hprocess bound) (fun s request hs hd => ih hs hd) ?_ hA.2⟩
      exact henter c t script hopened hA.1 h

lemma loading_keeps (loading : List Location) (bound : Nat) :
    Action.Keeps (fun s => s.loading = loading) (processAt bound) :=
  fun s text line h => (frame_processAt bound s text line).1.loading.trans h

/-- Different places out of given ones. -/
structure IsSelection (P : Finset Location) (places : List Location) : Prop where
  nodup : places.Nodup
  subset : ∀ place ∈ places, place ∈ P

lemma IsSelection.append_singleton {P : Finset Location} {places : List Location}
    (h : IsSelection P places) {place : Location} (hnew : place ∉ places) (hP : place ∈ P) :
    IsSelection P (places ++ [place]) :=
  ⟨Automaton.nodup_append_singleton h.nodup hnew, by
    simpa [or_imp, forall_and, hP] using h.subset⟩

lemma IsSelection.length_le {P : Finset Location} {places : List Location}
    (h : IsSelection P places) : places.length ≤ P.card := by
  rw [← List.toFinset_card_of_nodup h.nodup]
  exact Finset.card_le_card fun place hplace => h.subset place (List.mem_toFinset.1 hplace)

/-- **No script is replayed inside itself**, and all that are being replayed are among the places
that were asked for. -/
theorem stack_isSelection {P : Finset Location} (h : IsSelection P c.session.loading)
    (hP : ∀ d ∈ callsAt bound c, ∀ place, d.place? = some place → place ∈ P) :
    ∀ d ∈ callsAt bound c, IsSelection P d.session.loading ∧ IsSelection P d.stack := by
  have hsessions : ∀ d ∈ callsAt bound c, IsSelection P d.session.loading := by
    refine forall_mem_callsAt (I := fun s => IsSelection P s.loading) ?_ ?_ h hP
    · intro bound s text line h
      rwa [← (frame_processAt bound s text line).1.loading] at h
    · intro d t script hopened hA h
      obtain ⟨hplace, hnew, henter⟩ := Call.place?_of_opened? hopened
      exact henter ▸ h.append_singleton hnew (hA _ hplace)
  intro d hd
  refine ⟨hsessions d hd, ?_⟩
  rw [Call.stack]
  cases hopened : d.opened? with
  | none => simpa using hsessions d hd
  | some opened =>
    obtain ⟨hplace, hnew, -⟩ := Call.place?_of_opened? hopened
    exact (hsessions d hd).append_singleton hnew (hP d hd _ hplace)

/-- **Who goes too deep is deep**: a run that breaks off for its nesting has as many scripts being
replayed as its bound allows. -/
theorem exists_deep_of_failure (h : (answerAt bound c).failure = some .nesting) :
    ∃ d ∈ callsAt bound c, d.session.loading.length = c.session.loading.length + bound := by
  induction bound generalizing c with
  | zero => exact ⟨c, mem_callsAt_self 0 c, rfl⟩
  | succ bound ih =>
    cases hopened : c.opened? with
    | none =>
      obtain ⟨r, hplain, hr⟩ := answerAt_of_opened?_eq_none hopened
      exact absurd (hr bound ▸ h) hplain.failure_ne
    | some opened =>
      obtain ⟨t, script⟩ := opened
      rw [answerAt_of_opened? hopened, Task.leave_failure] at h
      obtain ⟨s, text, line, hs, hfailure, hcalls⟩ := exists_of_processAll_failure
        (callsAt bound) (loading_keeps (t.enter script).loading bound) rfl h
      rw [processAt_eq] at hfailure
      obtain ⟨d, hd, hdeep⟩ := ih hfailure
      refine ⟨d, ?_, ?_⟩
      · rw [callsAt_of_opened? hopened]
        exact List.mem_cons_of_mem c (hcalls hd)
      · rw [hdeep, hs, (Call.place?_of_opened? hopened).2.2]
        simp only [List.length_append, List.length_singleton]
        omega

/-- **A run that does not go too deep does not depend on the bound.** -/
theorem answerAt_of_le (h : (answerAt bound c).failure ≠ some .nesting) {more : Nat}
    (hmore : bound ≤ more) :
    answerAt more c = answerAt bound c ∧ callsAt more c = callsAt bound c := by
  induction bound generalizing c more with
  | zero => exact absurd rfl h
  | succ bound ih =>
    obtain ⟨more, rfl⟩ := Nat.exists_eq_succ_of_ne_zero (Nat.ne_zero_of_lt hmore)
    cases hopened : c.opened? with
    | none =>
      obtain ⟨r, -, hr⟩ := answerAt_of_opened?_eq_none hopened
      exact ⟨(hr more).trans (hr bound).symm,
        by simp only [callsAt_of_opened?_eq_none hopened, Nat.succ_eq_add_one]⟩
    | some opened =>
      obtain ⟨t, script⟩ := opened
      rw [answerAt_of_opened? hopened, Task.leave_failure] at h
      have hagree : ∀ s text line, (processAt bound s text line).failure ≠ some .nesting →
          processAt more s text line = processAt bound s text line ∧
            callsAt more ⟨s, .command text line⟩ = callsAt bound ⟨s, .command text line⟩ := by
        intro s text line hs
        rw [processAt_eq] at hs
        simpa only [processAt_eq] using ih hs (Nat.le_of_succ_le_succ hmore)
      obtain ⟨hreply, hcalls⟩ := followed_congr hagree h
      simp only [answerAt_of_opened? hopened, callsAt_of_opened? hopened, Nat.succ_eq_add_one,
        hreply, hcalls, and_self]

end

/-! ## Refused scripts -/

section

variable {s t : Session}

/-- Nothing has changed but the open log, to which lines were handed. -/
def Appends (s t : Session) : Prop :=
  t = s ∨ ∃ log lines, s.log.current = some log ∧
    t = { s with
      workspace := log.putInto s.workspace lines
      log := { s.log with current := some (log.handed lines) } }

lemma appends_record (s : Session) (line : String) : Appends s (s.record line) := by
  cases hlog : s.log.current with
  | none =>
    rw [record, LogSink.write_of_closed hlog]
    exact Or.inl rfl
  | some log =>
    rw [record, LogSink.write_of_current hlog]
    exact Or.inr ⟨log, [line], hlog, rfl⟩

lemma Appends.trans {u : Session} (h : Appends s t) (h' : Appends t u) : Appends s u := by
  rcases h' with rfl | ⟨log', second, hlog', rfl⟩
  · exact h
  · rcases h with rfl | ⟨log, first, hlog, rfl⟩
    · exact Or.inr ⟨log', second, hlog', rfl⟩
    · obtain rfl := Option.some.inj hlog'
      refine Or.inr ⟨log, first ++ second, hlog, ?_⟩
      simp only [OpenLog.putInto_append, OpenLog.handed_append]

/-- A task to LOAD a script that is being replayed. -/
def Task.IsRefused (t : Task) : Prop := ∃ place ∈ t.session.loading, t.place? = some place

lemma Call.appends_of_task? {c : Call} {t : Task} (h : c.task? = some t) :
    Appends c.session t.session := by
  rcases session_of_task? h with hs | ⟨entry, hs⟩ <;> rw [hs]
  · exact Or.inl rfl
  · exact appends_record _ entry

/-- **A refused LOAD** is answered by one error, and changes nothing but the log. -/
theorem answerAt_of_isRefused {c : Call} {t : Task} {file : String} (ht : c.task? = some t)
    (hfile : t.file? = some file) (hrefused : t.IsRefused) (bound : Nat) :
    ∃ after, Appends c.session after ∧ answerAt (bound + 1) c
      = { state := after, output := [.error ("recursive load of " ++ file) t.line] } := by
  obtain ⟨place, hloading, hplace⟩ := hrefused
  simp only [Task.place?, hfile, Option.bind_some] at hplace
  split_ifs at hplace with hbinary hnul
  obtain rfl := Option.some.inj hplace
  refine ⟨(t.session.say t.line (.recursiveLoad file)).state,
    (Call.appends_of_task? ht).trans (appends_record _ _), ?_⟩
  rw [answerAt_of_task? ht, Task.run_of_file? hfile, load, if_neg hbinary, replay]
  simp only [if_neg hnul, List.contains_iff_mem.2 hloading, if_true]
  rfl

end

/-! ## The run as a whole -/

lemma frame_answerAt (bound : Nat) (c : Call) : Frame c.session (answerAt bound c).state := by
  cases bound with
  | zero => exact Frame.refl _
  | succ bound =>
    obtain ⟨s, _ | name⟩ := c
    · exact frame_processWith (fun s file line => (frame_processAt bound s file line).2) _ _ _
    · rw [answerAt]
      split_ifs
      · exact Frame.refl s
      · exact (frame_processAt bound s name none).2

/-- **A request to a session that a history leads to**, where the places of the scripts that it asks
to LOAD on the way are among given ones.  The scripts being replayed are different at every moment,
so no more than the places there are; the run comes to its end, with the same calls whatever the
bound, if this is not below their number; a LOAD of a script that is being replayed is refused with
one error and changes nothing but the log; and afterwards no script is listed, so none is refused
later. -/
theorem loads_bounded {s : Session} (hs : s.Reachable) (request : Request) (bound : Nat)
    (P : Finset Location)
    (hP : ∀ c ∈ callsAt (bound + 1) ⟨s, request⟩, ∀ place, c.place? = some place → place ∈ P) :
    (bound = maxNesting → answerAt (bound + 1) ⟨s, request⟩ = s.answer request) ∧
    (∀ c ∈ callsAt (bound + 1) ⟨s, request⟩,
      c.stack.Nodup ∧ (∀ place ∈ c.stack, place ∈ P) ∧ c.stack.length ≤ P.card) ∧
    (P.card ≤ bound →
      (answerAt (bound + 1) ⟨s, request⟩).failure ≠ some .nesting ∧
        ∀ more, bound ≤ more →
          answerAt (more + 1) ⟨s, request⟩ = answerAt (bound + 1) ⟨s, request⟩ ∧
            callsAt (more + 1) ⟨s, request⟩ = callsAt (bound + 1) ⟨s, request⟩) ∧
    (∀ (c : Call) (t : Task) (file : String), c.task? = some t → t.file? = some file →
      t.IsRefused → ∀ bound, ∃ after, Appends c.session after ∧ answerAt (bound + 1) c
        = { state := after, output := [.error ("recursive load of " ++ file) t.line] }) ∧
    (answerAt (bound + 1) ⟨s, request⟩).state.loading = [] ∧
    (∀ later t, Call.task? ⟨(answerAt (bound + 1) ⟨s, request⟩).state, later⟩ = some t →
      ¬ t.IsRefused) := by
  have hloading := hs.settled.1
  have hnone : IsSelection P s.loading := ⟨by simp [hloading], by simp [hloading]⟩
  have hstack := stack_isSelection hnone hP
  have hafter : (answerAt (bound + 1) ⟨s, request⟩).state.loading = [] :=
    (frame_answerAt _ _).loading.trans hloading
  refine ⟨?_, fun c hc => ?_, fun hbound => ?_, fun c t file ht hfile hrefused bound =>
    answerAt_of_isRefused ht hfile hrefused bound, hafter, ?_⟩
  · rintro rfl
    exact answerAt_maxNesting s request
  · obtain ⟨-, h⟩ := hstack c hc
    exact ⟨h.nodup, h.subset, h.length_le⟩
  · have hshallow : (answerAt (bound + 1) ⟨s, request⟩).failure ≠ some .nesting := by
      -- a run that goes too deep would list more different places than there are
      intro h
      obtain ⟨d, hd, hdeep⟩ := exists_deep_of_failure h
      have := (hstack d hd).1.length_le
      simp only [hloading, List.length_nil] at hdeep
      omega
    exact ⟨hshallow, fun more hmore => answerAt_of_le hshallow (Nat.succ_le_succ hmore)⟩
  · rintro later t ht ⟨place, hmem, -⟩
    rw [(Call.frame_of_task? ht).loading, hafter] at hmem
    simp at hmem

/-- Two scripts that LOAD each other, in other spellings of their paths, and one command behind each
LOAD. -/
theorem loads_bounded_of_mutual :
    let bytes := fun text : String => text.toList.map fun c => UInt8.ofNat c.toNat
    let a := bytes "LOAD .//b; SYMBOLS 0;"
    let b := bytes "LOAD /w/c/../a; STATES q;"
    let s := Session.start Config.standard
      { home := ["w"], files := [(["w", "a"], a), (["w", "b"], b)] }
    let run := callsAt (maxNesting + 1) ⟨s, .command "LOAD a" none⟩
    let reply := s.process "LOAD a" none
    (∀ c ∈ run, c.stack.Nodup ∧ c.stack.length ≤ 2) ∧
      run.map (·.request) = [.command "LOAD a" none, .command "LOAD .//b" (some 1),
        .command "LOAD /w/c/../a" (some 1), .command "STATES q" (some 1),
        .command "SYMBOLS 0" (some 1)] ∧
      reply.output = [.error "recursive load of /w/c/../a" (some 1)] ∧
      reply.failure = none ∧ reply.state.loading = [] := by
  intro bytes a b s run reply
  have hs : s.Reachable := .start validate_standard _
  have hplaces : (run.all fun c => c.place?.all fun place =>
      [["w", "a"], ["w", "b"]].contains place) = true := by decide +kernel
  have hP : ∀ c ∈ run, ∀ place, c.place? = some place →
      place ∈ ({["w", "a"], ["w", "b"]} : Finset Location) := by
    intro c hc place hplace
    have := List.all_eq_true.1 hplaces c hc
    simpa [hplace] using this
  obtain ⟨hreply, hstack, -, -, hloading, -⟩ :=
    loads_bounded hs (.command "LOAD a" none) maxNesting _ hP
  refine ⟨fun c hc => ⟨(hstack c hc).1, (hstack c hc).2.2⟩, by decide +kernel, by decide +kernel,
    by decide +kernel, ?_⟩
  exact (congrArg (·.state.loading) (hreply rfl)).symm.trans hloading

end AutomatonShell.Session
