import AutomatonShell.Proofs.Nesting
import AutomatonShell.Proofs.TaskFaults

/-!
# What ends a run early

A run is a tree of calls, and it breaks off where the first of them does.  So what a request fails
for is **the first fault in the list of its calls**, and the request is answered in full if there is
none.  That too many scripts are nested is a fault like the others: it is that of a call that finds
as many scripts listed as there may be.

* `Call.fault?` — the fault of a call.
* `processAll_failure` — the step for the commands of a script.
* `answerAt_failure` — the induction on the bound.
* **`answer_failure`** — a request as a whole.
* `exists_process_failure` — there is a command that breaks off.
-/

namespace AutomatonShell.Session

variable {s : Session}

/-- **The fault of a call**: too many scripts are being replayed already, or its task has one. -/
def Call.fault? (c : Call) : Option Fault :=
  if maxNesting < c.session.loading.length then some .nesting else c.task?.bind Task.fault?

lemma IsSound.of_frame {t : Session} (h : IsSound s) (hframe : Frame s t)
    (hwf : t.automaton.WellFormed) : IsSound t where
  wellFormed := hwf
  commentPrefix_ne := hframe.config ▸ h.commentPrefix_ne
  codec_known := hframe.config ▸ h.codec_known
  log_codec := by rw [hframe.codec?, hframe.config, h.log_codec]

/-- Processing keeps a session sound and the scripts that are listed. -/
lemma isSound_keeps (loading : List Location) (bound : Nat) :
    Action.Keeps (fun s => IsSound s ∧ s.loading = loading) (processAt bound) := by
  rintro s text line ⟨hs, rfl⟩
  have hframe := (frame_processAt bound s text line).1
  exact ⟨hs.of_frame hframe ((processAt_wellFormed bound).1 s text line hs.wellFormed),
    hframe.loading⟩

/-- The commands of a script break off for the first fault on their way. -/
lemma processAll_failure {I : Session → Prop} {process : Action} {calls : Call → List Call}
    {fault? : Call → Option Fault} (hprocess : Action.Keeps I process)
    (hcall : ∀ s text line, I s →
      (process s text line).failure = (calls ⟨s, .command text line⟩).findSome? fault?)
    (h : I s) (commands : List NumberedCommand) :
    (processAll process s commands).failure
      = (followed process calls s commands).findSome? fault? := by
  induction commands generalizing s with
  | nil => rfl
  | cons command rest ih =>
    have hfirst := hcall s command.2 (some command.1) h
    simp only [processAll, Outcome.forEach, followed, List.findSome?_append] at ih ⊢
    rw [← hfirst]
    cases hfailure : (process s command.2 (some command.1)).failure with
    | some fault => simp [Outcome.andThen_of_failure_eq_some hfailure, hfailure]
    | none =>
      simpa [Outcome.andThen_of_failure_eq_none hfailure] using ih (hprocess _ _ _ h)

lemma Call.isSound_of_task? {c : Call} {t : Task} (h : c.task? = some t)
    (hc : IsSound c.session) : IsSound t.session := by
  refine hc.of_frame (frame_of_task? h) ?_
  rcases session_of_task? h with hs | ⟨entry, hs⟩ <;> rw [hs]
  · exact hc.wellFormed
  · exact hc.wellFormed

/-- **A call breaks off for the first fault on its way**, by induction on the bound, which is what
is left to the greatest nesting. -/
theorem answerAt_failure {bound : Nat} {c : Call} (h : IsSound c.session)
    (hbound : c.session.loading.length + bound = maxNesting + 1) :
    (answerAt bound c).failure = (callsAt bound c).findSome? Call.fault? := by
  induction bound generalizing c with
  | zero =>
    have hdeep : maxNesting < c.session.loading.length := by omega
    simp [answerAt, callsAt, Call.fault?, hdeep, Outcome.stop]
  | succ bound ih =>
    have hshallow : ¬ maxNesting < c.session.loading.length := by omega
    have hfault : c.fault? = c.task?.bind Task.fault? := if_neg hshallow
    cases hopened : c.opened? with
    | none =>
      rw [callsAt_of_opened?_eq_none hopened, List.findSome?_singleton, hfault]
      cases ht : c.task? with
      | none =>
        obtain ⟨r, -, hfailure, hr⟩ := answerAt_of_task?_eq_none ht
        rw [hr, hfailure]
        rfl
      | some t =>
        have hscript : t.script? = none := by simpa [Call.opened?, ht] using hopened
        rw [answerAt_of_task? ht, Task.failure_eq (Call.isSound_of_task? ht h) hscript]
        rfl
    | some opened =>
      obtain ⟨t, script⟩ := opened
      obtain ⟨ht, hscript⟩ := Call.opened?_eq_some.1 hopened
      obtain ⟨-, -, henter⟩ := Call.place?_of_opened? hopened
      -- a call that replays a script has no fault of its own: the first one lies in the script
      have hnone : c.fault? = none := by
        rw [hfault, ht, Option.bind_some, Task.fault?_of_script? hscript]
      have ht' := Call.isSound_of_task? ht h
      have henter' : IsSound (t.enter script) :=
        ⟨ht'.wellFormed, ht'.commentPrefix_ne, ht'.codec_known, ht'.log_codec⟩
      rw [answerAt_of_opened? hopened, Task.leave_failure, callsAt_of_opened? hopened,
        List.findSome?_cons, hnone]
      refine processAll_failure (isSound_keeps _ bound) ?_ ⟨henter', rfl⟩ _
      rintro s text line ⟨hs, hloading⟩
      rw [processAt_eq]
      refine ih hs ?_
      rw [hloading, henter, List.length_append, List.length_singleton]
      omega

lemma commentPrefix_ne_of_validate {settings : Settings} {platform : Platform} {config : Config}
    (h : settings.validate platform = .ok config) : config.commentPrefix ≠ "" := by
  rw [Settings.validate] at h
  -- the checks one after the other; only settings that pass all of them are accepted
  split at h
  · cases h
  · split at h
    · cases h
    · split at h
      · cases h
      · split at h
        · cases h
        · next hmarker =>
          split at h
          · cases h
          · rw [← Except.ok.inj h]
            exact hmarker

lemma Reachable.isSound (h : Reachable s) (hknown : s.config.codec?.isSome) : IsSound s := by
  obtain ⟨-, -, settings, platform, hsettings⟩ := h.settled
  exact ⟨h.wellFormed, commentPrefix_ne_of_validate hsettings, hknown, h.codec?_log⟩

/-- **What suffices for an answer**, and what a fault leads to, in a session that a history leads to
and whose encoding the platform knows.  A request is answered in full if none of its calls has a
fault, and otherwise it breaks off with the first one.

A fault is a NUL in the name of a file that is opened, a listing that the encoding cannot express, a
script that it cannot make sense of, a snapshot whose reading breaks off, or too deep a nesting.
This is about files as a workspace has them: there are no links between folders, the working
directory is there, and every name and every text can be written in UTF-8. -/
theorem answer_failure (hs : s.Reachable) (hknown : s.config.codec?.isSome) (request : Request) :
    ((∀ c ∈ callsAt (maxNesting + 1) ⟨s, request⟩, c.fault? = none) →
      (s.answer request).failure = none) ∧
    ∀ front c back fault, callsAt (maxNesting + 1) ⟨s, request⟩ = front ++ c :: back →
      (∀ d ∈ front, d.fault? = none) → c.fault? = some fault →
        (s.answer request).failure = some fault := by
  have hfirst : (s.answer request).failure
      = (callsAt (maxNesting + 1) ⟨s, request⟩).findSome? Call.fault? := by
    rw [← answerAt_maxNesting]
    refine answerAt_failure (hs.isSound hknown) ?_
    rw [hs.settled.1, List.length_nil, Nat.zero_add]
  rw [hfirst]
  refine ⟨List.findSome?_eq_none_iff.2, fun front c back fault hcalls hfront hfault => ?_⟩
  rw [hcalls, List.findSome?_append, List.findSome?_eq_none_iff.2 hfront, Option.none_or,
    List.findSome?_cons, hfault]

/-- A script whose second command names a file with a NUL; the third is not reached. -/
theorem answer_failure_of_script :
    let script := "PRINT x; LOAD y\x00; STATES q;".toList.map fun c => UInt8.ofNat c.toNat
    let s := Session.start Config.standard { home := [], files := [(["a"], script)] }
    let reply := s.answer (.file "a")
    reply.failure = some .nulInName ∧
      reply.output = [.info "configuration written to file x"] := by
  intro script s reply
  have hs : s.Reachable := .start validate_standard _
  refine ⟨?_, by decide +kernel⟩
  obtain ⟨-, hfault⟩ := answer_failure hs (by decide +kernel) (.file "a")
  -- the call for the script and the two commands that it comes to
  have hfaults : (callsAt (maxNesting + 1) ⟨s, .file "a"⟩).map Call.fault?
      = [none, none, some .nulInName] := by decide +kernel
  obtain ⟨front, back, hcalls, hfront, hback⟩ := List.map_eq_append_iff.1
    (show _ = [none, none] ++ [some Fault.nulInName] from hfaults)
  obtain ⟨c, rest, rfl, hc, -⟩ := List.map_eq_cons_iff.1 hback
  refine hfault front c rest .nulInName hcalls (fun d hd => ?_) hc
  have hmem : d.fault? ∈ [none, none] := hfront ▸ List.mem_map_of_mem hd
  simpa using hmem

/-- A command can break off. -/
theorem exists_process_failure :
    ¬ ∀ (s : Session) (text : String) (line : Option Int), s.Reachable →
      s.config.codec?.isSome → (s.process text line).failure = none := by
  intro h
  have hstart := h (Session.start Config.standard { home := [] }) "LOAD x\x00y" none
    (.start validate_standard _) (by decide +kernel)
  exact absurd hstart (by decide +kernel)

end AutomatonShell.Session
