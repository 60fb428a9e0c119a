import AutomatonShell.Proofs.CommandLines
import AutomatonShell.Proofs.Inlining
import AutomatonShell.Proofs.LogContents

/-!
# Inline expansion at work

A LOAD of a script comes to the same as its flat run.  Here is what a flat run looks like turn by
turn, and what follows for the LOAD.

What is said in a turn names the line of its step, because no turn replays a script
(`isPlain_flattenAt`); and every step but the lines of the LOADs stands in one of the scripts that
the LOAD replays (`isFrom_flattenAt`).  The lines of the LOADs themselves say nothing, but they are
written to the log.  Without them the flat run keeps up with the whole one as long as nothing is
LOADed from a file that such a line was written to (`runFlat_alike`).  This condition is needed:
a session may compile to the file of its own log, and then one line decides whether the snapshot can
be read (`exists_load_not_inlined`).

* `Turn`, `turns` — the turns of a flat run.
* `echoedIn`, `Turn.Avoids` — the files that get the line of a LOAD, and turns that LOAD none.
* **`runFlat_alike`** — the lines of the LOADs left out.
* `FlatStep.StandsIn` — where a step stands in the lines of a script.
* **`load_inlined`** — LOAD of a script is inline expansion.
-/

namespace AutomatonShell.Session

open Outcome

/-! ## Turns -/

/-- A step of a flat run, and the session that it finds. -/
structure Turn where
  session : Session
  step : FlatStep

/-- What comes of a turn. -/
def Turn.reply (turn : Turn) : Reply := turn.step.run turn.session

/-- The turns of a flat run, up to one that stops early. -/
def turns : Session → List FlatStep → List Turn
  | _, [] => []
  | s, step :: rest =>
    ⟨s, step⟩ :: if (step.run s).failure.isSome then [] else turns (step.run s).state rest

section

variable {s s' : Session} {l : List Location} {steps : List FlatStep} {P : Turn → Prop}

lemma forall_turns_append {more : List FlatStep} (hsteps : ∀ turn ∈ turns s steps, P turn)
    (hmore : ∀ turn ∈ turns (runFlat s steps).state more, P turn) :
    ∀ turn ∈ turns s (steps ++ more), P turn := by
  induction steps generalizing s with
  | nil => exact hmore
  | cons step rest ih =>
    rw [turns, List.forall_mem_cons] at hsteps
    rw [List.cons_append, turns, List.forall_mem_cons]
    refine ⟨hsteps.1, ?_⟩
    cases hfailure : (step.run s).failure with
    | some fault => simp
    | none =>
      rw [runFlat, Outcome.forEach, Outcome.andThen_of_failure_eq_none hfailure] at hmore
      rw [hfailure] at hsteps
      exact ih hsteps.2 hmore

/-- Every step of a run that does not stop early has its turn. -/
lemma map_step_turns (h : (runFlat s steps).failure = none) :
    (turns s steps).map (·.step) = steps := by
  induction steps generalizing s with
  | nil => rfl
  | cons step rest ih =>
    rw [runFlat, Outcome.forEach, Outcome.andThen_failure_eq_none] at h
    rw [turns, h.1]
    exact congrArg _ (ih h.2)

/-- What a flat run says is what is said in its turns. -/
lemma output_runFlat (s : Session) (steps : List FlatStep) :
    (runFlat s steps).output = (turns s steps).flatMap (·.reply.output) := by
  induction steps generalizing s with
  | nil => rfl
  | cons step rest ih =>
    rw [runFlat, Outcome.forEach, turns, List.flatMap_cons]
    cases hfailure : (step.run s).failure with
    | some fault =>
      rw [Outcome.andThen_of_failure_eq_some hfailure]
      simp [Turn.reply]
    | none =>
      rw [Outcome.andThen_of_failure_eq_none hfailure]
      exact congrArg _ (ih _)

lemma mem_of_mem_turns : ∀ turn ∈ turns s steps, turn.step ∈ steps := by
  induction steps generalizing s with
  | nil => simp [turns]
  | cons step rest ih =>
    rw [turns, List.forall_mem_cons]
    refine ⟨List.mem_cons_self, fun turn hturn => List.mem_cons_of_mem step ?_⟩
    split_ifs at hturn
    · simp at hturn
    · exact ih turn hturn

end

/-- A turn of a request which replays no script, if it is one of a request. -/
def Turn.IsPlain (turn : Turn) : Prop :=
  ∀ request, turn.step = .asked request → Call.opened? ⟨turn.session, request⟩ = none

lemma isPlain_ending (s : Session) (script : Script) :
    ∀ turn ∈ turns s script.ending, turn.IsPlain := by
  intro turn hturn request hrequest
  have hstep := mem_of_mem_turns turn hturn
  rw [hrequest, Script.ending] at hstep
  split_ifs at hstep <;> simp at hstep

/-- **No turn of a call laid out flat replays a script**, by induction on the bound on nesting. -/
theorem isPlain_flattenAt (bound : Nat) (c : Call) :
    ∀ turn ∈ turns c.session (flattenAt bound c), turn.IsPlain := by
  induction bound generalizing c with
  | zero => simp [flattenAt, turns]
  | succ bound ih =>
    cases hopened : c.opened? with
    | none =>
      rw [flattenAt_of_opened?_eq_none hopened, turns, List.forall_mem_cons]
      refine ⟨fun request hrequest => ?_, by split_ifs <;> simp [turns]⟩
      obtain rfl := FlatStep.asked.inj hrequest
      exact hopened
    | some opened =>
      obtain ⟨t, script⟩ := opened
      have hcommands : ∀ (commands : List NumberedCommand) (s : Session),
          ∀ turn ∈ turns s (flattened (flattenAt bound) s commands), turn.IsPlain := by
        intro commands
        induction commands with
        | nil => simp [flattened, turns]
        | cons command rest ihrest =>
          intro s
          rw [flattened]
          exact forall_turns_append (ih ⟨s, .command command.2 (some command.1)⟩) (ihrest _)
      have hlogged : ∀ turn ∈ turns c.session (c.echo?.map FlatStep.logged).toList,
          turn.IsPlain := by
        intro turn hturn request hrequest
        have hstep := mem_of_mem_turns turn hturn
        rw [hrequest] at hstep
        simp at hstep
      rw [flattenAt_of_opened? hopened, List.append_assoc]
      refine forall_turns_append hlogged ?_
      rw [runFlat_logged (Call.opened?_eq_some.1 hopened).1]
      exact forall_turns_append (hcommands _ _) (isPlain_ending _ script)

/-! ## Without the lines of the LOADs -/

/-- Whether a step does no more than write the line of a LOAD to the log. -/
def FlatStep.isLogged : FlatStep → Bool
  | logged _ => true
  | _ => false

/-- The files that get the line of a LOAD. -/
def echoedIn (turns : List Turn) : Set Location :=
  {place | ∃ turn ∈ turns, turn.step.isLogged ∧
    ∃ log, turn.session.log.current = some log ∧ log.place = place}

/-- A turn that LOADs none of some files, nor anything by way of them. -/
def Turn.Avoids (turn : Turn) (places : Set Location) : Prop :=
  ∀ request t, turn.step = .asked request → Call.task? ⟨turn.session, request⟩ = some t →
    ∀ place ∈ places, ¬ t.Passes place

/-- **The lines of the LOADs left out**, by induction on the steps.  What is left keeps up with the
whole, in sessions that differ in the files which get these lines. -/
theorem runFlat_alike {s s' : Session} {L : Set Location} {steps : List FlatStep}
    (h : Alike L s s') (hplain : ∀ turn ∈ turns s steps, turn.IsPlain)
    (havoids : ∀ turn ∈ turns s steps, turn.Avoids L) (hechoed : echoedIn (turns s steps) ⊆ L)
    (hruns : (runFlat s steps).failure = none) :
    Agree (Alike L) Eq (runFlat s steps) (runFlat s' (steps.filter (!·.isLogged))) := by
  induction steps generalizing s s' with
  | nil => exact agree_done h
  | cons step rest ih =>
    rw [runFlat, Outcome.forEach, Outcome.andThen_failure_eq_none] at hruns
    obtain ⟨hfirst, hrest⟩ := hruns
    rw [turns, hfirst] at hplain havoids hechoed
    rw [List.forall_mem_cons] at hplain havoids
    have hlater : echoedIn (turns (step.run s).state rest) ⊆ L := by
      refine Set.Subset.trans ?_ hechoed
      rintro place ⟨turn, hturn, hlogged⟩
      exact ⟨turn, List.mem_cons_of_mem _ hturn, hlogged⟩
    have hstep (hagree : Agree (Alike L) Eq (step.run s) (step.run s')) :
        Agree (Alike L) Eq ((step.run s).andThen fun s => runFlat s rest)
          ((step.run s').andThen fun s => runFlat s (rest.filter (!·.isLogged))) :=
      hagree.andThen fun h => ih h hplain.2 havoids.2 hlater hrest
    cases step with
    | logged line =>
      have hlog : ∀ log, s.log.current = some log → log.place ∈ L := fun log hlog =>
        hechoed ⟨_, List.mem_cons_self, rfl, log, hlog, rfl⟩
      exact ih (h.record_left hlog line) hplain.2 havoids.2 hlater hrest
    | asked request =>
      refine hstep (answer_alike h (hplain.1 request rfl)
        (fun t place ht hpasses hplace => ?_) hfirst)
      exact havoids.1 request t rfl ht place hplace hpasses
    | unfinished file pending length =>
      refine hstep ?_
      rw [FlatStep.run, FlatStep.run, h.finished]
      split_ifs
      · exact agree_done h
      · exact h.say _

/-! ## Where the steps come from -/

/-- The line that a step is about. -/
def FlatStep.line? : FlatStep → Option Int
  | logged _ => none
  | asked request => request.line?
  | unfinished _ _ length => some length

/-- **What is said in a turn** names the line of its step. -/
theorem Turn.IsPlain.isAbout {turn : Turn} (h : turn.IsPlain) :
    IsAbout turn.step.line? turn.reply := by
  obtain ⟨s, step⟩ := turn
  cases step with
  | logged line => exact isAbout_done none _
  | asked request => exact isAbout_answer (h request rfl)
  | unfinished file pending length =>
    rw [reply, FlatStep.run]
    split_ifs
    · exact isAbout_done _ s
    · exact isAbout_say s _ _

/-- The commands of a script, and what there is to say at its end. -/
def Script.steps (script : Script) : List FlatStep :=
  script.commands.map (fun command => .asked (.command command.2 (some command.1)))
    ++ script.ending

/-- A step that stands in a script which one of some calls replays. -/
def FlatStep.IsFrom (calls : List Call) (step : FlatStep) : Prop :=
  ∃ c ∈ calls, ∃ t script, c.opened? = some (t, script) ∧ step ∈ script.steps

section

variable {s : Session} {l : List Location} {bound : Nat} {request : Request}
  {calls calls' : List Call} {step : FlatStep}

lemma FlatStep.IsFrom.mono (h : step.IsFrom calls) (hsub : calls ⊆ calls') :
    step.IsFrom calls' := by
  obtain ⟨c, hc, hscript⟩ := h
  exact ⟨c, hsub hc, hscript⟩

/-- The commands of a script laid out flat are its own, or those of scripts that they replay. -/
lemma isFrom_flattened
    (ih : ∀ {s : Session} {request : Request}, s.loading ⊆ l →
      (∀ d ∈ callsAt bound ⟨s.relist l, request⟩, ∀ t, d.task? = some t → ¬ t.IsRefused) →
      (answerAt bound ⟨s.relist l, request⟩).failure = none →
      ∀ step ∈ flattenAt bound ⟨s, request⟩,
        (Call.opened? ⟨s, request⟩ = none ∧ step = .asked request) ∨ step.isLogged ∨
          step.IsFrom (callsAt bound ⟨s.relist l, request⟩))
    (hs : s.loading ⊆ l) {commands : List NumberedCommand}
    (hrefused : ∀ d ∈ followed (processAt bound) (callsAt bound) (s.relist l) commands,
      ∀ t, d.task? = some t → ¬ t.IsRefused)
    (hruns : (processAll (processAt bound) (s.relist l) commands).failure = none) :
    ∀ step ∈ flattened (flattenAt bound) s commands,
      (∃ command ∈ commands, step = .asked (.command command.2 (some command.1))) ∨
        step.isLogged ∨
        step.IsFrom (followed (processAt bound) (callsAt bound) (s.relist l) commands) := by
  induction commands generalizing s with
  | nil => simp [flattened]
  | cons command rest ihrest =>
    obtain ⟨number, text⟩ := command
    have hprocess := processAt_eq bound (s.relist l) text (some number)
    rw [processAll, Outcome.forEach, Outcome.andThen_failure_eq_none, hprocess] at hruns
    obtain ⟨hfirst, hrest⟩ := hruns
    rw [followed, hprocess, List.forall_mem_append, hfirst] at hrefused
    rw [followed, hprocess, hfirst]
    have hsame := answerAt_eq_runFlat bound hs hrefused.1 (by simp [hfirst])
    rw [flattened, List.forall_mem_append]
    refine ⟨fun step hstep => ?_, fun step hstep => ?_⟩
    · rcases ih hs hrefused.1 hfirst step hstep with ⟨-, rfl⟩ | hlogged | hfrom
      · exact Or.inl ⟨_, List.mem_cons_self, rfl⟩
      · exact Or.inr (Or.inl hlogged)
      · exact Or.inr (Or.inr (hfrom.mono (List.subset_append_left _ _)))
    · rw [hsame] at hrest hrefused
      have hloading : (runFlat s (flattenAt bound ⟨s, .command text (some number)⟩)).state.loading
          ⊆ l := by rwa [loading_runFlat]
      rcases ihrest hloading hrefused.2 hrest step hstep with ⟨command, hcommand, rfl⟩ |
        hlogged | hfrom
      · exact Or.inl ⟨command, List.mem_cons_of_mem _ hcommand, rfl⟩
      · exact Or.inr (Or.inl hlogged)
      · rw [hsame]
        exact Or.inr (Or.inr (hfrom.mono (List.subset_append_right _ _)))

/-- **The steps of a call laid out flat** stand in the scripts that the run replays, by induction on
the bound on nesting.  A call that replays no script is its own only step. -/
theorem isFrom_flattenAt (bound : Nat) {request : Request} (hs : s.loading ⊆ l)
    (hrefused : ∀ d ∈ callsAt bound ⟨s.relist l, request⟩, ∀ t, d.task? = some t →
      ¬ t.IsRefused)
    (hruns : (answerAt bound ⟨s.relist l, request⟩).failure = none) :
    ∀ step ∈ flattenAt bound ⟨s, request⟩,
      (Call.opened? ⟨s, request⟩ = none ∧ step = .asked request) ∨ step.isLogged ∨
        step.IsFrom (callsAt bound ⟨s.relist l, request⟩) := by
  induction bound generalizing s l request with
  | zero => simp [flattenAt]
  | succ bound ih =>
    cases hopened : Call.opened? ⟨s, request⟩ with
    | none =>
      rw [flattenAt_of_opened?_eq_none hopened]
      exact fun step hstep => Or.inl ⟨rfl, List.mem_singleton.1 hstep⟩
    | some opened =>
      obtain ⟨t, script⟩ := opened
      have hframe := Call.frame_of_task? (Call.opened?_eq_some.1 hopened).1
      have hopened' := Call.opened?_relist hs (hrefused _ (mem_callsAt_self _ _)) hopened
      have henter : (t.relist l).enter script = t.session.relist (l ++ [script.place]) := rfl
      have hself : ∀ step ∈ script.steps, step.IsFrom (callsAt (bound + 1) ⟨s.relist l, request⟩) :=
        fun step hstep => ⟨_, mem_callsAt_self _ _, _, _, hopened', hstep⟩
      rw [callsAt_of_opened? hopened', List.forall_mem_cons, henter] at hrefused
      rw [answerAt_of_opened? hopened', Task.leave_failure, henter] at hruns
      rw [flattenAt_of_opened? hopened, List.forall_mem_append, List.forall_mem_append]
      refine ⟨⟨fun step hstep => ?_, fun step hstep => ?_⟩, fun step hstep => ?_⟩
      · obtain ⟨line, -, rfl⟩ := Option.map_eq_some_iff.1 (Option.mem_toList.1 hstep)
        exact Or.inr (Or.inl rfl)
      · have hsub : t.session.loading ⊆ l ++ [script.place] := by
          rw [hframe.loading]
          exact fun place hplace => List.mem_append_left _ (hs hplace)
        rcases isFrom_flattened ih hsub hrefused.2 hruns step hstep with ⟨command, hcommand, rfl⟩ |
          hlogged | hfrom
        · exact Or.inr (Or.inr (hself _ (List.mem_append_left _ (List.mem_map_of_mem hcommand))))
        · exact Or.inr (Or.inl hlogged)
        · refine Or.inr (Or.inr (hfrom.mono ?_))
          rw [callsAt_of_opened? hopened', henter]
          exact List.subset_cons_self _ _
      · exact Or.inr (Or.inr (hself step (List.mem_append_right _ hstep)))

end

/-! ## Where the steps stand -/

/-- The lines of the script that a task asks to LOAD. -/
def Task.lines? (t : Task) : Option (List String) :=
  t.file?.bind fun file =>
    match t.session.scriptAt file with
    | .error _ => none
    | .ok text => some ((Text.lines (Text.unifyNewlines text)).map String.ofList)

/-- **Where a step stands** in the lines of a script.  A request is a command that a semicolon ends,
and bears the number of the semicolon's line.  The text behind the last such semicolon is no
request; there is only something to say about it, on the last line. -/
inductive FlatStep.StandsIn (a : Assembler) (file : String) (lines : List String) : FlatStep → Prop
  | command {command : NumberedCommand} (h : a.EndsAt 1 lines command) :
    StandsIn a file lines (.asked (.command command.2 (some command.1)))
  | unfinished {commands : List NumberedCommand} {rest : Assembler}
    (hfeed : a.feedAll 1 lines = .ok (commands, rest)) (hrest : rest.pieces ≠ []) :
    StandsIn a file lines (.unfinished file rest.pending lines.length)

/-- A script is read from the lines of its file. -/
lemma Task.feedAll_of_script? {t : Task} {script : Script} (h : t.script? = some script) :
    ∃ lines, t.lines? = some lines ∧ script.length = lines.length ∧
      ({ commentPrefix := t.session.config.commentPrefix } : Assembler).feedAll 1 lines
        = .ok (script.commands, script.rest) := by
  simp only [script?, Option.bind_eq_some_iff] at h
  obtain ⟨file, hfile, place, -, h⟩ := h
  split_ifs at h
  split at h
  · cases h
  · next text htext =>
    split at h
    · cases h
    · next commands rest hfeed =>
      obtain rfl := Option.some.inj h
      exact ⟨_, by rw [lines?, hfile, Option.bind_some, htext], rfl, hfeed⟩

lemma standsIn_of_mem_steps {t : Task} {script : Script} (h : t.script? = some script) :
    ∃ lines, t.lines? = some lines ∧ ∀ step ∈ script.steps,
      step.StandsIn { commentPrefix := t.session.config.commentPrefix } script.file lines := by
  obtain ⟨lines, hlines, hlength, hfeed⟩ := Task.feedAll_of_script? h
  refine ⟨lines, hlines, List.forall_mem_append.2 ⟨fun step hstep => ?_, fun step hstep => ?_⟩⟩
  · obtain ⟨command, hcommand, rfl⟩ := List.mem_map.1 hstep
    exact .command (Assembler.endsAt_of_mem_feedAll hfeed command hcommand)
  · rw [Script.ending] at hstep
    split_ifs at hstep with hempty
    · simp at hstep
    · obtain rfl := List.mem_singleton.1 hstep
      rw [hlength]
      exact .unfinished hfeed fun hnil => hempty (by rw [hnil]; rfl)

/-- A session in which the scripts are listed that it lists. -/
lemma mapState_relist_of_loading {r : Reply} {l : List Location} (h : r.state.loading = l) :
    r.mapState (relist l) = r := by
  subst h
  rfl

/-- **LOAD of a script is inline expansion.**  If no script LOADs one that is being replayed and the
run does not break off, it comes to the same as the call laid out flat: the commands of the scripts,
each LOAD of a script replaced by the line that it writes to the log, the script's own commands, and
what there is to say about its unfinished text.  Without these lines in the log the automaton and
the messages are the same, unless something is LOADed that a line changes.  Every warning and every
error of a step names the line of the semicolon that ends it in the script that holds it. -/
theorem load_inlined {s : Session} {request : Request} {root : Task × Script}
    (hopened : Call.opened? ⟨s, request⟩ = some root) (bound : Nat)
    (hrefused : ∀ c ∈ callsAt (bound + 1) ⟨s, request⟩, ∀ t, c.task? = some t → ¬ t.IsRefused)
    (hruns : (answerAt (bound + 1) ⟨s, request⟩).failure = none) :
    let reply := answerAt (bound + 1) ⟨s, request⟩
    let steps := flattenAt (bound + 1) ⟨s, request⟩
    let bare := runFlat s (steps.filter (!·.isLogged))
    (bound = maxNesting → reply = s.answer request) ∧
    reply = runFlat s steps ∧
    ((∀ turn ∈ turns s steps, turn.Avoids (echoedIn (turns s steps))) →
      bare.failure = none ∧ bare.state.automaton = reply.state.automaton ∧
        bare.output = reply.output) ∧
    (turns s steps).map (·.step) = steps ∧
    reply.output = (turns s steps).flatMap (·.reply.output) ∧
    ∀ turn ∈ turns s steps, turn.step.isLogged ∨
      (IsAbout turn.step.line? turn.reply ∧
        ∃ c ∈ callsAt (bound + 1) ⟨s, request⟩, ∃ t script lines,
          c.opened? = some (t, script) ∧ t.lines? = some lines ∧
            turn.step.StandsIn { commentPrefix := t.session.config.commentPrefix } script.file
              lines) := by
  intro reply steps bare
  have hsub : s.loading ⊆ s.loading := List.Subset.refl _
  have hreply : reply = runFlat s steps := by
    rw [← mapState_relist_of_loading (loading_runFlat s steps)]
    exact answerAt_eq_runFlat (bound + 1) hsub hrefused fun h => nomatch hruns.symm.trans h
  have hflat : (runFlat s steps).failure = none := hreply ▸ hruns
  have hplain := isPlain_flattenAt (bound + 1) ⟨s, request⟩
  refine ⟨?_, hreply, fun havoids => ?_, map_step_turns hflat, ?_, fun turn hturn => ?_⟩
  · rintro rfl
    exact answerAt_maxNesting s request
  · have hagree := runFlat_alike (Alike.refl _ s) hplain havoids subset_rfl hflat
    rw [hreply]
    exact ⟨hagree.completed', hagree.state.automaton, (List.forall₂_eq_eq_eq ▸ hagree.output).symm⟩
  · rw [hreply]
    exact output_runFlat s steps
  · rcases isFrom_flattenAt (bound + 1) hsub hrefused hruns turn.step (mem_of_mem_turns turn hturn)
      with ⟨hnone, -⟩ | hlogged | ⟨c, hc, t, script, hscript, hstep⟩
    · exact absurd (hnone.symm.trans hopened) (by simp)
    · exact Or.inl hlogged
    · obtain ⟨lines, hlines, hstands⟩ := standsIn_of_mem_steps (Call.opened?_eq_some.1 hscript).2
      exact Or.inr ⟨(hplain turn hturn).isAbout, c, hc, t, script, lines, hscript, hlines,
        hstands _ hstep⟩

/-- A script that LOADs another one, both with unfinished text behind their commands, while a log is
open. -/
theorem load_inlined_of_nested :
    let bytes := fun text : String => text.toList.map fun c => UInt8.ofNat c.toNat
    let a := bytes "SYMBOLS 0; LOAD b;\nINITIAL-STATE r;\nSTATES q"
    let b := bytes "# finals\n\nFINAL-STATES\n q; CLEAR"
    let s := ((Session.start Config.standard
      { home := ["w"], files := [(["w", "a"], a), (["w", "b"], b)] }).process "LOG l" none).state
    let steps := flattenAt (maxNesting + 1) ⟨s, .command "LOAD a" none⟩
    steps = [.logged "? LOAD a", .asked (.command "SYMBOLS 0" (some 1)), .logged "? LOAD b",
      .asked (.command "FINAL-STATES q" (some 4)), .unfinished "b" "CLEAR" 4,
      .asked (.command "INITIAL-STATE r" (some 2)), .unfinished "a" "STATES q" 3] ∧
    s.answer (.command "LOAD a" none) = runFlat s steps ∧
    (runFlat s (steps.filter (!·.isLogged))).output
      = [.warning "state Q was not previously declared" (some 4),
        .warning "unterminated command at end of b: \"CLEAR\"" (some 4),
        .warning "state R was not previously declared" (some 2),
        .warning "unterminated command at end of a: \"STATES q\"" (some 3)] ∧
    (s.answer (.command "LOAD a" none)).output
      = (runFlat s (steps.filter (!·.isLogged))).output := by
  intro bytes a b s steps
  have hopened : (Call.opened? ⟨s, .command "LOAD a" none⟩).isSome := by decide +kernel
  obtain ⟨root, hroot⟩ := Option.isSome_iff_exists.1 hopened
  have hlisted : ((callsAt (maxNesting + 1) ⟨s, .command "LOAD a" none⟩).all fun c =>
      c.task?.all fun t => t.place?.all fun place => place ∉ t.session.loading) = true := by
    decide +kernel
  have hruns : (answerAt (maxNesting + 1) ⟨s, .command "LOAD a" none⟩).failure = none := by
    decide +kernel
  have hfiles : ((turns s steps).all fun turn => match turn.step with
      | .asked request => (Call.task? ⟨turn.session, request⟩).all (·.file?.isNone)
      | _ => true) = true := by decide +kernel
  have hrefused : ∀ c ∈ callsAt (maxNesting + 1) ⟨s, .command "LOAD a" none⟩, ∀ t,
      c.task? = some t → ¬ t.IsRefused := by
    rintro c hc t ht ⟨place, hplace, ht'⟩
    have := List.all_eq_true.1 hlisted c hc
    simp [ht, ht', hplace] at this
  have havoids : ∀ turn ∈ turns s steps, turn.Avoids (echoedIn (turns s steps)) := by
    rintro turn hturn request t hrequest ht place - ⟨file, hfile, -⟩
    have := List.all_eq_true.1 hfiles turn hturn
    simp [hrequest, ht, hfile] at this
  obtain ⟨hreply, hflat, hbare, -⟩ := load_inlined hroot maxNesting hrefused hruns
  refine ⟨by decide +kernel, (hreply rfl).symm.trans hflat, by decide +kernel, ?_⟩
  rw [← hreply rfl]
  exact (hbare havoids).2.2.symm

lemma Reachable.answerAll {s : Session} (h : s.Reachable) (requests : List Request) :
    (Session.answerAll s requests).state.Reachable := by
  refine Outcome.forEach_keeps (fun t request _ ht => ?_) h
  cases request with
  | command text line => exact .process ht text line
  | file name => exact .runFile ht name

set_option maxRecDepth 20000 in
/-- **The line of a LOAD in the log can make a difference.**  Here the log is in the file to which a
script compiles, and the line moves what is logged behind it past the end of the snapshot. -/
theorem exists_load_not_inlined :
    let script := "COMPILE m.fsm;\nLOAD m.fsm;".toList.map fun c => UInt8.ofNat c.toNat
    let start := Session.start Config.standard { home := ["w"], files := [(["w", "r"], script)] }
    let s := (answerAll start (.command "LOG m.fsm" none
      :: List.replicate 35 (.command "CLEAR xx" none))).state
    let bare := (flattenAt (maxNesting + 1) ⟨s, .command "LOAD r" none⟩).filter (!·.isLogged)
    s.Reachable ∧ s.finished = false ∧
      bare = [.asked (.command "COMPILE m.fsm" (some 1)), .asked (.command "LOAD m.fsm" (some 2))] ∧
      ((s.answer (.command "LOAD r" none)).output
          = [.info "compiled to file m.fsm", .info "loaded m.fsm"] ∧
        (s.answer (.command "LOAD r" none)).failure = none) ∧
      (runFlat s bare).output
        = [.info "compiled to file m.fsm",
          .error "cannot load m.fsm: not a snapshot file: m.fsm" (some 2)] := by
  intro script start s bare
  have hbare : bare = [.asked (.command "COMPILE m.fsm" (some 1)),
      .asked (.command "LOAD m.fsm" (some 2))] := by decide +kernel
  have hreply : (s.answer (.command "LOAD r" none)).output
        = [.info "compiled to file m.fsm", .info "loaded m.fsm"] ∧
      (s.answer (.command "LOAD r" none)).failure = none := by decide +kernel
  have hflat : (runFlat s [.asked (.command "COMPILE m.fsm" (some 1)),
      .asked (.command "LOAD m.fsm" (some 2))]).output = [.info "compiled to file m.fsm",
        .error "cannot load m.fsm: not a snapshot file: m.fsm" (some 2)] := by decide +kernel
  exact ⟨(Reachable.start validate_standard _).answerAll _, by decide +kernel, hbare, hreply,
    hbare ▸ hflat⟩

end AutomatonShell.Session
