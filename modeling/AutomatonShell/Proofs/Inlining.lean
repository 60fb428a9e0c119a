import AutomatonShell.Proofs.Ending
import AutomatonShell.Proofs.Events
import AutomatonShell.Proofs.Nesting
import AutomatonShell.Proofs.SideBySide

/-!
# LOAD of a script, laid out flat

A script may LOAD scripts that LOAD further scripts.  Each level reads its own lines, keeps its own
unfinished command, and lists its script as being replayed, while the automaton, the files and the
log belong to all of them.  Laid out flat there are no levels: what is left is one sequence of
steps, and each is carried out in the session that the steps before it leave.

The two runs pass through the same sessions but for the list of scripts.  So the argument widens the
flat session by a list (`relist`).  No command looks at the list but a LOAD, and a LOAD sees it only
if it is refused (`answerAt_relist`); a run without refused LOADs is therefore the widened flat run,
at every depth (`answerAt_eq_runFlat`).

* `relist`, **`answerAt_relist`** — a session with other scripts listed.
* `FlatStep`, `runFlat` — runs without nesting.
* `flattenAt` — a call laid out flat.
* **`answerAt_eq_runFlat`** — the call and its flat run.
-/

namespace AutomatonShell.Session

open Outcome

/-! ## Other scripts listed -/

/-- A session with other scripts listed as being replayed. -/
def relist (loading : List Location) (s : Session) : Session := { s with loading }

/-- A task in a session with other scripts listed. -/
def Task.relist (loading : List Location) (t : Task) : Task :=
  { t with session := t.session.relist loading }

section

variable {s : Session} {l : List Location} {line : Option Int}

lemma say_relist (d : Diagnostic) :
    (s.relist l).say line d = (s.say line d).mapState (relist l) := rfl

lemma sayAll_relist (ds : List Diagnostic) :
    (s.relist l).sayAll line ds = (s.sayAll line ds).mapState (relist l) :=
  forEach_mapState (fun _ _ => rfl) s ds

lemma declare_relist (d : Declaration) :
    (s.relist l).declare line d = (s.declare line d).mapState (relist l) := by
  have hsaid : (relist l { s with automaton := d.state }).sayAll line d.output
      = (sayAll { s with automaton := d.state } line d.output).mapState (relist l) :=
    sayAll_relist d.output
  rw [declare, declare]
  refine (congrArg (fun r : Reply => r.andThen _) hsaid).trans (andThen_mapState _ fun _ => ?_)
  cases d.failure <;> rfl

lemma listAll_relist : (s.relist l).listAll line = (s.listAll line).mapState (relist l) := by
  have hautomaton : (s.relist l).automaton = s.automaton := rfl
  rw [listAll, listAll, hautomaton]
  split
  · rfl
  · exact sayAll_relist _

lemma execute_relist (text : String) :
    (s.relist l).execute text line = (s.execute text line).mapState (relist l) := by
  have hautomaton : (s.relist l).automaton = s.automaton := rfl
  rw [execute, execute, hautomaton]
  split
  · rfl
  · split <;> rfl

lemma print_relist (file : String) :
    (s.relist l).print file line = (s.print file line).mapState (relist l) := by
  have hwrite : (s.relist l).workspace.writeText (s.relist l).config.encoding
      ((s.relist l).target file) (s.relist l).automaton.listingText (s.relist l).config.codec?
    = s.workspace.writeText s.config.encoding (s.target file) s.automaton.listingText
        s.config.codec? := rfl
  simp only [print, hwrite]
  generalize s.workspace.writeText s.config.encoding (s.target file) s.automaton.listingText
    s.config.codec? = written
  split <;> rfl

lemma compile_relist (file : String) :
    (s.relist l).compile file line = (s.compile file line).mapState (relist l) := by
  have hsave : (s.relist l).workspace.saveSnapshot (s.relist l).automaton
      ((s.relist l).target file) s.config.library
    = s.workspace.saveSnapshot s.automaton (s.target file) s.config.library := rfl
  have hconfig : (s.relist l).config = s.config := rfl
  simp only [compile, hconfig, hsave]
  generalize s.workspace.saveSnapshot s.automaton (s.target file) s.config.library = saved
  split_ifs
  · rfl
  · split <;> rfl

lemma openLog_relist (file : String) :
    (s.relist l).openLog file line = (s.openLog file line).mapState (relist l) := by
  have hopen : (s.relist l).log.openAt (s.relist l).workspace ((s.relist l).target file)
    = s.log.openAt s.workspace (s.target file) := rfl
  simp only [openLog, hopen]
  generalize s.log.openAt s.workspace (s.target file) = opened
  split <;> rfl

lemma restore_relist (file : String) :
    (s.relist l).restore file line = (s.restore file line).mapState (relist l) := by
  have hload : (s.relist l).snapshotAt file = s.snapshotAt file := rfl
  unfold restore
  rw [hload]
  split <;> first | rfl | (split_ifs <;> rfl)

lemma stopLog_relist : (s.relist l).stopLog line = (s.stopLog line).mapState (relist l) := by
  have hlog : (s.relist l).log = s.log := rfl
  rw [stopLog, stopLog, hlog]
  split_ifs <;> rfl

/-- A command carried out does not look at the scripts that are listed, unless it is a LOAD. -/
lemma perform_relist {load load' : Action} {keyword : Keyword} {words : List String}
    {body : List Char}
    (h : ∀ file, keyword = .load → words = [file] →
      load' (s.relist l) file line = (load s file line).mapState (relist l)) :
    (s.relist l).perform load' keyword words body line
      = (s.perform load keyword words body line).mapState (relist l) := by
  obtain ⟨handler, hhandles, hperform⟩ := exists_handles keyword words body
  rw [hperform, hperform]
  cases hhandles with dsimp only
  | define => exact declare_relist _
  | arity => exact say_relist _
  | listAll => exact listAll_relist
  | print file => exact print_relist file
  | execute text => exact execute_relist text
  | compile file => exact compile_relist file
  | load file => exact h file rfl rfl
  | stopLog => exact stopLog_relist
  | openLog file => exact openLog_relist file
  | exit => rfl

end

section

variable {s : Session} {l : List Location} {t : Task}

/-- A task that is not refused finds the same script, whatever else is listed. -/
lemma Task.script?_relist (hsub : t.session.loading ⊆ l) (h : ¬ (t.relist l).IsRefused) :
    (t.relist l).script? = t.script? := by
  have hfile : (t.relist l).file? = t.file? := rfl
  have hplace : (t.relist l).place? = t.place? := rfl
  rw [script?, script?, hfile, hplace]
  refine Option.bind_congr fun file _ => Option.bind_congr fun place hp => ?_
  have hlisted : place ∉ l := fun hl => h ⟨place, hl, hp⟩
  have hnew : place ∉ t.session.loading := fun hl => hlisted (hsub hl)
  rw [show (t.relist l).session.loading = l from rfl, if_neg (by simpa using hlisted),
    if_neg (by simpa using hnew)]
  rfl

/-- A LOAD that replays no script and is not refused, whatever else is listed. -/
lemma load_relist {file : String} (hfile : t.file? = some file) (hscript : t.script? = none)
    (hsub : t.session.loading ⊆ l) (h : ¬ (t.relist l).IsRefused) (process process' : Action) :
    load process' (t.session.relist l) file t.line
      = (load process t.session file t.line).mapState (relist l) := by
  have hconfig : (t.session.relist l).config = t.session.config := rfl
  have htarget : (t.session.relist l).target file = t.session.target file := rfl
  have hworkspace : (t.session.relist l).workspace = t.session.workspace := rfl
  have hread : (t.session.relist l).scriptAt file = t.session.scriptAt file := rfl
  have hplace (hbinary : ¬ t.session.config.isBinary file = true)
      (hnul : ¬ (t.session.target file).toList.contains (Char.ofNat 0) = true) :
      t.place? = some (Location.ofText t.session.workspace.home (t.session.target file)) := by
    rw [Task.place?, hfile, Option.bind_some, if_neg hbinary, if_neg hnul]
  simp only [load, replay, hconfig, htarget, hworkspace, hread]
  split_ifs with hbinary hnul hlisted hlisted' hlisted'
  · exact restore_relist file
  · rfl
  · rfl
  · exact absurd (hplace hbinary hnul) fun hp => h ⟨_, List.contains_iff_mem.1 hlisted, hp⟩
  · exact absurd (hplace hbinary hnul) fun hp =>
      h ⟨_, hsub (List.contains_iff_mem.1 hlisted'), hp⟩
  · cases hscriptAt : t.session.scriptAt file with
    | error e =>
      cases e with
      | file | unknownEncoding | unencodable => rfl
      | @undecodable failure => cases failure <;> rfl
    | ok text =>
      simp only [Task.script?, hfile, hplace hbinary hnul, Option.bind_some, if_neg hlisted',
        hscriptAt]
        at hscript
      simp only [replayLines, hconfig]
      generalize Assembler.feedAll _ _ _ = fed at hscript ⊢
      cases fed with
      | error e => rfl
      | ok fed => cases hscript

lemma Call.task?_relist (request : Request) :
    Call.task? ⟨s.relist l, request⟩ = (Call.task? ⟨s, request⟩).map (Task.relist l) := by
  have hfinished : (s.relist l).finished = s.finished := rfl
  rw [task?, task?, hfinished]
  split_ifs
  · rfl
  · cases request with
    | file name => rfl
    | command text line =>
      dsimp only
      cases Command.ofText? (trimCommand text.toList) with
      | none => rfl
      | some command =>
        rw [Option.bind_some, Option.bind_some]
        cases Keyword.ofName? command.first <;> rfl

/-- A call that is not refused replays the same script, whatever else is listed. -/
lemma Call.opened?_relist {request : Request} {script : Script} (hsub : s.loading ⊆ l)
    (h : ∀ t, Call.task? ⟨s.relist l, request⟩ = some t → ¬ t.IsRefused)
    (hopened : Call.opened? ⟨s, request⟩ = some (t, script)) :
    Call.opened? ⟨s.relist l, request⟩ = some (t.relist l, script) := by
  obtain ⟨ht, hscript⟩ := Call.opened?_eq_some.1 hopened
  have ht' : Call.task? ⟨s.relist l, request⟩ = some (t.relist l) := by
    rw [Call.task?_relist, ht, Option.map_some]
  refine Call.opened?_eq_some.2 ⟨ht', ?_⟩
  rw [Task.script?_relist _ (h _ ht'), hscript]
  rwa [(Call.frame_of_task? ht).loading]

/-- A call that replays no script and is not refused, whatever else is listed. -/
lemma answerAt_relist {request : Request} (hopened : Call.opened? ⟨s, request⟩ = none)
    (hsub : s.loading ⊆ l)
    (h : ∀ t, Call.task? ⟨s.relist l, request⟩ = some t → ¬ t.IsRefused) (bound more : Nat) :
    answerAt (bound + 1) ⟨s.relist l, request⟩
      = (answerAt (more + 1) ⟨s, request⟩).mapState (relist l) := by
  cases ht : Call.task? ⟨s, request⟩ with
  | none =>
    have hfinished : (s.relist l).finished = s.finished := rfl
    cases Call.idle_of_task?_eq_none ht with
    | finished finished =>
      rw [answerAt_of_finished finished, answerAt_of_finished (hfinished.trans finished)]
      rfl
    | blank running blank =>
      rw [answerAt_of_blank blank, answerAt_of_blank blank]
      rfl
    | unknown running parsed unknown =>
      rw [answerAt_of_unknown running parsed unknown,
        answerAt_of_unknown (hfinished.trans running) parsed unknown]
      rfl
  | some t =>
    have ht' : Call.task? ⟨s.relist l, request⟩ = some (t.relist l) := by
      rw [Call.task?_relist, ht, Option.map_some]
    have hscript : t.script? = none := by simpa [Call.opened?, ht] using hopened
    rw [answerAt_of_task? ht, answerAt_of_task? ht']
    refine perform_relist fun file (hkeyword : t.keyword = .load) (hwords : t.words = [file]) => ?_
    have hfile : t.file? = some file := by rw [Task.file?, hkeyword, hwords]
    refine load_relist hfile hscript ?_ (h _ ht') _ _
    rwa [(Call.frame_of_task? ht).loading]

end

/-! ## Scripts laid out flat -/

/-- A step of a run without nesting. -/
inductive FlatStep where
  /-- A line written to the log, of the LOAD of a script. -/
  | logged (line : String)
  /-- A request that replays no script. -/
  | asked (request : Request)
  /-- The end of a script that stops in the middle of a command. -/
  | unfinished (file pending : String) (length : Nat)
  deriving Repr, DecidableEq

/-- What a step does. -/
def FlatStep.run (s : Session) : FlatStep → Reply
  | logged line => .done (s.record line)
  | asked request => s.answer request
  | unfinished file pending length =>
    if s.finished then .done s else s.say (some length) (.unterminated file pending)

/-- Steps one after the other. -/
def runFlat (s : Session) (steps : List FlatStep) : Reply := Outcome.forEach FlatStep.run s steps

/-- What is left to do at the end of a script. -/
def Script.ending (script : Script) : List FlatStep :=
  if script.rest.pieces.isEmpty then []
  else [.unfinished script.file script.rest.pending script.length]

/-- The commands of a script laid out, each in the session that the steps before it leave. -/
def flattened (flatten : Call → List FlatStep) : Session → List NumberedCommand → List FlatStep
  | _, [] => []
  | s, command :: rest =>
    let steps := flatten ⟨s, .command command.2 (some command.1)⟩
    steps ++ flattened flatten (runFlat s steps).state rest

/-- **A call laid out flat.**  The LOAD of a script is replaced by the script's own commands and, if
the script stops in the middle of a command, by what there is to say about that.  The line that it
writes to the log stays.  What is nested too deeply is left out. -/
def flattenAt : (bound : Nat) → Call → List FlatStep
  | 0, _ => []
  | bound + 1, c =>
    match c.opened? with
    | none => [.asked c.request]
    | some (t, script) =>
      (c.echo?.map .logged).toList ++ flattened (flattenAt bound) t.session script.commands
        ++ script.ending

/-! ## The flat run -/

section

variable {s : Session} {l : List Location} {c : Call} {t : Task} {script : Script} {bound : Nat}

lemma runFlat_append (s : Session) (steps more : List FlatStep) :
    runFlat s (steps ++ more) = (runFlat s steps).andThen fun s => runFlat s more :=
  Outcome.forEach_append _ _ _ _

lemma runFlat_singleton (s : Session) (step : FlatStep) : runFlat s [step] = step.run s :=
  Outcome.andThen_done _

lemma flattenAt_of_opened? (h : c.opened? = some (t, script)) (bound : Nat) :
    flattenAt (bound + 1) c
      = (c.echo?.map .logged).toList ++ flattened (flattenAt bound) t.session script.commands
        ++ script.ending := by
  rw [flattenAt, h]

lemma flattenAt_of_opened?_eq_none (h : c.opened? = none) (bound : Nat) :
    flattenAt (bound + 1) c = [.asked c.request] := by
  rw [flattenAt, h]

/-- Before a task is carried out, its line is in the log, and no more has happened. -/
lemma runFlat_logged (h : c.task? = some t) :
    runFlat c.session (c.echo?.map .logged).toList = .done t.session := by
  cases Call.makes_of_task? h with
  | file => rfl
  | command running parsed =>
    rw [Call.echo?_eq running, parsed]
    exact runFlat_singleton _ _

lemma loading_runFlat (s : Session) (steps : List FlatStep) :
    (runFlat s steps).state.loading = s.loading := by
  refine Outcome.forEach_keeps (I := fun t : Session => t.loading = s.loading)
    (fun t step _ ht => ?_) rfl
  cases step with
  | logged line => exact ht
  | asked request =>
    rw [FlatStep.run, ← answerAt_maxNesting]
    exact (frame_answerAt _ _).loading.trans ht
  | unfinished file pending length =>
    rw [FlatStep.run]
    split_ifs <;> exact ht

/-- What is left to do at the end of a script, whatever else is listed. -/
lemma leave_eq_runFlat (t : Task) (script : Script) (steps : List FlatStep)
    (places : List Location) :
    (t.relist l).leave script ((runFlat s steps).mapState (relist places))
      = (runFlat s (steps ++ script.ending)).mapState (relist l) := by
  have hending : ∀ s : Session,
      (if (s.relist l).finished || script.rest.pieces.isEmpty then .done (s.relist l)
        else (s.relist l).say (some script.length) (.unterminated script.file script.rest.pending))
      = (runFlat s script.ending).mapState (relist l) := by
    intro s
    have hfinished : (s.relist l).finished = s.finished := rfl
    rw [Script.ending, hfinished]
    cases script.rest.pieces.isEmpty
    · simp only [Bool.or_false, Bool.false_eq_true, if_false, runFlat_singleton, FlatStep.run]
      split_ifs <;> rfl
    · rw [Bool.or_true, if_pos rfl, if_pos rfl]
      rfl
  have hleave : ((runFlat s steps).mapState (relist l)).andThen (fun s : Session =>
        if s.finished || script.rest.pieces.isEmpty then .done s
        else s.say (some script.length) (.unterminated script.file script.rest.pending))
      = ((runFlat s steps).andThen fun s => runFlat s script.ending).mapState (relist l) :=
    andThen_mapState _ fun _ => hending _
  rw [runFlat_append, ← hleave]
  rfl

/-- **The commands of a script**, replayed and laid out flat. -/
lemma processAll_eq_runFlat
    (ih : ∀ {s : Session} {request : Request}, s.loading ⊆ l →
      (∀ d ∈ callsAt bound ⟨s.relist l, request⟩, ∀ t, d.task? = some t → ¬ t.IsRefused) →
      (answerAt bound ⟨s.relist l, request⟩).failure ≠ some .nesting →
      answerAt bound ⟨s.relist l, request⟩
        = (runFlat s (flattenAt bound ⟨s, request⟩)).mapState (relist l))
    (hs : s.loading ⊆ l) {commands : List NumberedCommand}
    (hrefused : ∀ d ∈ followed (processAt bound) (callsAt bound) (s.relist l) commands,
      ∀ t, d.task? = some t → ¬ t.IsRefused)
    (hfailure : (processAll (processAt bound) (s.relist l) commands).failure ≠ some .nesting) :
    processAll (processAt bound) (s.relist l) commands
      = (runFlat s (flattened (flattenAt bound) s commands)).mapState (relist l) := by
  induction commands generalizing s with
  | nil => rfl
  | cons command rest ihrest =>
    obtain ⟨number, text⟩ := command
    rw [followed, List.forall_mem_append] at hrefused
    have hprocess := processAt_eq bound (s.relist l) text (some number)
    rw [processAll, Outcome.forEach, hprocess] at hfailure ⊢
    rw [hprocess] at hrefused
    have hfirst := ih hs hrefused.1 fun hnesting =>
      hfailure (by rwa [Outcome.andThen_of_failure_eq_some hnesting])
    rw [hfirst] at hrefused hfailure ⊢
    rw [flattened, runFlat_append]
    refine andThen_mapState _ fun hruns => ihrest ?_ ?_ ?_
    · rwa [loading_runFlat]
    · simpa only [mapState, hruns, Option.isSome_none, Bool.false_eq_true, if_false]
        using hrefused.2
    · rwa [Outcome.andThen_of_failure_eq_none (by exact hruns)] at hfailure

/-- **A call and its flat run**, the one with more scripts listed than the other.  By induction on
the bound on nesting, and at every depth on the commands of the script. -/
theorem answerAt_eq_runFlat (bound : Nat) {request : Request} (hs : s.loading ⊆ l)
    (hrefused : ∀ d ∈ callsAt bound ⟨s.relist l, request⟩, ∀ t, d.task? = some t →
      ¬ t.IsRefused)
    (hfailure : (answerAt bound ⟨s.relist l, request⟩).failure ≠ some .nesting) :
    answerAt bound ⟨s.relist l, request⟩
      = (runFlat s (flattenAt bound ⟨s, request⟩)).mapState (relist l) := by
  induction bound generalizing s l request with
  | zero => exact absurd rfl hfailure
  | succ bound ih =>
    have hself := hrefused _ (mem_callsAt_self _ _)
    cases hopened : Call.opened? ⟨s, request⟩ with
    | none =>
      rw [flattenAt_of_opened?_eq_none hopened, runFlat_singleton, FlatStep.run,
        ← answerAt_maxNesting]
      exact answerAt_relist hopened hs hself bound maxNesting
    | some opened =>
      obtain ⟨t, script⟩ := opened
      have ht := (Call.opened?_eq_some.1 hopened).1
      have hopened' := Call.opened?_relist hs hself hopened
      have henter : (t.relist l).enter script = t.session.relist (l ++ [script.place]) := rfl
      have hlogged : runFlat s ((Call.echo? ⟨s, request⟩).map FlatStep.logged).toList
          = .done t.session := runFlat_logged ht
      rw [callsAt_of_opened? hopened', List.forall_mem_cons, henter] at hrefused
      rw [answerAt_of_opened? hopened', Task.leave_failure, henter] at hfailure
      rw [answerAt_of_opened? hopened', henter, processAll_eq_runFlat ih _ hrefused.2 hfailure,
        leave_eq_runFlat, flattenAt_of_opened? hopened, List.append_assoc, runFlat_append s,
        hlogged, Outcome.done_andThen]
      rw [(Call.frame_of_task? ht).loading]
      exact fun place hplace => List.mem_append_left _ (hs hplace)

end

end AutomatonShell.Session
