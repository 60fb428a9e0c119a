import AutomatonShell.Proofs.Handlers
import AutomatonShell.Proofs.Restoring

/-!
# What processing a command keeps

Processing goes round in a circle: a command may be a LOAD, a LOAD may replay a script, and a
script is more commands.  The circle is cut once, here, by induction on the bound on nesting:
whatever recording a line, listing a script, restoring a snapshot and carrying out a single command
keep, processing keeps (`processAt_keeps`).

* `Action.Keeps` — an action keeps a property of sessions, however it ends.
* `automaton_say` and its siblings — what speaks or writes files leaves the automaton alone.
* **`processAt_keeps`** — the induction.
* **`process_wellFormed`**, **`runFile_wellFormed`** — a well-formed automaton stays well formed.
-/

namespace AutomatonShell.Session

variable {I : Session → Prop} {s : Session}

/-- An action leaves a property of sessions true, whether it runs to its end or stops early. -/
def Action.Keeps (I : Session → Prop) (act : Action) : Prop :=
  ∀ s text line, I s → I (act s text line).state

/-! ## What leaves the automaton alone -/

lemma automaton_done (s : Session) : (Outcome.done s : Reply).state.automaton = s.automaton := rfl

lemma automaton_stop (s : Session) (fault : Fault) :
    (Outcome.stop s fault : Reply).state.automaton = s.automaton := rfl

lemma automaton_say (s : Session) (line : Option Int) (d : Diagnostic) :
    (s.say line d).state.automaton = s.automaton := rfl

lemma automaton_sayAll (s : Session) (line : Option Int) (ds : List Diagnostic) :
    (s.sayAll line ds).state.automaton = s.automaton :=
  Outcome.forEach_keeps (I := fun t : Session => t.automaton = s.automaton)
    (fun t d _ ht => by rw [automaton_say, ht]) rfl

/-- The automaton that a declaration leaves is the one that the session gets. -/
lemma automaton_declare (s : Session) (line : Option Int) (d : Declaration) :
    (s.declare line d).state.automaton = d.state := by
  refine Outcome.andThen_keeps (I := fun t : Session => t.automaton = d.state) ?_ fun t ht => ?_
  · rw [automaton_sayAll]
  · split
    · exact ht
    · exact ht

lemma automaton_listAll (s : Session) (line : Option Int) :
    (s.listAll line).state.automaton = s.automaton := by
  rw [listAll]
  split
  · exact automaton_say s line _
  · exact automaton_sayAll s line _

lemma automaton_exit (s : Session) (line : Option Int) :
    (s.exit line).state.automaton = s.automaton := by
  rw [exit, Outcome.andThen_of_failure_eq_none rfl]
  exact automaton_say s line .terminated

/-- A brief answer leaves the automaton that the session has by then. -/
lemma Brief.automaton_eq {answers : Diagnostic → Prop} {line : Option Int} {r : Reply}
    (h : Brief s line answers r) : r.state.automaton = s.automaton := by
  cases h <;> rfl

/-- Restoring leaves the automaton alone or puts the one from the file in its place. -/
lemma automaton_restore (s : Session) (file : String) (line : Option Int) :
    (s.restore file line).state.automaton = s.automaton ∨
      s.snapshotAt file = .ok (s.restore file line).state.automaton := by
  rw [(brief_restore s file line).automaton_eq]
  cases s.snapshotAt file with
  | ok a => exact Or.inr rfl
  | error e => exact Or.inl rfl

/-! ## The induction -/

lemma processWith_keeps {load : Action} (hrecord : ∀ s line, I s → I (s.record line))
    (hperform : ∀ s keyword words body line, I s →
      I (s.perform load keyword words body line).state) :
    Action.Keeps I (processWith load) := by
  intro s text line h
  simp only [processWith]
  split_ifs
  · exact h
  · split
    · exact h
    · next command _ =>
      have h' := hrecord s (s.config.prompt ++ String.ofList (trimCommand text.toList)) h
      split
      · exact hrecord _ _ h'
      · exact hperform _ _ _ _ _ h'

lemma processAll_keeps {process : Action} (hprocess : Action.Keeps I process)
    (commands : List NumberedCommand) (h : I s) : I (processAll process s commands).state :=
  Outcome.forEach_keeps (fun t command _ ht => hprocess t command.2 (some command.1) ht) h

lemma replay_keeps {process : Action} (hrecord : ∀ s line, I s → I (s.record line))
    (hloading : ∀ s loading, I s → I { s with loading })
    (hprocess : Action.Keeps I process) : Action.Keeps I (replay process) := by
  intro s file line h
  simp only [replay]
  split_ifs
  · exact h
  · exact hrecord _ _ h
  · split
    · rw [replayLines]
      split
      · exact h
      · next commands rest _ =>
        refine Outcome.andThen_keeps (hloading _ _ ?_) fun t ht => ?_
        · exact processAll_keeps hprocess commands (hloading _ _ h)
        · split_ifs
          · exact ht
          · exact hrecord _ _ ht
    · exact h
    · exact h
    · exact hrecord _ _ h

/-- **What processing keeps**, by induction on the bound on nesting.  The four conditions are those
of one step: a line recorded, the list of scripts changed, a snapshot restored, and a command
carried out whose LOAD keeps the property. -/
theorem processAt_keeps (hrecord : ∀ s line, I s → I (s.record line))
    (hloading : ∀ s loading, I s → I { s with loading })
    (hrestore : Action.Keeps I restore)
    (hperform : ∀ load, Action.Keeps I load → ∀ s keyword words body line, I s →
      I (s.perform load keyword words body line).state) (bound : Nat) :
    Action.Keeps I (processAt bound) ∧ Action.Keeps I (load (processAt bound)) := by
  have hload : ∀ process, Action.Keeps I process → Action.Keeps I (load process) := by
    intro process hprocess s file line h
    rw [load]
    split_ifs
    · exact hrestore s file line h
    · exact replay_keeps hrecord hloading hprocess s file line h
  have hall : Action.Keeps I (processAt bound) := by
    induction bound with
    | zero => exact fun s text line h => h
    | succ bound ih => exact processWith_keeps hrecord (hperform _ (hload _ ih))
  exact ⟨hall, hload _ hall⟩

/-! ## Well-formed automata -/

/-- A definition command keeps an automaton well formed. -/
lemma define_wellFormed {a : Automaton} (h : a.WellFormed) (keyword : Keyword)
    (words : List String) (body : List Char) : (a.define keyword words body).state.WellFormed := by
  unfold Automaton.define
  split
  · exact h
  · exact h.declareSymbols words
  · exact h
  · exact h.declareStates words
  · exact h
  · exact h.declareInitial _
  · exact h
  · exact h
  · exact h.declareFinals words
  · exact h.declareTransitions body
  · exact Automaton.wellFormed_empty
  · exact h
  · exact h

lemma perform_wellFormed {load : Action}
    (hload : Action.Keeps (fun s => s.automaton.WellFormed) load) (s : Session)
    (keyword : Keyword) (words : List String) (body : List Char) (line : Option Int)
    (h : s.automaton.WellFormed) :
    (s.perform load keyword words body line).state.automaton.WellFormed := by
  have hbrief : ∀ {t answers r}, Brief t line answers r → t.automaton.WellFormed →
      r.state.automaton.WellFormed := by
    intro t answers r hr ht
    rwa [hr.automaton_eq]
  obtain ⟨handler, hhandles, hperform⟩ := exists_handles keyword words body
  rw [hperform]
  cases hhandles with
  | define =>
    rw [automaton_declare]
    exact define_wellFormed h keyword words body
  | arity => exact h
  | listAll => rwa [automaton_listAll]
  | print file => exact hbrief (brief_print s file line) h
  | execute text => exact hbrief (brief_execute s text line) h
  | compile file => exact hbrief (brief_compile s file line) h
  | load file => exact hload s file line h
  | stopLog =>
    refine hbrief (brief_stopLog s line) ?_
    split_ifs <;> exact h
  | openLog file =>
    obtain ⟨opened, -, hopened⟩ := brief_openLog s file line
    exact hbrief hopened h
  | exit => rwa [automaton_exit]

lemma restore_wellFormed : Action.Keeps (fun s => s.automaton.WellFormed) restore := by
  intro s file line h
  rcases automaton_restore s file line with hsame | hloaded
  · show (s.restore file line).state.automaton.WellFormed
    rwa [hsame]
  · exact Workspace.loadSnapshot_wellFormed hloaded

lemma processAt_wellFormed (bound : Nat) :
    Action.Keeps (fun s => s.automaton.WellFormed) (processAt bound) ∧
      Action.Keeps (fun s => s.automaton.WellFormed) (load (processAt bound)) :=
  processAt_keeps (fun _ _ h => h) (fun _ _ h => h) restore_wellFormed
    (fun _ hload => perform_wellFormed hload) bound

/-- **Processing a command keeps the automaton well formed**, whatever its text and the files. -/
theorem process_wellFormed (h : s.automaton.WellFormed) (text : String) (line : Option Int) :
    (s.process text line).state.automaton.WellFormed := by
  rw [process_eq]
  exact (processAt_wellFormed (maxNesting + 1)).1 s text line h

/-- **Loading a file keeps the automaton well formed**, whatever the file holds. -/
theorem runFile_wellFormed (h : s.automaton.WellFormed) (file : String) :
    (s.runFile file).state.automaton.WellFormed := by
  rw [runFile_eq]
  split_ifs
  · exact h
  · exact (processAt_wellFormed maxNesting).2 s file none h

end AutomatonShell.Session
