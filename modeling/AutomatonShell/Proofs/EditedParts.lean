import AutomatonShell.Proofs.Ending
import AutomatonShell.Proofs.Extensions
import AutomatonShell.Proofs.Nesting
import AutomatonShell.Proofs.Repetition

/-!
# Which parts of an automaton a command edits

A command edits only what its keyword is about, however it ends.  The commands that define an
automaton are functions of it, so this is a property of these functions (`keeps_define`); LOAD and
CLEAR may replace everything; and the other commands do not touch the automaton at all.

An editing command that is turned down before it comes to work leaves the automaton alone as well:
one with a wrong number of words has only said so (`exists_arity`), and a LOAD that does not come to
its file has changed nothing either (`automaton_run_of_cannotLoad`).

* `Keyword.editing`, `Keyword.Keeps` — the commands that edit, and what they keep.
* `Task.CannotLoad` — when a LOAD does not come to its file.
* **`automaton_answerAt`** — the commands that change nothing of the automaton.
* **`keeps_answerAt`** — what the others keep of it.
-/

namespace AutomatonShell

namespace Keyword

/-- The commands that may change the automaton. -/
def editing : List Keyword :=
  [.symbols, .states, .initialState, .finalStates, .transitions, .clear, .load]

/-- **What a command keeps of an automaton** `a` that it turns into `b`. -/
def Keeps (a b : Automaton) : Keyword → Prop
  | symbols => ∃ symbols, b = { a with symbols }
  | states | initialState => ∃ states initial, b = { a with states, initial }
  | finalStates => ∃ states initial finals, b = { a with states, initial, finals } ∧
      ∀ q, a.initial = some q → initial = some q
  | transitions => ∃ transitions, b = { a with transitions }
  | clear | load => True
  | print | execute | compile | log | exit => b = a

end Keyword

namespace Automaton

variable {a : Automaton}

/-! ## Definition commands -/

lemma exists_ensureState (a : Automaton) (q : String) :
    ∃ states initial, a.ensureState q = { a with states, initial } ∧
      ∀ p, a.initial = some p → initial = some p := by
  by_cases hold : q ∈ a.states
  · rw [ensureState_of_mem hold]
    exact ⟨a.states, a.initial, rfl, fun _ h => h⟩
  · rw [ensureState_of_not_mem hold]
    exact ⟨_, _, rfl, fun p hp => by rw [hp]; rfl⟩

lemma exists_ensureFinal (a : Automaton) (q : String) :
    ∃ states initial finals, a.ensureFinal q = { a with states, initial, finals } ∧
      ∀ p, a.initial = some p → initial = some p := by
  obtain ⟨states, initial, hstate, hinitial⟩ := a.exists_ensureState q
  rw [ensureFinal, hstate]
  dsimp only
  split_ifs
  · exact ⟨states, initial, a.finals, rfl, hinitial⟩
  · exact ⟨states, initial, _, rfl, hinitial⟩

lemma keeps_declareSymbols (a : Automaton) (words : List String) :
    Keyword.symbols.Keeps a (a.declareSymbols words).state := by
  rw [declareSymbols_eq_forEach]
  refine Outcome.forEach_keeps (I := fun b => Keyword.symbols.Keeps a b) (fun b word _ hb => ?_)
    ⟨a.symbols, rfl⟩
  rw [declareSymbol]
  split_ifs
  · exact hb
  · exact hb
  · obtain ⟨symbols, rfl⟩ := hb
    exact exists_addSymbols { a with symbols } _

/-- All the words of a command that declares states. -/
lemma keeps_declareStates (a : Automaton) (words : List String) :
    Keyword.states.Keeps a (a.declareStates words).state := by
  refine Outcome.forEach_keeps (I := fun b => Keyword.states.Keeps a b) (fun b word _ hb => ?_)
    ⟨a.states, a.initial, rfl⟩
  by_cases hname : isStateName (stripPunctuation word) = true
  · obtain ⟨states, initial, rfl⟩ := hb
    obtain ⟨states', initial', hstate, -⟩ :=
      exists_ensureState { a with states, initial } (Text.upper (stripPunctuation word))
    rw [state_declareState hname, hstate]
    exact ⟨states', initial', rfl⟩
  · rw [declareState, if_pos (by simpa using hname)]
    exact hb

lemma keeps_declareInitial (a : Automaton) (word : String) :
    Keyword.initialState.Keeps a (a.declareInitial word).state := by
  by_cases hname : isStateName (stripPunctuation word) = true
  · obtain ⟨states, initial, hstate, -⟩ :=
      a.exists_ensureState (Text.upper (stripPunctuation word))
    rw [state_declareInitial hname, hstate]
    exact ⟨states, _, rfl⟩
  · rw [declareInitial, if_pos (by simpa using hname)]
    exact ⟨a.states, a.initial, rfl⟩

lemma keeps_declareFinals (a : Automaton) (words : List String) :
    Keyword.finalStates.Keeps a (a.declareFinals words).state := by
  refine Outcome.forEach_keeps (I := fun b => Keyword.finalStates.Keeps a b) (fun b word _ hb => ?_)
    ⟨a.states, a.initial, a.finals, rfl, fun _ h => h⟩
  by_cases hname : isStateName (stripPunctuation word) = true
  · obtain ⟨states, initial, finals, rfl, hinitial⟩ := hb
    obtain ⟨states', initial', finals', hstate, hinitial'⟩ :=
      exists_ensureFinal { a with states, initial, finals } (Text.upper (stripPunctuation word))
    rw [state_declareFinal hname, hstate]
    exact ⟨states', initial', finals', rfl, fun q hq => hinitial' q (hinitial q hq)⟩
  · rw [declareFinal, if_pos (by simpa using hname)]
    exact hb

lemma keeps_declareTransitions (a : Automaton) (body : List Char) :
    Keyword.transitions.Keeps a (a.declareTransitions body).state := by
  obtain ⟨hstaged, hbatch⟩ := a.declareTransitions_eq_withBatch body
  rw [hbatch]
  exact ⟨_, withBatch_eq hstaged⟩

lemma keeps_self (a : Automaton) (keyword : Keyword) : keyword.Keeps a a := by
  cases keyword with
  | symbols => exact ⟨a.symbols, rfl⟩
  | states | initialState => exact ⟨a.states, a.initial, rfl⟩
  | finalStates => exact ⟨a.states, a.initial, a.finals, rfl, fun _ h => h⟩
  | transitions => exact ⟨a.transitions, rfl⟩
  | clear | load => trivial
  | print | execute | compile | log | exit => rfl

/-- **A definition command** edits only what its keyword is about. -/
lemma keeps_define (a : Automaton) (keyword : Keyword) (words : List String) (body : List Char) :
    keyword.Keeps a (a.define keyword words body).state := by
  cases keyword with
  | symbols =>
    cases words with
    | nil => exact a.keeps_self .symbols
    | cons word rest => exact a.keeps_declareSymbols _
  | states =>
    cases words with
    | nil => exact a.keeps_self .states
    | cons word rest => exact a.keeps_declareStates _
  | initialState =>
    rcases words with _ | ⟨word, _ | _⟩
    · exact a.keeps_self .initialState
    · exact a.keeps_declareInitial word
    · exact a.keeps_self .initialState
  | finalStates =>
    cases words with
    | nil => exact a.keeps_self .finalStates
    | cons word rest => exact a.keeps_declareFinals _
  | transitions => exact a.keeps_declareTransitions body
  | clear | load => trivial
  | print | execute | compile | log | exit => rfl

end Automaton

namespace Session

variable {t : Task} {c : Call}

/-! ## Tasks -/

/-- A command with a wrong number of words has only said so. -/
lemma exists_arity (h : t.keyword.allows t.words.length = false) (handler : Action) :
    ∃ rule, t.run handler = t.session.say t.line (.arity t.keyword rule) := by
  obtain ⟨s, keyword, words, body, line⟩ := t
  rw [Task.run, perform.eq_def]
  cases keyword with
  | symbols | states | transitions => cases h
  | finalStates | initialState | execute | compile | load | print | log | clear | exit =>
    rcases words with _ | ⟨_, _ | ⟨_, _⟩⟩ <;>
      first | simp [Keyword.allows] at h; done | exact ⟨_, rfl⟩

/-- **A task edits only what its keyword is about.** -/
lemma keeps_run (t : Task) (handler : Action) :
    t.keyword.Keeps t.session.automaton (t.run handler).state.automaton := by
  obtain ⟨s, keyword, words, body, line⟩ := t
  obtain ⟨handler, hhandles, hperform⟩ := exists_handles keyword words body
  rw [Task.run, hperform]
  cases hhandles with dsimp only
  | define =>
    rw [automaton_declare]
    exact s.automaton.keeps_define keyword words body
  | arity => exact s.automaton.keeps_self keyword
  | listAll => exact automaton_listAll s line
  | print file => exact (brief_print s file line).automaton_eq
  | execute text => exact (brief_execute s text line).automaton_eq
  | compile file => exact (brief_compile s file line).automaton_eq
  | load file => trivial
  | stopLog =>
    refine (brief_stopLog s line).automaton_eq.trans ?_
    split_ifs <;> rfl
  | openLog file =>
    obtain ⟨opened, -, hopened⟩ := brief_openLog s file line
    exact hopened.automaton_eq
  | exit => exact automaton_exit s line

/-- **A LOAD that does not come to its file**: the snapshot cannot be restored, or the script cannot
be opened or decoded, or it is being replayed already. -/
def Task.CannotLoad (t : Task) : Prop :=
  ∃ file, t.file? = some file ∧
    if t.session.config.isBinary file then
      ∃ e, t.session.snapshotAt file = .error e
    else
      Char.ofNat 0 ∈ (t.session.target file).toList ∨ t.IsRefused ∨
        ∃ e, t.session.scriptAt file
          = .error e

/-- A LOAD that does not come to its file changes nothing of the automaton. -/
lemma automaton_run_of_cannotLoad (h : t.CannotLoad) (process : Action) :
    (t.run (load process)).state.automaton = t.session.automaton := by
  obtain ⟨file, hfile, hfails⟩ := h
  rw [Task.run_of_file? hfile, load]
  split_ifs at hfails ⊢ with hbinary
  · obtain ⟨e, he⟩ := hfails
    refine (automaton_restore t.session file t.line).resolve_right fun h => ?_
    cases he.symm.trans h
  · simp only [replay]
    split_ifs with hnul hloading
    · exact automaton_stop _ _
    · exact automaton_say _ _ _
    · rcases hfails with hin | ⟨place, hlisted, hplace⟩ | ⟨e, he⟩
      · exact absurd (List.contains_iff_mem.2 hin) hnul
      · simp only [Task.place?, hfile, Option.bind_some, if_neg hbinary, if_neg hnul,
          Option.some.injEq] at hplace
        exact absurd (List.contains_iff_mem.2 (hplace ▸ hlisted)) hloading
      · rw [he]
        cases e with
        | unknownEncoding name => exact automaton_stop _ _
        | file e => exact automaton_say _ _ _
        | unencodable => exact automaton_say _ _ _
        | @undecodable failure =>
          cases failure with
          | refused => exact automaton_say _ _ _
          | broken => exact automaton_stop _ _

/-! ## Calls -/

/-- A call without a task has at most said that its first word is unknown. -/
lemma automaton_of_task?_eq_none (h : c.task? = none) (bound : Nat) :
    (answerAt (bound + 1) c).state.automaton = c.session.automaton := by
  cases Call.idle_of_task?_eq_none h with
  | finished finished =>
    rw [answerAt_of_finished finished]
    exact automaton_done _
  | blank running blank =>
    rw [answerAt_of_blank blank]
    exact automaton_done _
  | unknown running parsed unknown =>
    rw [answerAt_of_unknown running parsed unknown]
    exact automaton_say _ _ _

/-- **Commands that edit nothing**: those with an unknown keyword, with another keyword than those
that edit, or with a wrong number of words, and a LOAD that does not come to its file. -/
def Call.EditsNothing (c : Call) : Prop :=
  ∀ t, c.task? = some t →
    t.keyword ∉ Keyword.editing ∨ t.keyword.allows t.words.length = false ∨ t.CannotLoad

/-- **A call that edits nothing** leaves the automaton as it is. -/
theorem automaton_answerAt (h : c.EditsNothing) (bound : Nat) :
    (answerAt (bound + 1) c).state.automaton = c.session.automaton := by
  cases ht : c.task? with
  | none => exact automaton_of_task?_eq_none ht bound
  | some t =>
    rw [answerAt_of_task? ht, ← Call.automaton_of_task? ht]
    rcases h t ht with hkeyword | hwords | hload
    · have hkeeps := keeps_run t (load (processAt bound))
      cases hk : t.keyword with
      | symbols | states | initialState | finalStates | transitions | clear | load =>
        exact absurd (by simp [hk, Keyword.editing]) hkeyword
      | print | execute | compile | log | exit =>
        rw [hk] at hkeeps
        exact hkeeps
    · obtain ⟨rule, hrun⟩ := exists_arity hwords (load (processAt bound))
      rw [hrun]
      exact automaton_say _ _ _
    · exact automaton_run_of_cannotLoad hload (processAt bound)

/-- **A call edits only what its keyword is about**, however it ends. -/
theorem keeps_answerAt {t : Task} (ht : c.task? = some t) (bound : Nat) :
    t.keyword.Keeps c.session.automaton (answerAt (bound + 1) c).state.automaton := by
  rw [answerAt_of_task? ht, ← Call.automaton_of_task? ht]
  exact keeps_run t _

end Session

end AutomatonShell
