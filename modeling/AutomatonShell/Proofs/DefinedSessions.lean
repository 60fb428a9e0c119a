import AutomatonShell.Proofs.DefinitionCommands

/-!
# Sessions in which an automaton is defined

A session that begins with nothing and is given definition commands only.  Such a session touches no
file and opens no log, so all that the commands change is the automaton (`IsDefined.eq_start`).  And
while the rule for state names lets a newline through, words of commands hold no newline, so the
names of states are runs of capital letters and digits, by the same induction.

* `Automaton.HasPlainStates` — states whose names can be read back from a listing.
* `perform_onAutomaton` — a command on the automaton in a session without a log.
* **`IsDefined`** — sessions to which definition commands lead.
-/

namespace AutomatonShell

/-! ## Words -/

lemma not_isBlank_of_mem_words {text word : List Char} (h : word ∈ Text.words text) :
    ∀ c ∈ word, Text.isBlank c = false := by
  suffices ∀ part ∈ text.splitOnP Text.isBlank, ∀ c ∈ part, Text.isBlank c = false from
    this word (List.mem_filter.1 h).1
  clear h
  induction text with
  | nil => simp
  | cons d rest ih =>
    obtain ⟨part, parts, hparts⟩ :=
      List.exists_cons_of_ne_nil (List.splitOnP_ne_nil Text.isBlank rest)
    rw [hparts, List.forall_mem_cons] at ih
    rw [List.splitOnP_cons_eq_if_modifyHead, hparts]
    split_ifs with hd
    · simpa using ih
    · simpa [hd] using ih

lemma not_isBlank_of_ofText? {text : List Char} {command : Command}
    (h : Command.ofText? text = some command) :
    ∀ word ∈ command.words, ∀ c ∈ word.toList, Text.isBlank c = false := by
  rw [Command.ofText?] at h
  split at h
  · contradiction
  · next first rest hwords =>
    obtain rfl := Option.some.inj h
    intro word hword
    obtain ⟨letters, hletters, rfl⟩ := List.mem_map.1 hword
    rw [String.toList_ofList]
    exact not_isBlank_of_mem_words (hwords ▸ List.mem_cons_of_mem first hletters)

lemma mem_of_mem_stripPunctuation {word : String} {c : Char}
    (h : c ∈ (stripPunctuation word).toList) : c ∈ word.toList := by
  rw [stripPunctuation, String.toList_ofList, Text.dropEndWhile, List.mem_reverse] at h
  exact List.mem_reverse.1 ((List.dropWhile_sublist _).subset h)

/-- A word that is a state name without the punctuation behind it gives a plain name. -/
lemma isPlainName_of_word {word : String} (hblank : ∀ c ∈ word.toList, Text.isBlank c = false)
    (h : isStateName (stripPunctuation word) = true) :
    IsPlainName (Text.upper (stripPunctuation word)) := by
  rcases isStateName_iff_isName.1 h with hname | ⟨name, -, heq⟩
  · exact hname.isPlainName_upper
  · have hnewline : '\n' ∈ (stripPunctuation word).toList := by simp [heq]
    exact absurd (hblank '\n' (mem_of_mem_stripPunctuation hnewline)) (by decide)

namespace Automaton

/-- **States whose names are runs of capital letters and digits.** -/
def HasPlainStates (a : Automaton) : Prop := ∀ q ∈ a.states, IsPlainName q

lemma hasPlainStates_empty : ({} : Automaton).HasPlainStates :=
  fun _ hq => (List.not_mem_nil hq).elim

variable {a : Automaton}

lemma HasPlainStates.ensureState (h : a.HasPlainStates) {q : String} (hq : IsPlainName q) :
    (a.ensureState q).HasPlainStates := by
  intro p hp
  rcases mem_states_ensureState_iff.1 hp with hp | rfl
  · exact h p hp
  · exact hq

section

variable {word : String} (hblank : ∀ c ∈ word.toList, Text.isBlank c = false)

include hblank

lemma HasPlainStates.declareState (h : a.HasPlainStates) :
    (a.declareState word).state.HasPlainStates := by
  by_cases hname : isStateName (stripPunctuation word) = true
  · rw [state_declareState hname]
    exact h.ensureState (isPlainName_of_word hblank hname)
  · rwa [Automaton.declareState, if_pos (by simpa using hname)]

lemma HasPlainStates.declareInitial (h : a.HasPlainStates) :
    (a.declareInitial word).state.HasPlainStates := by
  by_cases hname : isStateName (stripPunctuation word) = true
  · rw [state_declareInitial hname]
    exact h.ensureState (isPlainName_of_word hblank hname)
  · rwa [Automaton.declareInitial, if_pos (by simpa using hname)]

lemma HasPlainStates.declareFinal (h : a.HasPlainStates) :
    (a.declareFinal word).state.HasPlainStates := by
  by_cases hname : isStateName (stripPunctuation word) = true
  · rw [state_declareFinal hname]
    intro p hp
    rw [mem_states_ensureFinal_iff, ← mem_states_ensureState_iff] at hp
    exact h.ensureState (isPlainName_of_word hblank hname) p hp
  · rwa [Automaton.declareFinal, if_pos (by simpa using hname)]

end

lemma states_declareSymbols (a : Automaton) (words : List String) :
    (a.declareSymbols words).state.states = a.states := by
  refine Outcome.andThen_keeps (I := fun b : Automaton => b.states = a.states) ?_ fun b hb => ?_
  · refine Outcome.forEach_keeps (I := fun b : Automaton => b.states = a.states)
      (fun b word _ hb => ?_) rfl
    rw [← hb, declareSymbol]
    split_ifs
    · rfl
    · rfl
    · exact states_addSymbols b _
  · dsimp only
    split_ifs
    · exact hb
    · exact hb

lemma states_declareTransitions (a : Automaton) (body : List Char) :
    (a.declareTransitions body).state.states = a.states := by
  rw [declareTransitions]
  dsimp only
  split
  · rfl
  · exact states_addTransitions a _

/-- **Definition commands give plain names to states.** -/
lemma HasPlainStates.define (h : a.HasPlainStates) {words : List String}
    (hwords : ∀ word ∈ words, ∀ c ∈ word.toList, Text.isBlank c = false) (keyword : Keyword)
    (body : List Char) : (a.define keyword words body).state.HasPlainStates := by
  unfold Automaton.define
  split
  · exact h
  · rwa [HasPlainStates, states_declareSymbols]
  · exact h
  · exact Outcome.forEach_keeps (I := HasPlainStates)
      (fun b word hword hb => hb.declareState (hwords word hword)) h
  · exact h
  · exact h.declareInitial (hwords _ List.mem_cons_self)
  · exact h
  · exact h
  · exact Outcome.forEach_keeps (I := HasPlainStates)
      (fun b word hword hb => hb.declareFinal (hwords word hword)) h
  · rwa [HasPlainStates, states_declareTransitions]
  · exact hasPlainStates_empty
  · exact h
  · exact h

end Automaton

namespace Session

variable {s : Session}

/-! ## Sessions without a log -/

/-- Nothing is recorded without a log. -/
lemma record_of_no_log (h : s.log.current = none) (line : String) : s.record line = s := by
  rw [record, LogSink.write, h]

lemma state_say (h : s.log.current = none) (line : Option Int) (d : Diagnostic) :
    (s.say line d).state = s := record_of_no_log h _

/-- A brief answer leaves no trace without a log. -/
lemma Brief.state_eq {answers : Diagnostic → Prop} {line : Option Int} {r : Reply}
    (hr : Brief s line answers r) (h : s.log.current = none) : r.state = s := by
  cases hr with
  | done => rfl
  | say => exact state_say h line _
  | stop => rfl

lemma state_sayAll (h : s.log.current = none) (line : Option Int) (ds : List Diagnostic) :
    (s.sayAll line ds).state = s := by
  refine Outcome.forEach_keeps (I := fun t : Session => t = s) (fun t d _ ht => ?_) rfl
  rw [ht]
  exact state_say h line d

lemma state_declare (h : s.log.current = none) (line : Option Int) (d : Declaration) :
    (s.declare line d).state = { s with automaton := d.state } := by
  refine Outcome.andThen_keeps (I := fun t : Session => t = { s with automaton := d.state }) ?_
    fun t ht => ?_
  · exact state_sayAll (s := { s with automaton := d.state }) h line d.output
  · rw [ht]
    split <;> rfl

/-- **A command on the automaton in a session without a log** changes nothing but the automaton, and
gives plain names to its states. -/
lemma perform_onAutomaton {keyword : Keyword} (hkeyword : keyword ∈ Keyword.onAutomaton)
    (hlog : s.log.current = none) (hplain : s.automaton.HasPlainStates) {words : List String}
    (hwords : ∀ word ∈ words, ∀ c ∈ word.toList, Text.isBlank c = false) (load : Action)
    (body : List Char) (line : Option Int) :
    ∃ a, a.HasPlainStates ∧
      (s.perform load keyword words body line).state = { s with automaton := a } := by
  obtain ⟨handler, hhandles, hperform⟩ := exists_handles keyword words body
  rw [hperform]
  cases hhandles with
  | define => exact ⟨_, hplain.define hwords keyword body, state_declare hlog line _⟩
  | arity => exact ⟨s.automaton, hplain, state_say hlog line _⟩
  | execute text => exact ⟨s.automaton, hplain, (brief_execute s text line).state_eq hlog⟩
  | listAll | print | compile | load | stopLog | openLog | exit =>
    simp [Keyword.onAutomaton] at hkeyword

/-! ## Definitions -/

/-- Whether a text is a command on the automaton. -/
def isOnAutomaton (text : String) : Bool :=
  match Command.ofText? (trimCommand text.toList) with
  | none => false
  | some command =>
    match Keyword.ofName? command.first with
    | none => false
    | some keyword => Keyword.onAutomaton.contains keyword

/-- **Sessions to which definition commands lead**: they begin with nothing, and all the commands
they are given are on the automaton. -/
inductive IsDefined (config : Config) (workspace : Workspace) : Session → Prop where
  | start : IsDefined config workspace (Session.start config workspace)
  | command {s : Session} (h : IsDefined config workspace s) {text : String}
      (htext : isOnAutomaton text = true) (line : Option Int) :
      IsDefined config workspace (s.process text line).state

variable {config : Config} {workspace : Workspace}

/-- One command on the automaton. -/
lemma process_onAutomaton {text : String} (htext : isOnAutomaton text = true)
    (hlog : s.log.current = none) (hplain : s.automaton.HasPlainStates) (line : Option Int) :
    ∃ a, a.HasPlainStates ∧ (s.process text line).state = { s with automaton := a } := by
  rw [isOnAutomaton] at htext
  rw [process_eq, processAt, processWith]
  split_ifs
  · exact ⟨s.automaton, hplain, rfl⟩
  · dsimp only
    cases hcommand : Command.ofText? (trimCommand text.toList) with
    | none => exact ⟨s.automaton, hplain, rfl⟩
    | some command =>
      rw [hcommand] at htext
      dsimp only at htext ⊢
      cases hkeyword : Keyword.ofName? command.first with
      | none => simp [hkeyword] at htext
      | some keyword =>
        rw [hkeyword] at htext
        dsimp only
        rw [record_of_no_log hlog]
        exact perform_onAutomaton (List.contains_iff_mem.1 htext) hlog hplain
          (not_isBlank_of_ofText? hcommand) _ _ _

/-- **Definition commands change nothing but the automaton**, by induction on them. -/
theorem IsDefined.eq_start (h : IsDefined config workspace s) :
    s.automaton.HasPlainStates ∧
      s = { Session.start config workspace with automaton := s.automaton } := by
  induction h with
  | start => exact ⟨Automaton.hasPlainStates_empty, rfl⟩
  | @command s h text htext line ih =>
    obtain ⟨hplain, hs⟩ := ih
    have hlog : s.log.current = none := by rw [hs]; rfl
    obtain ⟨a, ha, hprocess⟩ := process_onAutomaton htext hlog hplain line
    rw [hprocess]
    refine ⟨ha, ?_⟩
    conv_lhs => rw [hs]

lemma IsDefined.settled (h : IsDefined config workspace s) :
    s.config = config ∧ s.finished = false ∧ s.log.current = none := by
  rw [h.eq_start.2]
  exact ⟨rfl, rfl, rfl⟩

lemma IsDefined.wellFormed (h : IsDefined config workspace s) : s.automaton.WellFormed := by
  induction h with
  | start => exact Automaton.wellFormed_empty
  | command h _ line ih => exact process_wellFormed ih _ line

end Session

end AutomatonShell
