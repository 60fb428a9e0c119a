import AutomatonShell.Proofs.CheckedWords

/-!
# Definition commands

The commands that define an automaton work on nothing else, so they are functions of the automaton
(`Automaton.define`).  A session carries them over (`perform_eq_declare`): whatever its files and
its log, it gets the automaton that the definition leaves, and says what the definition says.

The groups of a TRANSITIONS command are looked at one at a time.  A group describes a transition, or
it is refused; which of the two depends on the declared names only (`stageGroup_described`).

* `Automaton.state_declareState` and its siblings — what a valid word makes sure of.
* `Automaton.described?` — the transition that a group describes.
* `declareTransitions_eq_withBatch` — TRANSITIONS is its batch inserted.
* **`Session.process_definition`** — a definition command, from its text to what it defines.
-/

namespace AutomatonShell

namespace Automaton

variable {a : Automaton}

/-! ## Words -/

/-- One word of STATES, if it is valid, makes sure that there is a state of that name. -/
lemma state_declareState {word : String} (h : isStateName (stripPunctuation word) = true)
    (a : Automaton) :
    (a.declareState word).state = a.ensureState (Text.upper (stripPunctuation word)) := by
  rw [declareState, if_neg (by simp [h])]
  split_ifs with hold
  · exact (ensureState_of_mem (List.contains_iff_mem.1 hold)).symm
  · rw [addStates, canonicalName_of_isStateName h]
    rfl

/-- INITIAL-STATE, if its word is valid, makes sure that there is a state of that name, and makes it
the initial one. -/
lemma state_declareInitial {word : String} (h : isStateName (stripPunctuation word) = true)
    (a : Automaton) :
    (a.declareInitial word).state = { a.ensureState (Text.upper (stripPunctuation word)) with
      initial := some (Text.upper (stripPunctuation word)) } := by
  have hset : ∀ b : Automaton, (settle (b.setInitialState (stripPunctuation word))).state
      = { b.ensureState (Text.upper (stripPunctuation word)) with
          initial := some (Text.upper (stripPunctuation word)) } := by
    intro b
    rw [setInitialState, canonicalName_of_isStateName h]
    rfl
  rw [declareInitial, if_neg (by simp [h])]
  split_ifs with hold
  · rw [Outcome.done_andThen]
    exact hset a
  · rw [Outcome.andThen_of_failure_eq_none rfl]
    dsimp only
    rw [hset]
    rfl

/-- One word of FINAL-STATES, if it is valid, makes sure that there is a final state of that
name. -/
lemma state_declareFinal {word : String} (h : isStateName (stripPunctuation word) = true)
    (a : Automaton) :
    (a.declareFinal word).state = a.ensureFinal (Text.upper (stripPunctuation word)) := by
  have hadd : ∀ b : Automaton, (settle (b.addFinalStates [stripPunctuation word])).state
      = b.ensureFinal (Text.upper (stripPunctuation word)) := by
    intro b
    rw [addFinalStates, canonicalName_of_isStateName h]
    rfl
  rw [declareFinal, if_neg (by simp [h])]
  split_ifs with hnew hold
  · rw [Outcome.andThen_of_failure_eq_none rfl]
    dsimp only
    rw [hadd]
    rfl
  · have hmem : Text.upper (stripPunctuation word) ∈ a.states := by simpa [hasState] using hnew
    rw [ensureFinal, ensureState_of_mem hmem]
    exact (if_pos hold).symm
  · exact hadd a

/-! ## Groups -/

lemma undeclaredStates_eq_nil_iff {source target : String} :
    a.undeclaredStates source target = [] ↔
      (isStateName source = true ∧ a.hasState source = true) ∧
        isStateName target = true ∧ a.hasState target = true := by
  simp [undeclaredStates, List.filter_eq_nil_iff]

/-- **The transition that a group describes**: it has three words, the first of them a declared
symbol and the others declared states. -/
def described? (a : Automaton) (group : List Char) : Option Transition :=
  match (Text.words group).map fun word => stripPunctuation (String.ofList word) with
  | [symbol, source, target] =>
    if (isSymbol symbol ∧ a.hasSymbol symbol) ∧ (isStateName source ∧ a.hasState source) ∧
        isStateName target ∧ a.hasState target then
      some ⟨Text.upper symbol, Text.upper source, Text.upper target⟩
    else none
  | _ => none

/-- A group that describes a transition puts it into an empty batch, and no other group does. -/
lemma stageGroup_nil_state (a : Automaton) (group : List Char) :
    (a.stageGroup [] group).state = (a.described? group).toList := by
  rw [stageGroup, described?]
  generalize (Text.words group).map (fun word => stripPunctuation (String.ofList word)) = names
  rcases names with _ | ⟨symbol, _ | ⟨source, _ | ⟨target, _ | ⟨extra, rest⟩⟩⟩⟩
  · rfl
  · rfl
  · rfl
  · dsimp only
    by_cases hrefused : (!isSymbol symbol || !a.hasSymbol symbol) = true
    · rw [if_pos hrefused, if_neg fun h => by simp [h.1] at hrefused]
      rfl
    · have hsymbol : isSymbol symbol = true ∧ a.hasSymbol symbol = true := by simpa using hrefused
      rw [if_neg hrefused]
      by_cases hstates : a.undeclaredStates source target = []
      · have hdeclared := undeclaredStates_eq_nil_iff.1 hstates
        obtain ⟨t, hof, -, -⟩ := of?_of_checks hsymbol.1 hsymbol.2 hstates
        obtain ⟨-, -, -, rfl⟩ := Transition.of?_eq_ok.1 hof
        rw [if_pos ⟨hsymbol, hdeclared⟩, hstates]
        dsimp only
        rw [hof]
        rfl
      · obtain ⟨name, rest, hnames⟩ := List.exists_cons_of_ne_nil hstates
        rw [if_neg fun h => hstates (undeclaredStates_eq_nil_iff.2 h.2), hnames]
        rfl
  · rfl

/-- **What a group can do**, by the transition that it describes. -/
lemma stageGroup_described (a : Automaton) (group : List Char) :
    (a.described? group = none ∧ ∃ ds, ∀ b : Automaton, b.symbols = a.symbols →
        b.states = a.states → ∀ batch,
          b.stageGroup batch group = { state := batch, output := ds }) ∨
      ∃ t, a.described? group = some t ∧ a.Declares t ∧
        (Text.upper t.symbol, Text.upper t.source) = t.key ∧
        ∀ b : Automaton, b.symbols = a.symbols → b.states = a.states → ∀ batch,
          b.stageGroup batch group = b.stage batch t := by
  have hstate := a.stageGroup_nil_state group
  rcases stageGroup_cases a group with ⟨ds, hgroup⟩ | ⟨t, hdeclares, hkey, hgroup⟩
  · rw [hgroup a rfl rfl] at hstate
    exact Or.inl ⟨Option.toList_eq_nil_iff.1 hstate.symm, ds, hgroup⟩
  · rw [hgroup a rfl rfl] at hstate
    refine Or.inr ⟨t, ?_, hdeclares, hkey, hgroup⟩
    simpa [stage] using congrArg List.head? hstate.symm

lemma stageGroup_failure (a : Automaton) (batch : List Transition) (group : List Char) :
    (a.stageGroup batch group).failure = none := by
  rcases stageGroup_cases a group with ⟨ds, hgroup⟩ | ⟨t, -, -, hgroup⟩ <;> rw [hgroup a rfl rfl]
  rfl

/-- **TRANSITIONS is its batch inserted.** -/
lemma declareTransitions_eq_withBatch (a : Automaton) (body : List Char) :
    let staged := Outcome.forEach a.stageGroup [] (body.splitOn ',')
    a.IsStaged staged.state ∧
      a.declareTransitions body
        = { state := a.withBatch staged.state, output := staged.output } := by
  obtain ⟨hfailure, hstaged, -⟩ := forEach_stageGroup_eq
    (fun g (hg : g ∈ body.splitOn ',') => not_mem_of_mem_splitOn hg) (isStaged_nil a)
  refine ⟨hstaged, ?_⟩
  simp only [declareTransitions, hfailure, withBatch_eq hstaged,
    addTransitions_eq hstaged.keys_nodup hstaged.declares]

end Automaton

namespace Session

variable {s : Session}

/-- **A definition command, from its text to what it defines.** -/
theorem process_definition (hs : s.finished = false) {text : String} {command : Command}
    {keyword : Keyword} (hcommand : Command.ofText? (trimCommand text.toList) = some command)
    (hkeyword : Keyword.ofName? command.first = some keyword)
    (hmem : keyword ∈ Keyword.definitions) (line : Option Int) :
    let defined := s.automaton.define keyword command.words command.body
    (s.process text line).failure = none ∧ (s.process text line).state.finished = false ∧
      (s.process text line).state.automaton = defined.state ∧
      (s.process text line).output = defined.output.map (·.message line) := by
  intro defined
  have hdefined : defined.failure = none := Automaton.define_failure _ _ _ _
  have hprocess : s.process text line = (s.record (s.config.prompt
      ++ String.ofList (trimCommand text.toList))).declare line defined := by
    rw [process_eq, processAt, processWith, if_neg (by simp [hs])]
    simp only [hcommand, hkeyword]
    exact perform_eq_declare hmem _ _ _ _
  obtain ⟨hfailure, hfinished, houtput⟩ := declare_eq hdefined (s.record _) line
  rw [hprocess]
  exact ⟨hfailure, hfinished.trans hs, automaton_declare _ line defined, houtput⟩

end Session

end AutomatonShell
