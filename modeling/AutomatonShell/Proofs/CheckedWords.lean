import AutomatonShell.Proofs.GivenNames
import AutomatonShell.Proofs.TaskFaults

/-!
# Words are checked before they are used

A command looks at the words as they were written, up to the punctuation behind them, and the model
looks at their canonical forms.  Both ask the same of a word (`names_accepted`), so the model has
nothing left to refuse, whatever characters a word is made of.  A transition is staged when its
names are declared, and what is declared stays so until the batch is inserted
(`forEach_stageGroup_eq`).  Execution looks up names that are declared, and these have a place in
the table (`Matrix.ofAutomaton_represents`).

* `Automaton.ChecksSuffice` — the model accepts what the checks of a command let through.
* `Automaton.WellFormed.checksSuffice` — it does so in every well-formed automaton.
* **`process_on_automaton`** — commands on the automaton do not break off, and nothing that they ask
  the model for is refused.
-/

namespace AutomatonShell

namespace Automaton

variable {a : Automaton}

/-- **The model accepts what the checks of a command let through.**  A name or symbol that has been
checked has a canonical form and can be declared in any automaton; three names that have been
checked describe a transition between declared names; all the transitions that are staged can be
inserted, one after the other; and an automaton with an initial state has a table in which no
look-up of a run fails. -/
structure ChecksSuffice (a : Automaton) (command : Command) : Prop where
  symbols : ∀ word ∈ command.words, isSymbolWord word = true →
    canonicalSymbol (stripPunctuation word) = .ok (Text.upper (stripPunctuation word))
  names : ∀ word ∈ command.words, isStateName (stripPunctuation word) = true →
    canonicalName (stripPunctuation word) = .ok (Text.upper (stripPunctuation word)) ∧
      ∀ (b : Automaton) (c : Call), c.stateNames = [stripPunctuation word] → (b.call c).2 = none
  groups : ∀ group ∈ command.body.splitOn ',', ∀ symbol source target,
    (Text.words group).map (fun word => stripPunctuation (String.ofList word))
      = [symbol, source, target] →
    isSymbol symbol = true → a.hasSymbol symbol = true → a.undeclaredStates source target = [] →
      ∃ t, Transition.of? symbol source target = .ok t ∧ a.undeclared? t = none
  batch : let staged := Outcome.forEach a.stageGroup [] (command.body.splitOn ',')
    staged.failure = none ∧ (∀ t ∈ staged.state, a.undeclared? t = none) ∧
      (a.addTransitions staged.state).2 = none
  table : ∀ q, a.initial = some q →
    ∃ m, Matrix.ofAutomaton a = .ok m ∧ ∀ input, ∃ run, m.run input = some run

/-- **Checked words are accepted**, whatever is declared. -/
lemma names_accepted {name : String} (h : isStateName name = true) {c : Call}
    (hc : c.stateNames = [name]) : (a.call c).2 = none := by
  rw [call_refusal (by simp [hc]), hc]
  simp [h]

/-- **In a well-formed automaton the checks suffice** for every command. -/
lemma WellFormed.checksSuffice (h : a.WellFormed) (command : Command) :
    a.ChecksSuffice command where
  symbols _ _ hword := canonicalSymbol_of_isSymbol hword
  names _ _ hword := ⟨canonicalName_of_isStateName hword, fun _ _ => names_accepted hword⟩
  groups _ _ _ _ _ _ hsymbol hdeclared hstates := by
    obtain ⟨t, hof, hdeclares, -⟩ := of?_of_checks hsymbol hdeclared hstates
    exact ⟨t, hof, undeclared?_eq_none.2 hdeclares⟩
  batch := by
    obtain ⟨hfailure, hstaged, -⟩ := forEach_stageGroup_eq
      (fun g (hg : g ∈ command.body.splitOn ',') => not_mem_of_mem_splitOn hg) (isStaged_nil a)
    refine ⟨hfailure, fun t ht => undeclared?_eq_none.2 (hstaged.declares t ht), ?_⟩
    rw [addTransitions_eq hstaged.keys_nodup hstaged.declares]
  table q hq := by
    obtain ⟨m, hm, hrep⟩ := Matrix.ofAutomaton_represents h hq
    exact ⟨m, hm, fun input => ⟨_, Matrix.run_represents hrep h hq input⟩⟩

end Automaton

namespace Session

/-- **Commands on the automaton do not break off.**  In every session that a history leads to, a
command that declares, clears or executes is answered in full, whatever its text holds, and the
model accepts all that the checks of the command let through. -/
theorem process_on_automaton {s : Session} (h : s.Reachable) {text : String} {command : Command}
    {keyword : Keyword} (hcommand : Command.ofText? (trimCommand text.toList) = some command)
    (hkeyword : Keyword.ofName? command.first = some keyword)
    (hmem : keyword ∈ Keyword.onAutomaton) (line : Option Int) :
    (s.process text line).failure = none ∧ s.automaton.ChecksSuffice command := by
  refine ⟨?_, h.wellFormed.checksSuffice command⟩
  rw [process_eq, processAt, processWith]
  split_ifs
  · rfl
  · simp only [hcommand, hkeyword]
    exact Task.failure_of_mem_onAutomaton (t := ⟨s.record _, keyword, _, _, line⟩) h.wellFormed
      hmem _

/-- A command with a letter beyond ASCII, an undeclared state, and a transition staged twice. -/
theorem process_on_automaton_of_groups :
    let s := ((Session.start Config.standard { home := [], files := [] }).process
      "SYMBOLS k" none).state.process "STATES a;, b" none |>.state
    let body := "\u212A a b, K a b;, k a a;, k a c"
    let command : Command := ⟨"TRANSITIONS",
      ["\u212A", "a", "b,", "K", "a", "b;,", "k", "a", "a;,", "k", "a", "c"], body.toList⟩
    (s.process ("TRANSITIONS " ++ body) none).failure = none ∧
      s.automaton.ChecksSuffice command := by
  intro s body command
  have hs : s.Reachable := .process (.process (.start validate_standard _) _ _) _ _
  have hkeyword : Keyword.ofName? command.first = some .transitions := by decide +kernel
  exact process_on_automaton hs (by decide +kernel) hkeyword (by decide) none

end Session

end AutomatonShell
