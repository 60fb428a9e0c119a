import AutomatonShell.Proofs.Sessions

/-!
# Histories

Which automata and sessions there can be.  A session begins with nothing declared; from then on
its automaton is changed by calls of the model, by commands and files, by a snapshot, or by taking
over the automaton of another session.  Any of these may stop part-way, and the next step goes on
from what was left.

* `Automaton.Call`, `Automaton.call` — the calls of the model.
* **`Session.Reachable`**, `Automaton.Reachable` — what histories lead to.
* **`Session.Reachable.wellFormed`** — reachable automata are well formed, by induction on the
  history with one lemma for every kind of step.
* **`reachable_invariants`** — the same in full.
-/

namespace AutomatonShell

namespace Automaton

/-- A call of the model. -/
inductive Call where
  /-- Every character of every text added to the symbols. -/
  | addSymbols (texts : List String)
  /-- Every name added to the states. -/
  | addStates (names : List String)
  /-- The initial state set. -/
  | setInitialState (name : String)
  /-- Every name added to the final states. -/
  | addFinalStates (names : List String)
  /-- Transitions inserted that were made before. -/
  | addTransitions (transitions : List Transition)
  /-- Transitions inserted that are made from texts one at a time. -/
  | addRows (rows : List (String × String × String))
  /-- Everything removed. -/
  | clear
  deriving Repr, DecidableEq

/-- **What a call leaves**, and why it stopped early, if it did. -/
def call (a : Automaton) : Call → Automaton × Option ModelError
  | .addSymbols texts => (a.addSymbols texts, none)
  | .addStates names => a.addStates names
  | .setInitialState name => a.setInitialState name
  | .addFinalStates names => a.addFinalStates names
  | .addTransitions transitions => a.addTransitions transitions
  | .addRows rows => a.addRows rows
  | .clear => ({}, none)

/-- A call keeps an automaton well formed, also one that stops early. -/
theorem WellFormed.call {a : Automaton} (h : a.WellFormed) (c : Call) :
    (a.call c).1.WellFormed := by
  cases c with
  | addSymbols texts => exact h.addSymbols texts
  | addStates names => exact h.addStates names
  | setInitialState name => exact h.setInitialState name
  | addFinalStates names => exact h.addFinalStates names
  | addTransitions transitions => exact h.addTransitions transitions
  | addRows rows => exact h.addRows rows
  | clear => exact wellFormed_empty

end Automaton

namespace Session

/-- **The sessions that histories lead to.**  A history begins on any platform with settings that it
accepts, with any files and with nothing declared.  Its steps are calls of the model, the automaton
of any other history or of any arrays taken over, commands processed, files loaded, the log closed,
and changes that others make to the files. -/
inductive Reachable : Session → Prop where
  | start {settings : Settings} {platform : Platform} {config : Config}
      (hconfig : settings.validate platform = .ok config) (workspace : Workspace) :
      Reachable (Session.start config workspace)
  | call {s : Session} (h : Reachable s) (c : Automaton.Call) :
      Reachable { s with automaton := (s.automaton.call c).1 }
  | takeOver {s t : Session} (h : Reachable s) (ht : Reachable t) :
      Reachable { s with automaton := t.automaton }
  | restored {s : Session} (h : Reachable s) {entries : List (String × Snapshot.Entry)}
      {a : Automaton} (ha : Snapshot.toAutomaton entries = .ok a) :
      Reachable { s with automaton := a }
  | process {s : Session} (h : Reachable s) (text : String) (line : Option Int) :
      Reachable (s.process text line).state
  | runFile {s : Session} (h : Reachable s) (file : String) : Reachable (s.runFile file).state
  | closeLog {s : Session} (h : Reachable s) : Reachable s.closeLog
  | outside {s : Session} (h : Reachable s) (workspace : Workspace) : Reachable { s with workspace }

/-- Reachable sessions hold well-formed automata. -/
theorem Reachable.wellFormed {s : Session} (h : Reachable s) : s.automaton.WellFormed := by
  induction h with
  | start _ _ => exact Automaton.wellFormed_empty
  | call _ c ih => exact ih.call c
  | takeOver _ _ _ iht => exact iht
  | restored _ ha _ => exact Snapshot.toAutomaton_wellFormed ha
  | process _ text line ih => exact process_wellFormed ih text line
  | runFile _ file ih => exact runFile_wellFormed ih file
  | closeLog _ ih => exact ih
  | outside _ _ ih => exact ih

/-- **The invariants of every history.**  Symbols are different single characters of `A`–`Z` and
`0`–`9`; states are different names in upper case; final states, the initial state and everything
that a transition refers to are declared; no two transitions share symbol and source; and there is
no initial state exactly when there are no states. -/
theorem reachable_invariants {s : Session} (h : Reachable s) :
    s.automaton.symbols.Nodup ∧
      (∀ x ∈ s.automaton.symbols, ∃ c : Char,
        ('A' ≤ c ∧ c ≤ 'Z' ∨ '0' ≤ c ∧ c ≤ '9') ∧ x = String.singleton c) ∧
      s.automaton.states.Nodup ∧
      (∀ q ∈ s.automaton.states, isStateName q = true ∧ Text.upper q = q) ∧
      (∀ q ∈ s.automaton.finals, q ∈ s.automaton.states) ∧
      (∀ t ∈ s.automaton.transitions, t.symbol ∈ s.automaton.symbols ∧
        t.source ∈ s.automaton.states ∧ t.target ∈ s.automaton.states) ∧
      s.automaton.transitions.Pairwise
        (fun t u => (t.symbol, t.source) ≠ (u.symbol, u.source)) ∧
      (∀ q, s.automaton.initial = some q → q ∈ s.automaton.states) ∧
      (s.automaton.initial = none ↔ s.automaton.states = []) := by
  have hwf := h.wellFormed
  refine ⟨hwf.symbols_nodup, ?_, hwf.states_nodup, hwf.states_canonical, hwf.finals_subset,
    hwf.transitions_declared, List.pairwise_map.1 hwf.keys_nodup, hwf.initial_mem,
    hwf.initial_eq_none_iff⟩
  intro x hx
  obtain ⟨c, hc, rfl⟩ := hwf.symbols_plain x hx
  exact ⟨c, isCapital_iff.1 hc, rfl⟩

/-- The invariants after commands that replace a transition and name an unknown state. -/
theorem reachable_invariants_of_commands :
    let s := ((((Session.start Config.standard { home := [], files := [] }).process
      "SYMBOLS 0" none).state.process "STATES a, b" none).state.process
      "TRANSITIONS 0 a b, 0 a a, 0 c a" none).state
    s.Reachable ∧ s.automaton.transitions = [⟨"0", "A", "A"⟩] ∧
      s.automaton.transitions.Pairwise
        (fun t u => (t.symbol, t.source) ≠ (u.symbol, u.source)) ∧
      (s.automaton.initial = none ↔ s.automaton.states = []) := by
  intro s
  have hs : s.Reachable :=
    .process (.process (.process (.start validate_standard _) _ _) _ _) _ _
  obtain ⟨-, -, -, -, -, -, hkeys, -, hinitial⟩ := reachable_invariants hs
  exact ⟨hs, by decide +kernel, hkeys, hinitial⟩

end Session

/-- The automata that histories lead to. -/
def Automaton.Reachable (a : Automaton) : Prop := ∃ s : Session, s.Reachable ∧ s.automaton = a

lemma Automaton.Reachable.wellFormed {a : Automaton} (h : a.Reachable) : a.WellFormed := by
  obtain ⟨s, hs, rfl⟩ := h
  exact Session.Reachable.wellFormed hs

lemma Automaton.reachable_empty : ({} : Automaton).Reachable :=
  ⟨_, .start validate_standard { home := [], files := [] }, rfl⟩

lemma Automaton.Reachable.call {a : Automaton} (h : a.Reachable) (c : Automaton.Call) :
    (a.call c).1.Reachable := by
  obtain ⟨s, hs, rfl⟩ := h
  exact ⟨_, hs.call c, rfl⟩

end AutomatonShell
