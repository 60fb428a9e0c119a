import AutomatonShell.Proofs.WellFormed
import AutomatonShell.Snapshot

/-!
# What a restored automaton is made of

A snapshot is read in `Except`: checks in order, then declarations that must not be refused.  The
automaton that comes out was declared from nothing, so it is well formed whatever the arrays hold.

* `bind_eq_ok`, `bind_eq_error` — when a sequence of checks succeeds, and how it fails.
* **`toAutomaton_wellFormed`** — restored automata are well formed.
-/

namespace AutomatonShell

/-- A sequence of two checks succeeds exactly when both do. -/
lemma bind_eq_ok {ε α β : Type} {x : Except ε α} {f : α → Except ε β} {b : β} :
    (x >>= f) = .ok b ↔ ∃ a, x = .ok a ∧ f a = .ok b := by
  cases x with
  | error e => simp [bind, Except.bind]
  | ok a => simp [bind, Except.bind]

/-- It fails exactly when the first does, or the second on what the first has found. -/
lemma bind_eq_error {ε α β : Type} {x : Except ε α} {f : α → Except ε β} {e : ε} :
    (x >>= f) = .error e ↔ x = .error e ∨ ∃ a, x = .ok a ∧ f a = .error e := by
  cases x with
  | error e' => simp [bind, Except.bind]
  | ok a => simp [bind, Except.bind]

namespace Snapshot

open Archive Automaton

lemma declared_eq_ok {result : Automaton × Option ModelError} {a : Automaton}
    (h : declared result = .ok a) : result = (a, none) := by
  obtain ⟨b, failure⟩ := result
  cases failure with
  | none => rw [Except.ok.inj h]
  | some e => exact nomatch h

lemma declareStates_wellFormed {a b : Automaton} (h : a.WellFormed) {states : List Label}
    (hb : Snapshot.declareStates a states = .ok b) : b.WellFormed := by
  obtain ⟨c, hc, hrest⟩ := bind_eq_ok.1 hb
  have hwf := h.addStates ((states.takeWhile (·.text?.isSome)).filterMap Label.text?)
  rw [declared_eq_ok hc] at hwf
  split at hrest
  · rwa [← Except.ok.inj hrest]
  · exact nomatch hrest

lemma declareRows_wellFormed {a b : Automaton} (h : a.WellFormed)
    {rows : List (Label × Label × Label)} (hb : declareRows a rows = .ok b) : b.WellFormed := by
  induction rows generalizing a with
  | nil => rwa [← Except.ok.inj hb]
  | cons row rest ih =>
    obtain ⟨symbol, source, target⟩ := row
    obtain ⟨texts, -, hrow⟩ := bind_eq_ok.1 hb
    obtain ⟨c, hc, hrest⟩ := bind_eq_ok.1 hrow
    have hwf := h.addRows [texts]
    rw [declared_eq_ok hc] at hwf
    exact ih hwf hrest

lemma build_wellFormed {a : Automaton} {symbols states initial finals : List Label}
    {table : NdArray} (h : build symbols states initial finals table = .ok a) : a.WellFormed := by
  have hlast : ∀ b : Automaton, b.WellFormed →
      (do let b ← declared (b.addFinalStates (finals.filterMap Label.text?))
          declareRows b (rows (← labelsOf table))) = .ok a → a.WellFormed := by
    intro b hwf hb
    obtain ⟨c, hc, hb⟩ := bind_eq_ok.1 hb
    obtain ⟨labels, -, hb⟩ := bind_eq_ok.1 hb
    have hfinals := hwf.addFinalStates (finals.filterMap Label.text?)
    rw [declared_eq_ok hc] at hfinals
    exact declareRows_wellFormed hfinals hb
  simp only [build] at h
  obtain ⟨b, hb, h⟩ := bind_eq_ok.1 h
  have hwf := declareStates_wellFormed (wellFormed_empty.addSymbols _) hb
  -- a snapshot without an initial state leaves the one that declaring the states has chosen
  split at h
  · exact hlast b hwf h
  · next state _ _ =>
    obtain ⟨c, hc, h⟩ := bind_eq_ok.1 h
    have hinitial := hwf.setInitialState state
    rw [declared_eq_ok hc] at hinitial
    exact hlast c hinitial h

/-- **Restored automata are well formed**, whatever arrays they are restored from: the checks only
ever refuse, and what they let through is declared from nothing. -/
theorem toAutomaton_wellFormed {entries : List (String × Entry)} {a : Automaton}
    (h : toAutomaton entries = .ok a) : a.WellFormed := by
  simp only [toAutomaton, bind_eq_ok] at h
  obtain ⟨-, -, symbols, -, states, -, initial, -, finals, -, table, -, symbols', -, states', -,
    initial', -, finals', -, h⟩ := h
  split_ifs at h
  split at h
  · exact nomatch h
  · split at h
    · exact nomatch h
    · obtain ⟨b, hb, h⟩ := bind_eq_ok.1 h
      split_ifs at h
      rw [← Except.ok.inj h]
      exact build_wellFormed hb

end Snapshot

/-- An automaton loaded from a file is well formed. -/
theorem Workspace.loadSnapshot_wellFormed {w : Workspace} {path : String}
    {library : Snapshot.Library} {a : Automaton} (h : w.loadSnapshot path library = .ok a) :
    a.WellFormed := by
  rw [loadSnapshot] at h
  split at h
  · exact nomatch h
  · exact nomatch h
  · split at h
    · exact nomatch h
    · split at h
      · exact nomatch h
      · next b hb =>
        rw [← Except.ok.inj h]
        obtain ⟨entries, -, hb⟩ := bind_eq_ok.1 hb
        exact Snapshot.toAutomaton_wellFormed hb

end AutomatonShell
