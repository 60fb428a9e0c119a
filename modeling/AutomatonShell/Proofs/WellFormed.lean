import AutomatonShell.Proofs.Names
import AutomatonShell.Proofs.Outcomes
import AutomatonShell.Session.Declare

/-!
# Declarations keep an automaton well formed

One lemma for every way in which the model changes an automaton by one item, and from these, by
induction on the items, one for every declaration.  A declaration that is refused part-way is
covered by the same lemmas: they speak of the automaton that is left, whatever the reason.

* `WellFormed.ensureState`, `WellFormed.insertTransition` and their siblings — one item.
* **`WellFormed.addStates`**, `addSymbols`, `setInitialState`, `addFinalStates`, `addTransitions`,
  `addRows` — whole declarations.
* **`WellFormed.declareStates`** and its siblings — the commands, which check every word before the
  model sees it.
-/

namespace AutomatonShell

/-- Whether a text is a state name in canonical form. -/
def IsCanonicalName (state : String) : Prop :=
  isStateName state = true ∧ Text.upper state = state

namespace Automaton

variable {a : Automaton}

/-! ## One item -/

/-- A key that is put in belongs to no transition that stays. -/
lemma keys_insertTransition_nodup {ts : List Transition} (h : (ts.map Transition.key).Nodup)
    (t : Transition) :
    ((ts.filter (·.key != t.key) ++ [t]).map Transition.key).Nodup := by
  rw [List.map_append, List.nodup_append]
  refine ⟨h.sublist (List.filter_sublist.map _), by simp, ?_⟩
  intro k hk k' hk' he
  obtain ⟨u, hu, rfl⟩ := List.mem_map.1 hk
  have hne := (List.mem_filter.1 hu).2
  simp only [List.map_cons, List.map_nil, List.mem_singleton] at hk'
  rw [hk'] at he
  simp [he] at hne

lemma nodup_append_singleton {α : Type} {x : α} {xs : List α} (h : xs.Nodup) (hnew : x ∉ xs) :
    (xs ++ [x]).Nodup := by
  refine List.nodup_append.2 ⟨h, by simp, ?_⟩
  intro y hy z hz he
  rw [List.mem_singleton.1 hz] at he
  exact hnew (he ▸ hy)

lemma WellFormed.addSymbolChar (h : a.WellFormed) (c : Char) : (a.addSymbolChar c).WellFormed := by
  rw [Automaton.addSymbolChar]
  split_ifs with hc
  · dsimp only
    split_ifs with hold
    · exact h
    · refine { h with symbols_nodup := ?_, symbols_plain := ?_, transitions_declared := ?_ }
      · exact nodup_append_singleton h.symbols_nodup (by simpa using hold)
      · intro s hs
        rcases List.mem_append.1 hs with hs | hs
        · exact h.symbols_plain s hs
        · exact ⟨c.toUpper, isCapital_toUpper hc, List.mem_singleton.1 hs⟩
      · intro t ht
        obtain ⟨hsymbol, hsource, htarget⟩ := h.transitions_declared t ht
        exact ⟨List.mem_append_left _ hsymbol, hsource, htarget⟩
  · exact h

lemma ensureState_of_mem {q : String} (h : q ∈ a.states) : a.ensureState q = a := by
  rw [ensureState, if_pos (by simpa using h)]

lemma ensureState_of_not_mem {q : String} (h : q ∉ a.states) :
    a.ensureState q = { a with states := a.states ++ [q], initial := a.initial <|> some q } := by
  rw [ensureState, if_neg (by simpa using h)]

lemma WellFormed.ensureState (h : a.WellFormed) {q : String} (hq : IsCanonicalName q) :
    (a.ensureState q).WellFormed := by
  by_cases hold : q ∈ a.states
  · rwa [ensureState_of_mem hold]
  · rw [ensureState_of_not_mem hold]
    have hsub : ∀ {p : String}, p ∈ a.states → p ∈ a.states ++ [q] := List.mem_append_left _
    refine { h with
      states_nodup := nodup_append_singleton h.states_nodup hold, states_canonical := ?_,
      initial_isSome := ?_, initial_mem := ?_,
      finals_subset := fun p hp => hsub (h.finals_subset p hp), transitions_declared := ?_ }
    · intro p hp
      rcases List.mem_append.1 hp with hp | hp
      · exact h.states_canonical p hp
      · rw [List.mem_singleton.1 hp]
        exact hq
    · cases a.initial <;> simp
    · intro p hp
      cases hi : a.initial with
      | none =>
        rw [hi] at hp
        obtain rfl : q = p := by simpa using hp
        simp
      | some i =>
        rw [hi] at hp
        obtain rfl : i = p := by simpa using hp
        exact hsub (h.initial_mem i (by simp [hi]))
    · intro t ht
      obtain ⟨hsymbol, hsource, htarget⟩ := h.transitions_declared t ht
      exact ⟨hsymbol, hsub hsource, hsub htarget⟩

/-- A state that was asked for is there. -/
lemma mem_states_ensureState (a : Automaton) (q : String) : q ∈ (a.ensureState q).states := by
  by_cases hold : q ∈ a.states
  · rwa [ensureState_of_mem hold]
  · rw [ensureState_of_not_mem hold]
    simp

lemma WellFormed.withInitial (h : a.WellFormed) {q : String} (hq : q ∈ a.states) :
    WellFormed { a with initial := some q } := by
  refine { h with initial_isSome := ?_, initial_mem := ?_ }
  · exact ⟨fun _ => List.ne_nil_of_mem hq, fun _ => rfl⟩
  · intro p hp
    obtain rfl : q = p := by simpa using hp
    exact hq

lemma WellFormed.ensureFinal (h : a.WellFormed) {q : String} (hq : IsCanonicalName q) :
    (a.ensureFinal q).WellFormed := by
  have hmem := mem_states_ensureState a q
  have h' := h.ensureState hq
  rw [Automaton.ensureFinal]
  split_ifs with hold
  · exact h'
  · refine { h' with finals_nodup := ?_, finals_subset := ?_ }
    · exact nodup_append_singleton h'.finals_nodup (by simpa using hold)
    · intro p hp
      rcases List.mem_append.1 hp with hp | hp
      · exact h'.finals_subset p hp
      · rw [List.mem_singleton.1 hp]
        exact hmem

/-- Nothing is missing exactly when symbol, source and target are declared. -/
lemma undeclared?_eq_none {t : Transition} :
    a.undeclared? t = none ↔ t.symbol ∈ a.symbols ∧ t.source ∈ a.states ∧ t.target ∈ a.states := by
  rw [Automaton.undeclared?]
  split_ifs <;> simp_all

lemma WellFormed.insertTransition (h : a.WellFormed) {t : Transition}
    (ht : a.undeclared? t = none) : (a.insertTransition t).WellFormed := by
  refine { h with keys_nodup := keys_insertTransition_nodup h.keys_nodup t,
                  transitions_declared := ?_ }
  intro u hu
  rcases List.mem_append.1 hu with hu | hu
  · exact h.transitions_declared u (List.mem_filter.1 hu).1
  · rw [List.mem_singleton.1 hu]
    exact undeclared?_eq_none.1 ht

/-- Without an initial state there are no states, and the other way round. -/
lemma WellFormed.initial_eq_none_iff (h : a.WellFormed) : a.initial = none ↔ a.states = [] := by
  have hsome := h.initial_isSome
  cases hq : a.initial with
  | none => simpa [hq] using hsome
  | some q => simpa [hq] using hsome

/-! ## Whole declarations -/

theorem WellFormed.addSymbols (h : a.WellFormed) (texts : List String) :
    (a.addSymbols texts).WellFormed := by
  rw [Automaton.addSymbols]
  generalize texts.flatMap String.toList = chars
  induction chars generalizing a with
  | nil => exact h
  | cons c rest ih => exact ih (h.addSymbolChar c)

theorem WellFormed.addStates (h : a.WellFormed) (names : List String) :
    (a.addStates names).1.WellFormed := by
  induction names generalizing a with
  | nil => exact h
  | cons name rest ih =>
    rw [Automaton.addStates]
    split
    · exact h
    · next state hname => exact ih (h.ensureState (canonicalName_ok hname))

theorem WellFormed.setInitialState (h : a.WellFormed) (name : String) :
    (a.setInitialState name).1.WellFormed := by
  rw [Automaton.setInitialState]
  split
  · exact h
  · next state hname =>
    exact (h.ensureState (canonicalName_ok hname)).withInitial (mem_states_ensureState a state)

theorem WellFormed.addFinalStates (h : a.WellFormed) (names : List String) :
    (a.addFinalStates names).1.WellFormed := by
  induction names generalizing a with
  | nil => exact h
  | cons name rest ih =>
    rw [Automaton.addFinalStates]
    split
    · exact h
    · next state hname => exact ih (h.ensureFinal (canonicalName_ok hname))

theorem WellFormed.addTransitions (h : a.WellFormed) (ts : List Transition) :
    (a.addTransitions ts).1.WellFormed := by
  induction ts generalizing a with
  | nil => exact h
  | cons t rest ih =>
    rw [Automaton.addTransitions]
    split
    · exact h
    · next ht => exact ih (h.insertTransition ht)

theorem WellFormed.addRows (h : a.WellFormed) (rows : List (String × String × String)) :
    (a.addRows rows).1.WellFormed := by
  induction rows generalizing a with
  | nil => exact h
  | cons row rest ih =>
    obtain ⟨symbol, source, target⟩ := row
    rw [Automaton.addRows]
    split
    · exact h
    · next t _ =>
      have ht := h.addTransitions [t]
      split
      · next b e hb => rwa [hb] at ht
      · next b hb =>
        rw [hb] at ht
        exact ih ht

/-! ## The commands -/

theorem WellFormed.declareSymbols (h : a.WellFormed) (words : List String) :
    (a.declareSymbols words).state.WellFormed := by
  rw [Automaton.declareSymbols]
  refine Outcome.andThen_keeps (Outcome.forEach_keeps (fun b word _ hb => ?_) h) fun b hb => ?_
  · rw [declareSymbol]
    split_ifs
    · exact hb
    · exact hb
    · exact hb.addSymbols _
  · dsimp only
    split_ifs
    · exact hb
    · exact hb

theorem WellFormed.declareStates (h : a.WellFormed) (words : List String) :
    (a.declareStates words).state.WellFormed := by
  refine Outcome.forEach_keeps (fun b word _ hb => ?_) h
  rw [declareState]
  split_ifs
  · exact hb
  · exact hb
  · exact hb.addStates _

theorem WellFormed.declareInitial (h : a.WellFormed) (word : String) :
    (a.declareInitial word).state.WellFormed := by
  rw [Automaton.declareInitial]
  split_ifs
  · exact h
  · exact Outcome.andThen_keeps h fun b hb => hb.setInitialState _
  · exact Outcome.andThen_keeps h fun b hb => hb.setInitialState _

theorem WellFormed.declareFinals (h : a.WellFormed) (words : List String) :
    (a.declareFinals words).state.WellFormed := by
  refine Outcome.forEach_keeps (fun b word _ hb => ?_) h
  rw [declareFinal]
  split_ifs
  · exact hb
  · exact Outcome.andThen_keeps hb fun c hc => hc.addFinalStates _
  · exact hb
  · exact hb.addFinalStates _

/-- The batch of a TRANSITIONS command reaches the automaton only through `addTransitions`, so
nothing has to be known about how it was collected. -/
theorem WellFormed.declareTransitions (h : a.WellFormed) (body : List Char) :
    (a.declareTransitions body).state.WellFormed := by
  rw [Automaton.declareTransitions]
  dsimp only
  split
  · exact h
  · exact h.addTransitions _

end Automaton

end AutomatonShell
