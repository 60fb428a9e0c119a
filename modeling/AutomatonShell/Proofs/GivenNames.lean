import AutomatonShell.Proofs.ClosedForm

/-!
# The names that are stored

A state is stored under the upper case of the name that was given for it, so what can be stored is
decided by what is taken: letters and digits, with at most one newline behind them.  A name without
the newline is stored as `A`–`Z` and `0`–`9` and nothing else.  A name with it keeps it, and the
stored name is no run of letters and digits.

The names are followed through a history of calls and of loaded snapshots.  A call adds the names in
front of the first that is refused (`mem_states_call`), and a snapshot brings the names that it
lists (`names_of_toAutomaton`), so no other names are ever stored.

* `IsName` — one or more letters and digits.
* `Call.stateNames`, `Change` — the names that a call gives, and the steps of a history.
* `call_refusal`, `mem_states_call` — one call.
* `mem_states_history` — a whole history, by induction.
* **`stored_names`** — what names are stored, and what names are refused.
* `exists_stored_not_isPlainName` — a stored name that is no run of letters and digits.
-/

namespace AutomatonShell

/-- One or more letters and digits in any letter case, and nothing else. -/
def IsName (text : String) : Prop := text ≠ "" ∧ ∀ c ∈ text.toList, c.isAlphanum = true

/-- **What the rule for state names takes**: a name, or a name with one newline behind it. -/
lemma isStateName_iff_isName {text : String} :
    isStateName text = true ↔ IsName text ∨ ∃ name, IsName name ∧ text = name ++ "\n" := by
  rw [isStateName_iff]
  constructor
  · rintro ⟨letters, hne, hall, htext | htext⟩
    · refine Or.inl ⟨fun hempty => hne ?_, htext ▸ hall⟩
      rw [← htext, hempty]
      rfl
    · refine Or.inr ⟨String.ofList letters, ⟨fun hempty => hne ?_, ?_⟩, ?_⟩
      · simpa using congrArg String.toList hempty
      · simpa using hall
      · exact String.toList_inj.1 (by simp [htext])
  · rintro (⟨hne, hall⟩ | ⟨name, ⟨hne, hall⟩, rfl⟩)
    · exact ⟨_, fun hnil => hne (String.toList_eq_nil_iff.1 hnil), hall, Or.inl rfl⟩
    · exact ⟨_, fun hnil => hne (String.toList_eq_nil_iff.1 hnil), hall, Or.inr (by simp)⟩

/-- A name in upper case is plain. -/
lemma IsName.isPlainName_upper {name : String} (h : IsName name) :
    IsPlainName (Text.upper name) := by
  have hascii : ∀ c ∈ name.toList, c.toNat < 128 := fun c hc => toNat_lt_of_isAlphanum (h.2 c hc)
  refine ⟨fun hempty => h.1 (String.toList_eq_nil_iff.1 ?_), ?_⟩
  · have hmap := congrArg String.toList hempty
    rw [Text.toList_upper hascii] at hmap
    exact List.map_eq_nil_iff.1 hmap
  · intro c hc
    rw [Text.toList_upper hascii] at hc
    obtain ⟨d, hd, rfl⟩ := List.mem_map.1 hc
    exact isCapital_toUpper (h.2 d hd)

/-- A newline behind a name stays behind its upper case. -/
lemma IsName.upper_newline {name : String} (h : IsName name) :
    Text.upper (name ++ "\n") = Text.upper name ++ "\n" := by
  have hascii : ∀ c ∈ name.toList, c.toNat < 128 := fun c hc => toNat_lt_of_isAlphanum (h.2 c hc)
  have hascii' : ∀ c ∈ (name ++ "\n").toList, c.toNat < 128 := by
    simpa [or_imp, forall_and] using hascii
  apply String.toList_inj.1
  rw [Text.toList_upper hascii', String.toList_append, String.toList_append,
    Text.toList_upper hascii, List.map_append]
  rfl

/-- A plain name holds no newline. -/
lemma IsPlainName.ne_append_newline {text : String} (h : IsPlainName text) (name : String) :
    text ≠ name ++ "\n" := by
  rintro rfl
  exact absurd (h.2 '\n' (by simp)) (by decide)

namespace Automaton

variable {a : Automaton} {q : String}

/-! ## One call -/

/-- The names of states that a call gives. -/
def Call.stateNames : Call → List String
  | .addStates names => names
  | .setInitialState name => [name]
  | .addFinalStates names => names
  | _ => []

lemma mem_states_ensureState_iff {p : String} :
    q ∈ (a.ensureState p).states ↔ q ∈ a.states ∨ q = p := by
  by_cases hold : p ∈ a.states
  · rw [ensureState_of_mem hold]
    exact ⟨Or.inl, fun h => h.elim id fun h => h ▸ hold⟩
  · rw [ensureState_of_not_mem hold]
    simp

lemma mem_states_ensureFinal_iff {p : String} :
    q ∈ (a.ensureFinal p).states ↔ q ∈ a.states ∨ q = p := by
  rw [← mem_states_ensureState_iff, ensureFinal]
  split_ifs <;> rfl

lemma mem_finals_ensureFinal_iff {p : String} :
    q ∈ (a.ensureFinal p).finals ↔ q ∈ a.finals ∨ q = p := by
  have hfinals : (a.ensureState p).finals = a.finals := by
    rw [ensureState]
    split_ifs <;> rfl
  rw [ensureFinal]
  split_ifs with hold
  · rw [List.contains_iff_mem, hfinals] at hold
    rw [hfinals]
    exact ⟨Or.inl, fun h => h.elim id fun h => h ▸ hold⟩
  · simp [hfinals]

lemma states_addTransitions (a : Automaton) (ts : List Transition) :
    (a.addTransitions ts).1.states = a.states := by
  induction ts generalizing a with
  | nil => rfl
  | cons t rest ih =>
    rw [addTransitions]
    split
    · rfl
    · exact ih (a.insertTransition t)

lemma states_addRows (a : Automaton) (rows : List (String × String × String)) :
    (a.addRows rows).1.states = a.states := by
  induction rows generalizing a with
  | nil => rfl
  | cons row rest ih =>
    obtain ⟨symbol, source, target⟩ := row
    rw [addRows]
    split
    · rfl
    · next t _ =>
      have hstates := states_addTransitions a [t]
      split
      · next b e hb => rwa [hb] at hstates
      · next b hb =>
        rw [hb] at hstates
        rw [ih, hstates]

/-- A declaration of names one after the other: what stops it, and what it has added by then. -/
lemma names_declared {f : Automaton → List String → Automaton × Option ModelError}
    {step : Automaton → String → Automaton} (hnil : ∀ a, f a [] = (a, none))
    (hcons : ∀ a name rest, f a (name :: rest)
      = match canonicalName name with
        | .error e => (a, some e)
        | .ok state => f (step a state) rest)
    (hstep : ∀ a p, q ∈ (step a p).states ↔ q ∈ a.states ∨ q = p)
    (a : Automaton) (names : List String) :
    (f a names).2 = (names.find? (!isStateName ·)).map .malformedState ∧
      (q ∈ (f a names).1.states ↔
        q ∈ a.states ∨ ∃ name ∈ names.takeWhile isStateName, q = Text.upper name) := by
  induction names generalizing a with
  | nil => simp [hnil]
  | cons name rest ih =>
    rw [hcons, canonicalName]
    by_cases hname : isStateName name = true
    · obtain ⟨hrefusal, hmem⟩ := ih (step a (Text.upper name))
      rw [if_pos hname]
      refine ⟨by simpa [hname] using hrefusal, ?_⟩
      dsimp only
      rw [hmem, hstep, List.takeWhile_cons_of_pos hname, or_assoc, List.exists_mem_cons_iff]
    · rw [if_neg hname]
      simp [hname]

/-- **A call is refused for the first of its names that the rule does not take.** -/
lemma call_refusal {c : Call} (h : c.stateNames ≠ []) :
    (a.call c).2 = (c.stateNames.find? (!isStateName ·)).map .malformedState := by
  cases c with
  | addStates names =>
    exact (names_declared (q := "") (fun _ => rfl) (fun _ _ _ => rfl)
      (fun _ _ => mem_states_ensureState_iff) a names).1
  | addFinalStates names =>
    exact (names_declared (q := "") (fun _ => rfl) (fun _ _ _ => rfl)
      (fun _ _ => mem_states_ensureFinal_iff) a names).1
  | setInitialState name =>
    rw [Automaton.call, setInitialState, canonicalName, Call.stateNames]
    by_cases hname : isStateName name = true <;> simp [hname]
  | addSymbols | addTransitions | addRows | clear => exact absurd rfl h

/-- **A call adds the names in front of the first that is refused**, in upper case, and no other
states. -/
lemma mem_states_call {c : Call} (h : c ≠ .clear) :
    q ∈ (a.call c).1.states ↔
      q ∈ a.states ∨ ∃ name ∈ c.stateNames.takeWhile isStateName, q = Text.upper name := by
  cases c with
  | addStates names =>
    exact (names_declared (fun _ => rfl) (fun _ _ _ => rfl)
      (fun _ _ => mem_states_ensureState_iff) a names).2
  | addFinalStates names =>
    exact (names_declared (fun _ => rfl) (fun _ _ _ => rfl)
      (fun _ _ => mem_states_ensureFinal_iff) a names).2
  | setInitialState name =>
    rw [Automaton.call, setInitialState, canonicalName, Call.stateNames]
    by_cases hname : isStateName name = true
    · rw [if_pos hname]
      simpa [hname] using mem_states_ensureState_iff
    · rw [if_neg hname]
      simp [hname]
  | addSymbols texts => simp [Automaton.call, Call.stateNames, states_addSymbols]
  | addTransitions ts => simp [Automaton.call, Call.stateNames, states_addTransitions]
  | addRows rows => simp [Automaton.call, Call.stateNames, states_addRows]
  | clear => exact absurd rfl h

/-! ## Histories of calls and snapshots -/

/-- What changes an automaton: a call of the model, or a snapshot loaded in its place. -/
inductive Change where
  | call (c : Call)
  | load (entries : List (String × Snapshot.Entry))

/-- The names of states that a change gives: those of a call, or those that a snapshot lists. -/
def Change.names : Change → List String
  | .call c => c.stateNames
  | .load entries =>
    match Snapshot.rowOf entries "states" with
    | .error _ => []
    | .ok x => x.labels.filterMap Archive.Label.text?

/-- **What a change leaves.**  A snapshot that is not accepted changes nothing. -/
def changed (a : Automaton) : Change → Automaton
  | .call c => (a.call c).1
  | .load entries =>
    match Snapshot.toAutomaton entries with
    | .error _ => a
    | .ok b => b

lemma WellFormed.changed (h : a.WellFormed) (change : Change) : (a.changed change).WellFormed := by
  cases change with
  | call c => exact h.call c
  | load entries =>
    rw [Automaton.changed]
    split
    · exact h
    · next b hb => exact Snapshot.toAutomaton_wellFormed hb

/-- The states of an accepted snapshot are the texts that it lists. -/
lemma names_of_toAutomaton {entries : List (String × Snapshot.Entry)}
    (h : Snapshot.toAutomaton entries = .ok a) : (Change.load entries).names = a.states := by
  simp only [Snapshot.toAutomaton, bind_eq_ok, Snapshot.labelsOf_eq_ok] at h
  obtain ⟨-, -, symbols, -, states, hstates, initial, -, finals, -, table, -, -, ⟨-, rfl⟩, -,
    ⟨-, rfl⟩, -, ⟨-, rfl⟩, -, ⟨-, rfl⟩, h⟩ := h
  split_ifs at h
  split at h
  · cases h
  · split at h
    · cases h
    · obtain ⟨b, hb, h⟩ := bind_eq_ok.1 h
      split_ifs at h with hsame
      obtain rfl := Except.ok.inj h
      rw [Change.names, hstates]
      dsimp only
      rw [← hsame, Snapshot.filterMap_text?]

/-- **One change.**  A state that it leaves was there before, or has a name that it gave. -/
lemma mem_states_changed {change : Change} (hq : q ∈ (a.changed change).states) :
    q ∈ a.states ∨ ∃ name ∈ change.names, isStateName name = true ∧ q = Text.upper name := by
  cases change with
  | call c =>
    by_cases hclear : c = .clear
    · subst hclear
      exact absurd hq List.not_mem_nil
    · refine ((mem_states_call hclear).1 hq).imp_right ?_
      rintro ⟨name, hname, rfl⟩
      exact ⟨name, List.takeWhile_subset _ hname, List.mem_takeWhile_imp hname, rfl⟩
  | load entries =>
    rw [Automaton.changed] at hq
    split at hq
    · exact Or.inl hq
    · next b hb =>
      obtain ⟨hname, hupper⟩ := (Snapshot.toAutomaton_wellFormed hb).states_canonical q hq
      exact Or.inr ⟨q, names_of_toAutomaton hb ▸ hq, hname, hupper.symm⟩

/-- **A whole history**: every state has a name that one of its changes gave. -/
lemma mem_states_history {history : List Change}
    (hq : q ∈ (history.foldl changed ({} : Automaton)).states) :
    ∃ name ∈ history.flatMap Change.names, isStateName name = true ∧ q = Text.upper name := by
  suffices hfrom : ∀ a : Automaton, q ∈ (history.foldl changed a).states → q ∈ a.states ∨
      ∃ name ∈ history.flatMap Change.names, isStateName name = true ∧ q = Text.upper name from
    (hfrom {} hq).resolve_left List.not_mem_nil
  clear hq
  intro a hq
  induction history generalizing a with
  | nil => exact Or.inl hq
  | cons change rest ih =>
    rw [List.flatMap_cons]
    rcases ih (a.changed change) hq with hq | ⟨name, hname, h⟩
    · exact (mem_states_changed hq).imp_right fun ⟨name, hname, h⟩ =>
        ⟨name, List.mem_append_left _ hname, h⟩
    · exact Or.inr ⟨name, List.mem_append_right _ hname, h⟩

lemma wellFormed_history (history : List Change) :
    (history.foldl changed ({} : Automaton)).WellFormed := by
  have hfrom : ∀ a : Automaton, a.WellFormed → (history.foldl changed a).WellFormed := by
    induction history with
    | nil => exact fun _ ha => ha
    | cons change rest ih => exact fun a ha => ih _ (ha.changed change)
  exact hfrom {} wellFormed_empty

end Automaton

/-! ## What is taken -/

/-- **What the rule for symbols takes**: a letter or digit, or one with a newline behind it. -/
lemma isSymbol_iff_singleton {text : String} :
    isSymbol text = true ↔ ∃ c : Char, c.isAlphanum = true ∧
      (text = String.singleton c ∨ text = String.singleton c ++ "\n") := by
  rw [isSymbol_iff]
  refine exists_congr fun c => and_congr_right fun _ => ?_
  rw [← String.toList_inj, ← String.toList_inj, String.toList_append, String.toList_singleton]
  rfl

/-- **The transition that three texts describe**, or the first refusal among them. -/
lemma Transition.of?_eq (symbol source target : String) :
    Transition.of? symbol source target
      = if ¬ isSymbol symbol then .error (.malformedSymbol symbol)
        else if ¬ isStateName source then .error (.malformedState source)
        else if ¬ isStateName target then .error (.malformedState target)
        else .ok ⟨Text.upper symbol, Text.upper source, Text.upper target⟩ := by
  simp only [Transition.of?, canonicalSymbol, canonicalName]
  by_cases hsymbol : isSymbol symbol <;> by_cases hsource : isStateName source <;>
    by_cases htarget : isStateName target <;>
    simp [hsymbol, hsource, htarget, bind, Except.bind, pure, Except.pure]

namespace Automaton

/-- **What names are stored, and what names are refused.**  After any calls and snapshots, a state
is a run of `A`–`Z` and `0`–`9`, or else its name was given with a newline behind it and still has
it; the initial state, the final states and both ends of a transition are states, and the symbol of
a transition is one such character.  A call is refused for its first name that is not made of
letters and digits with at most one newline behind them, and until then it adds its names in upper
case; and a transition is made of three texts unless one of them is refused so. -/
theorem stored_names (history : List Change) :
    let a := history.foldl changed ({} : Automaton)
    (∀ q ∈ a.states, IsPlainName q ∨
      ∃ name, IsName name ∧ name ++ "\n" ∈ history.flatMap Change.names ∧
        q = Text.upper name ++ "\n") ∧
    (∀ q, a.initial = some q → q ∈ a.states) ∧
    (∀ q ∈ a.finals, q ∈ a.states) ∧
    (∀ t ∈ a.transitions, (∃ c, IsCapital c ∧ t.symbol = String.singleton c) ∧
      t.source ∈ a.states ∧ t.target ∈ a.states) ∧
    (∀ c : Call, c ≠ .clear → ∀ q, q ∈ (a.call c).1.states ↔
      q ∈ a.states ∨ ∃ name ∈ c.stateNames.takeWhile isStateName, q = Text.upper name) ∧
    (∀ c : Call, c.stateNames ≠ [] →
      (a.call c).2 = (c.stateNames.find? (!isStateName ·)).map .malformedState) ∧
    (∀ text, isStateName text = true ↔
      IsName text ∨ ∃ name, IsName name ∧ text = name ++ "\n") ∧
    (∀ text, isSymbol text = true ↔ ∃ c : Char, c.isAlphanum = true ∧
      (text = String.singleton c ∨ text = String.singleton c ++ "\n")) ∧
    (∀ symbol source target, Transition.of? symbol source target
      = if ¬ isSymbol symbol then .error (.malformedSymbol symbol)
        else if ¬ isStateName source then .error (.malformedState source)
        else if ¬ isStateName target then .error (.malformedState target)
        else .ok ⟨Text.upper symbol, Text.upper source, Text.upper target⟩) := by
  intro a
  have hwf : a.WellFormed := wellFormed_history history
  refine ⟨fun q hq => ?_, hwf.initial_mem, hwf.finals_subset, fun t ht => ?_,
    fun c hc q => mem_states_call hc, fun c hc => call_refusal hc,
    fun text => isStateName_iff_isName, fun text => isSymbol_iff_singleton, Transition.of?_eq⟩
  · obtain ⟨text, hgiven, htaken, rfl⟩ := mem_states_history hq
    rcases isStateName_iff_isName.1 htaken with hname | ⟨name, hname, rfl⟩
    · exact Or.inl hname.isPlainName_upper
    · exact Or.inr ⟨name, hname, hgiven, hname.upper_newline⟩
  · obtain ⟨hsymbol, hsource, htarget⟩ := hwf.transitions_declared t ht
    exact ⟨hwf.symbols_plain t.symbol hsymbol, hsource, htarget⟩

/-- A name with a newline behind it is taken, and what is stored is no run of letters and digits. -/
theorem exists_stored_not_isPlainName :
    ∃ a : Automaton, ({} : Automaton).call (.addStates ["a\n"]) = (a, none) ∧
      ∃ q ∈ a.states, ¬ IsPlainName q := by
  refine ⟨_, rfl, "A\n", by decide +kernel, fun h => ?_⟩
  exact h.ne_append_newline "A" rfl

end Automaton

end AutomatonShell
