import AutomatonShell.Proofs.Execution

/-!
# Runs that read their whole text

A look-up in a well-formed automaton finds the one transition with its key, so what it finds can be
said without the order of the transitions (`transitionFor_eq_some`).  And a run that reads its whole
text is a walk that every character of the text has a part in (`run_eq_completed`).

* **`transitionFor_eq_some`** — which transition a look-up finds.
* **`run_eq_mapError_walk`** — executing a well-formed automaton is walking through it.
* `run_eq_completed`, `mem_symbols_of_visits` — runs that read their whole text.
-/

namespace AutomatonShell.Automaton

variable {a : Automaton}

/-! ## Look-ups -/

/-- **A look-up finds the transition with its key**, wherever it stands. -/
lemma transitionFor_eq_some (h : a.WellFormed) {symbol source : String} {t : Transition} :
    a.transitionFor symbol source = some t ↔
      t ∈ a.transitions ∧ t.key = (Text.upper symbol, Text.upper source) := by
  rw [transitionFor]
  constructor
  · intro ht
    exact ⟨List.mem_of_find?_eq_some ht, by simpa using List.find?_some ht⟩
  · rintro ⟨ht, hkey⟩
    obtain ⟨u, hu⟩ : ∃ u, a.transitions.find?
        (fun v => v.key == (Text.upper symbol, Text.upper source)) = some u :=
      Option.isSome_iff_exists.1 (List.find?_isSome.2 ⟨t, ht, by simpa using hkey⟩)
    have hsame : u.key = t.key := by
      rw [hkey]
      simpa using List.find?_some hu
    rw [hu, List.inj_on_of_nodup_map h.keys_nodup (List.mem_of_find?_eq_some hu) ht hsame]

/-! ## Runs -/

/-- **Executing a well-formed automaton is walking through it**, also when there is nowhere to
start. -/
lemma run_eq_mapError_walk (h : a.WellFormed) (text : String) :
    a.run text = (a.walk text).mapError .model := by
  rw [walk]
  cases hq : a.initial with
  | none =>
    rw [Automaton.run, Matrix.ofAutomaton, hq]
    rfl
  | some q =>
    obtain ⟨m, hm, hrep⟩ := Matrix.ofAutomaton_represents h hq
    rw [Automaton.run, hm]
    dsimp only
    rw [Matrix.run_represents hrep h hq]
    rfl

/-- **A run that reads its whole text** visits the states of a walk from the initial state, and
accepts if the last of them is final. -/
lemma run_eq_completed (h : a.WellFormed) {text : String} {trace : List String} {accepted : Bool} :
    a.run text = .ok (.completed trace accepted) ↔
      ∃ q, a.initial = some q ∧ a.visits q text.toList = .ok trace ∧
        accepted = trace.getLast?.any a.finals.contains := by
  rw [run_eq_mapError_walk h, walk]
  cases a.initial with
  | none => simp [Except.mapError]
  | some q =>
    simp only [Option.some.injEq, exists_eq_left', walkFrom, Except.mapError, Except.ok.injEq]
    cases a.visits q text.toList with
    | error e => simp
    | ok visited =>
      simp only [Run.completed.injEq, Except.ok.injEq]
      exact and_congr_right fun hvisited => by rw [hvisited, eq_comm]

/-- Every character that a walk reads is a declared symbol. -/
lemma mem_symbols_of_visits {q : String} {text : List Char} {trace : List String}
    (h : a.visits q text = .ok trace) :
    ∀ c ∈ text, Text.upper (String.singleton c) ∈ a.symbols := by
  induction text generalizing q trace with
  | nil => simp
  | cons c rest ih =>
    obtain ⟨reached, tail, hnext, hrest, -⟩ := visits_cons_eq_ok.1 h
    refine List.forall_mem_cons.2 ⟨?_, ih hrest⟩
    by_contra hsymbol
    have herror : a.next q c = .error (.invalidSymbol c) :=
      next_eq_error.2 (Or.inl ⟨hsymbol, rfl⟩)
    simp [hnext] at herror

end AutomatonShell.Automaton
