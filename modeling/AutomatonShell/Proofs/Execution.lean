import AutomatonShell.Proofs.Reachable
import AutomatonShell.Proofs.Table

/-!
# Execution through the table agrees with the walk

The walk moves from name to name, execution from column to column.  A state stands in exactly one
column, so the columns that execution visits are the places of the states that the walk visits, and
both stop at the same character for the same reason (`visits_represents`).

* `walk_visits_mem` — a walk never leaves the declared states.
* **`run_represents`** — a run on the table is the walk.
* **`run_eq_walk`** — executing a reachable automaton is walking through it, and how a walk ends.
-/

namespace AutomatonShell

namespace Automaton

variable {a : Automaton}

/-! ## The walk -/

/-- Of a declared symbol and state the transition is found under just these names. -/
lemma transitionFor_singleton (h : a.WellFormed) {q : String} (hq : q ∈ a.states) (c : Char) :
    a.transitionFor (String.singleton c) q
      = a.transitions.find? fun t => t.key == (Text.upper (String.singleton c), q) := by
  rw [transitionFor, (h.states_canonical q hq).2]

/-- What a character leads to is declared. -/
lemma next_mem (h : a.WellFormed) {q reached : String} {c : Char}
    (hnext : a.next q c = .ok reached) : reached ∈ a.states := by
  rw [next] at hnext
  split_ifs at hnext
  split at hnext
  · exact nomatch hnext
  · next t ht =>
    rw [← Except.ok.inj hnext]
    exact (h.transitions_declared t (List.mem_of_find?_eq_some ht)).2.2

/-- What a walk over a whole text begins with: a character that leads somewhere. -/
lemma visits_cons_eq_ok {q : String} {c : Char} {rest : List Char} {trace : List String} :
    a.visits q (c :: rest) = .ok trace ↔
      ∃ reached tail, a.next q c = .ok reached ∧ a.visits reached rest = .ok tail ∧
        trace = q :: tail := by
  rw [visits]
  cases hnext : a.next q c with
  | error e => simp
  | ok reached =>
    cases hrest : a.visits reached rest with
    | error e => simp [Except.map, hrest]
    | ok tail => simp [Except.map, hrest, eq_comm]

/-- **A walk never leaves the declared states.** -/
lemma walk_visits_mem (h : a.WellFormed) {q : String} (hq : q ∈ a.states) {text : List Char}
    {trace : List String} (ht : a.visits q text = .ok trace) : ∀ p ∈ trace, p ∈ a.states := by
  induction text generalizing q trace with
  | nil =>
    rw [visits] at ht
    rw [← Except.ok.inj ht]
    simpa using hq
  | cons c rest ih =>
    obtain ⟨reached, tail, hnext, hrest, rfl⟩ := visits_cons_eq_ok.1 ht
    exact List.forall_mem_cons.2 ⟨hq, ih (next_mem h hnext) hrest⟩

lemma walk_head {q : String} {text : List Char} {trace : List String}
    (ht : a.visits q text = .ok trace) : ∃ tail, trace = q :: tail := by
  cases text with
  | nil => exact ⟨[], (Except.ok.inj ht).symm⟩
  | cons c rest =>
    obtain ⟨-, tail, -, -, htrace⟩ := visits_cons_eq_ok.1 ht
    exact ⟨tail, htrace⟩

/-- A walk over a text and then over another one: the second begins where the first ended. -/
lemma visits_append {q state : String} {before after : List Char} {trace : List String}
    (hbefore : a.visits q before = .ok trace) (hstate : trace.getLast? = some state) :
    a.visits q (before ++ after)
      = (a.visits state after).map fun tail => trace.dropLast ++ tail := by
  induction before generalizing q trace with
  | nil =>
    obtain rfl : [q] = trace := Except.ok.inj hbefore
    obtain rfl : q = state := by simpa using hstate
    rw [List.nil_append]
    cases a.visits q after <;> rfl
  | cons c rest ih =>
    obtain ⟨reached, tail, hnext, hrest, rfl⟩ := visits_cons_eq_ok.1 hbefore
    obtain ⟨last, rfl⟩ := walk_head hrest
    simp only [List.cons_append, visits, hnext]
    rw [ih hrest (by simpa using hstate)]
    cases a.visits state after <;> rfl

/-- **Where a walk stops.**  It stops at the first character that leads nowhere, after a part that
it walked to its end. -/
lemma visits_eq_error {q : String} {text : List Char} {e : RunError}
    (h : a.visits q text = .error e) :
    ∃ before c after trace state, text = before ++ c :: after ∧ a.visits q before = .ok trace ∧
      trace.getLast? = some state ∧ a.next state c = .error e := by
  induction text generalizing q with
  | nil => exact nomatch h
  | cons c rest ih =>
    rw [visits] at h
    cases hnext : a.next q c with
    | error e' =>
      simp only [hnext, Except.error.injEq] at h
      exact ⟨[], c, rest, [q], q, rfl, rfl, rfl, by rw [hnext, h]⟩
    | ok reached =>
      cases hrest : a.visits reached rest with
      | ok tail => simp [hnext, hrest, Except.map] at h
      | error e' =>
        simp only [hnext, hrest, Except.map, Except.error.injEq] at h
        subst h
        obtain ⟨before, d, after, trace, state, rfl, htrace, hstate, hd⟩ := ih hrest
        obtain ⟨tail, rfl⟩ := walk_head htrace
        refine ⟨c :: before, d, after, q :: reached :: tail, state, rfl, ?_, ?_, hd⟩
        · exact visits_cons_eq_ok.2 ⟨reached, _, hnext, htrace, rfl⟩
        · simpa using hstate

/-- Why a character leads nowhere: it is no declared symbol, or it is one without a transition. -/
lemma next_eq_error {q : String} {c : Char} {e : RunError} :
    a.next q c = .error e ↔
      (Text.upper (String.singleton c) ∉ a.symbols ∧ e = .invalidSymbol c) ∨
      (Text.upper (String.singleton c) ∈ a.symbols ∧
        a.transitionFor (String.singleton c) q = none ∧ e = .noTransition c q) := by
  rw [next, hasSymbol]
  by_cases hsymbol : Text.upper (String.singleton c) ∈ a.symbols
  · cases a.transitionFor (String.singleton c) q <;> simp [hsymbol, eq_comm]
  · simp [hsymbol, eq_comm]

end Automaton

/-! ## The simulation -/

namespace Matrix

variable {m : Matrix} {a : Automaton}

/-- **One simulation for whole texts**, by induction on the text: the columns visited from the
column of a state are the columns of the states that the walk visits from it. -/
theorem visits_represents (hm : m.Represents a) (h : a.WellFormed) {q : String}
    (hq : q ∈ a.states) (text : List Char) :
    m.visits (a.states.idxOf q) text
      = some ((a.visits q text).map fun trace => trace.map a.states.idxOf) := by
  induction text generalizing q with
  | nil => rfl
  | cons c rest ih =>
    have hcolumn : a.states[a.states.idxOf q]? = some q := List.getElem?_idxOf hq
    rw [Matrix.visits, Automaton.visits, Automaton.next, Automaton.hasSymbol, hm.symbols_eq,
      hm.states_eq]
    by_cases hsymbol : Text.upper (String.singleton c) ∈ a.symbols
    · have hcell := hm.cell_eq _ _ (List.getElem?_idxOf hsymbol) _ q hcolumn
      rw [cellOf, ← Automaton.transitionFor_singleton h hq c] at hcell
      rw [idxOf?_of_mem hsymbol]
      dsimp only
      rw [hcell]
      cases ht : a.transitionFor (String.singleton c) q with
      | none =>
        simp only [Option.bind_eq_bind, Option.bind_some, if_pos, hcolumn, hsymbol,
          List.contains_eq_mem, decide_true, Bool.not_true, Bool.false_eq_true, if_false]
        rfl
      | some t =>
        have htarget : t.target ∈ a.states :=
          (h.transitions_declared t (List.mem_of_find?_eq_some ht)).2.2
        -- an index is never the mark for no transition
        have hne : ¬ ((a.states.idxOf t.target : Nat) : Int) = noTransition := by
          rw [noTransition]
          omega
        simp only [Option.bind_eq_bind, Option.bind_some, if_neg hne, hsymbol,
          List.contains_eq_mem, decide_true, Bool.not_true, Bool.false_eq_true, if_false]
        show ((Int.toNat? (a.states.idxOf t.target : Nat)).bind fun column =>
          (m.visits column rest).bind fun visited => _) = _
        rw [show Int.toNat? ((a.states.idxOf t.target : Nat) : Int)
          = some (a.states.idxOf t.target) from rfl, Option.bind_some, ih htarget]
        cases a.visits t.target rest <;> rfl
    · rw [List.idxOf?_eq_none_iff.2 hsymbol]
      simp [hsymbol, Except.map]

lemma mapM_columns {states trace : List String} (h : ∀ p ∈ trace, p ∈ states) :
    (trace.map states.idxOf).mapM (states[·]?) = some trace := by
  induction trace with
  | nil => rfl
  | cons p rest ih =>
    rw [List.map_cons, List.mapM_cons, List.getElem?_idxOf (h p List.mem_cons_self),
      ih fun r hr => h r (List.mem_cons_of_mem p hr)]
    rfl

/-- **A run on the table is the walk**: no look-up falls outside the table, and the outcome is the
one that the walk has. -/
theorem run_represents (hm : m.Represents a) (h : a.WellFormed) {q : String}
    (hq : a.initial = some q) (text : String) :
    m.run text = some (a.walkFrom q text.toList) := by
  have hmem : q ∈ a.states := h.initial_mem q hq
  have hinitial : m.initialIndex = a.states.idxOf q :=
    (idxOf_of_getElem? h.states_nodup (hm.initial_eq ▸ hq)).symm
  rw [Matrix.run, hinitial, visits_represents hm h hmem, Automaton.walkFrom]
  cases htrace : a.visits q text.toList with
  | error e => rfl
  | ok trace =>
    have hall := Automaton.walk_visits_mem h hmem htrace
    obtain ⟨tail, rfl⟩ := Automaton.walk_head htrace
    obtain ⟨last, hlast⟩ : ∃ last, (q :: tail).getLast? = some last :=
      ⟨_, List.getLast?_cons⟩
    have hlastmem : last ∈ a.states := hall last (List.mem_of_getLast? hlast)
    have hmark := hm.mask_eq _ last (List.getElem?_idxOf hlastmem)
    have hcolumn : ((q :: tail).map a.states.idxOf).getLast? = some (a.states.idxOf last) := by
      rw [List.getLast?_map, hlast]
      rfl
    simp only [Except.map, Option.bind_eq_bind, Option.bind_some, hm.states_eq,
      mapM_columns hall, hcolumn, hmark, hlast, Option.any_some]

end Matrix

/-! ## Execution -/

namespace Automaton

/-- **Executing a reachable automaton is walking through it.**  With an initial state there is a
table, no look-up on it fails, and the run is the walk from the initial state.  A walk to the end
visits one state more than the text has characters, the initial state first, and accepts exactly if
the last one is final.  A walk that stops does so at the first character that is no declared symbol
or, failing that, has no transition; what stands behind this character does not matter. -/
theorem run_eq_walk {a : Automaton} (h : a.Reachable) {q : String} (hq : a.initial = some q)
    (text : String) :
    (∃ m, Matrix.ofAutomaton a = .ok m ∧ m.run text = some (a.walkFrom q text.toList)) ∧
      a.run text = .ok (a.walkFrom q text.toList) ∧
      (∀ trace accepted, a.walkFrom q text.toList = .completed trace accepted →
        trace.length = text.length + 1 ∧ trace.head? = some q ∧
          ∃ last, trace.getLast? = some last ∧ (accepted = true ↔ last ∈ a.finals)) ∧
      (∀ e, a.walkFrom q text.toList = .stopped e →
        ∃ before c after trace state, text.toList = before ++ c :: after ∧
          a.visits q before = .ok trace ∧ trace.getLast? = some state ∧
          ((Text.upper (String.singleton c) ∉ a.symbols ∧ e = .invalidSymbol c) ∨
            (Text.upper (String.singleton c) ∈ a.symbols ∧
              a.transitionFor (String.singleton c) state = none ∧ e = .noTransition c state)) ∧
          ∀ rest, a.walkFrom q (before ++ c :: rest) = .stopped e) := by
  have hwf := h.wellFormed
  obtain ⟨m, hm, hrep⟩ := Matrix.ofAutomaton_represents hwf hq
  have hrun := Matrix.run_represents hrep hwf hq text
  refine ⟨⟨m, hm, hrun⟩, ?_, ?_, ?_⟩
  · rw [Automaton.run, hm]
    dsimp only
    rw [hrun]
  · intro trace accepted hcompleted
    rw [walkFrom] at hcompleted
    split at hcompleted
    · contradiction
    · next visited hvisited =>
      obtain ⟨rfl, rfl⟩ := Run.completed.inj hcompleted
      obtain ⟨tail, rfl⟩ := walk_head hvisited
      refine ⟨by rw [length_visits hvisited, String.length_toList], rfl, _, List.getLast?_cons, ?_⟩
      simp [List.getLast?_cons]
  · intro e hstopped
    rw [walkFrom] at hstopped
    split at hstopped
    · next e' he =>
      obtain rfl := Run.stopped.inj hstopped
      obtain ⟨before, c, after, trace, state, htext, htrace, hstate, hnext⟩ := visits_eq_error he
      refine ⟨before, c, after, trace, state, htext, htrace, hstate, next_eq_error.1 hnext, ?_⟩
      intro rest
      rw [walkFrom, visits_append htrace hstate, visits, hnext]
      rfl
    · contradiction

/-- A run to the end, and one that stops although a character that is no symbol is still to come. -/
theorem run_eq_walk_of_two_states :
    let a : Automaton :=
      { symbols := ["0"], states := ["A", "B"], initial := some "A", finals := ["B"],
        transitions := [⟨"0", "A", "B"⟩] }
    a.Reachable ∧ a.run "0" = .ok (.completed ["A", "B"] true) ∧
      a.run "00!" = .ok (.stopped (.noTransition '0' "B")) := by
  intro a
  have ha : a.Reachable :=
    (((reachable_empty.call (.addSymbols ["0"])).call (.addStates ["a", "b"])).call
      (.addFinalStates ["b"])).call (.addRows [("0", "a", "b")])
  refine ⟨ha, ?_, ?_⟩
  · exact (run_eq_walk ha rfl "0").2.1.trans (by decide +kernel)
  · exact (run_eq_walk ha rfl "00!").2.1.trans (by decide +kernel)

end Automaton

end AutomatonShell
