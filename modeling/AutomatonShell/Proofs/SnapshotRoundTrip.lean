import AutomatonShell.Proofs.Overlay
import AutomatonShell.Proofs.Reachable
import AutomatonShell.Proofs.StoredTexts

/-!
# Snapshots are restored

A well-formed automaton comes back from the arrays of its snapshot, also after their elements went
through bytes of fixed width.  Restoring checks the arrays first and then declares everything anew.
What the checks ask for is part of being well formed, and so is what the declarations need.

Two things come back in another way than they were declared.  The initial state is the first state
until it is set, which makes no difference in the end; and final states come back sorted.

* `build_labels` — the declarations.
* **`toAutomaton_arrays`** — the arrays of a snapshot are restored.
* **`toAutomaton_stored_arrays`** — the same after storing them, for every reachable automaton.
-/

namespace AutomatonShell

namespace Snapshot

open Archive Automaton

variable {a : Automaton}

/-! ## Labels -/

lemma labels_texts (shape : List Nat) (values : List String) :
    (NdArray.texts shape values).labels = values.map Label.text := by
  simp [NdArray.labels, NdArray.texts, Element.label]

lemma labelsOf_texts (shape : List Nat) (values : List String) :
    labelsOf (.texts shape values) = .ok (values.map Label.text) := by
  rw [labelsOf, labels_texts, if_neg]
  simp [Label.isBeyond]

lemma filterMap_text? (values : List String) :
    (values.map Label.text).filterMap Label.text? = values := by
  rw [List.filterMap_map]
  exact List.filterMap_some

lemma text_injective : Function.Injective Label.text := fun _ _ h => Label.text.inj h

/-! ## Declarations -/

lemma declareStates_labels (hnodup : a.states.Nodup)
    (hcanonical : ∀ q ∈ a.states, IsCanonicalName q) (b : Automaton) (hb : b.states = []) :
    Snapshot.declareStates b (a.states.map Label.text) = .ok (b.withStates a.states) := by
  have hall : ∀ l ∈ a.states.map Label.text, l.text?.isSome = true := by
    intro l hl
    obtain ⟨q, -, rfl⟩ := List.mem_map.1 hl
    rfl
  have htake : (a.states.map Label.text).takeWhile (·.text?.isSome) = a.states.map Label.text :=
    List.takeWhile_eq_self_iff.2 hall
  have hdrop : (a.states.map Label.text).dropWhile (·.text?.isSome) = [] :=
    List.dropWhile_eq_nil_iff.2 hall
  rw [Snapshot.declareStates, htake, hdrop, filterMap_text?,
    addStates_eq hnodup hcanonical (by simp [hb])]
  rfl

/-- The labels of a transition in its row. -/
def rowLabels (t : Transition) : Label × Label × Label :=
  (.text t.symbol, .text t.source, .text t.target)

lemma rows_flatMap (ts : List Transition) :
    rows ((ts.flatMap fun t => [t.symbol, t.source, t.target]).map Label.text)
      = ts.map rowLabels := by
  induction ts with
  | nil => rfl
  | cons t rest ih =>
    rw [List.map_cons, ← ih]
    rfl

/-- Transitions with different keys are declared row by row, in their order. -/
lemma declareRows_labels {b : Automaton} {ts : List Transition}
    (hkeys : ((b.transitions ++ ts).map Transition.key).Nodup) (h : ∀ t ∈ ts, b.Declares t)
    (hof : ∀ t ∈ ts, Transition.of? t.symbol t.source t.target = .ok t) :
    declareRows b (ts.map rowLabels) = .ok { b with transitions := b.transitions ++ ts } := by
  induction ts generalizing b with
  | nil => simp [declareRows]
  | cons t rest ih =>
    have hfresh : (b.transitions.filter fun u => u.key ∉ [t].map Transition.key)
        = b.transitions := by
      refine List.filter_eq_self.2 fun u hu => ?_
      rw [List.map_append, List.nodup_append] at hkeys
      have hne := hkeys.2.2 _ (List.mem_map_of_mem hu) _ (List.mem_map_of_mem List.mem_cons_self)
      simpa using hne
    have hrow : b.addRows [(t.symbol, t.source, t.target)]
        = ({ b with transitions := b.transitions ++ [t] }, none) := by
      rw [addRows, hof t List.mem_cons_self]
      dsimp only
      rw [addTransitions_eq (by simp) (by simpa using h t List.mem_cons_self), hfresh]
      rfl
    have hstep : declareRows b ((t :: rest).map rowLabels)
        = declareRows { b with transitions := b.transitions ++ [t] } (rest.map rowLabels) := by
      show (do
        let b ← declared (b.addRows [(t.symbol, t.source, t.target)])
        declareRows b (rest.map rowLabels)) = _
      rw [hrow]
      rfl
    rw [hstep, ih]
    · simp
    · simpa using hkeys
    · exact fun u hu => h u (List.mem_cons_of_mem t hu)
    · exact fun u hu => hof u (List.mem_cons_of_mem t hu)

/-- A transition of a well-formed automaton is made from its own names. -/
lemma of?_of_mem (h : a.WellFormed) :
    ∀ t ∈ a.transitions, Transition.of? t.symbol t.source t.target = .ok t := by
  intro t ht
  obtain ⟨hsymbol, hsource, htarget⟩ := h.transitions_declared t ht
  obtain ⟨c, hc, hsingle⟩ := h.symbols_plain _ hsymbol
  have hplain := isPlainName_singleton hc
  rw [← hsingle] at hplain
  exact Transition.of?_self (hsingle ▸ isSymbol_singleton hc) hplain.upper
    (h.states_canonical _ hsource) (h.states_canonical _ htarget)

/-- Final states and transitions are declared over everything else. -/
lemma declareFinals_rows (h : a.WellFormed) (shape : List Nat) {b : Automaton}
    (hb : b = { symbols := a.symbols, states := a.states, initial := a.initial }) :
    (do let b ← declared (b.addFinalStates (sorted a.finals))
        declareRows b (rows (← labelsOf (.texts shape
          (a.transitions.flatMap fun t : Transition => [t.symbol, t.source, t.target])))))
      = .ok { a with finals := sorted a.finals } := by
  subst hb
  have hmem : ∀ q ∈ sorted a.finals, q ∈ a.states := by
    intro q hq
    exact h.finals_subset q (mem_sorted.1 hq)
  have hfinals : ({ symbols := a.symbols, states := a.states, initial := a.initial } :
      Automaton).addFinalStates (sorted a.finals)
        = ({ symbols := a.symbols, states := a.states, initial := a.initial,
             finals := sorted a.finals }, none) :=
    addFinalStates_eq (sorted_nodup h.finals_nodup) (fun q hq => h.states_canonical q (hmem q hq))
      hmem (fun q _ => by simp)
  rw [hfinals, labelsOf_texts]
  show declareRows _ (rows _) = _
  rw [rows_flatMap]
  exact declareRows_labels h.keys_nodup h.transitions_declared (of?_of_mem h)

/-- **Everything declared anew** from the labels of a well-formed automaton. -/
theorem build_labels (h : a.WellFormed) (shape : List Nat) :
    build (a.symbols.map Label.text) (a.states.map Label.text)
        (a.initial.toList.map Label.text) ((sorted a.finals).map Label.text)
        (.texts shape (a.transitions.flatMap fun t => [t.symbol, t.source, t.target]))
      = .ok { a with finals := sorted a.finals } := by
  have hcanonical : ∀ q ∈ a.states, IsCanonicalName q := h.states_canonical
  have hsymbols : ({} : Automaton).addSymbols a.symbols = { symbols := a.symbols } := by
    rw [addSymbols_eq h.symbols_nodup h.symbols_plain (by simp)]
    rfl
  simp only [build, filterMap_text?, hsymbols]
  rw [declareStates_labels h.states_nodup hcanonical _ rfl]
  cases hq : a.initial with
  | none =>
    -- there are no states either, so none has become the initial state
    have hnil := h.initial_eq_none_iff.1 hq
    have hlast := declareFinals_rows h shape
      (b := ({ symbols := a.symbols } : Automaton).withStates a.states) (by rw [hq, hnil]; rfl)
    rw [hq] at hlast
    exact hlast
  | some q =>
    have hmem : q ∈ a.states := h.initial_mem q hq
    show (do
      let b ← declared
        ((({ symbols := a.symbols } : Automaton).withStates a.states).setInitialState q)
      let b ← declared (b.addFinalStates (sorted a.finals))
      declareRows b (rows (← labelsOf _))) = _
    rw [setInitialState_eq (hcanonical q hmem) (by simpa [withStates] using hmem)]
    have hlast := declareFinals_rows h shape
      (b := { ({ symbols := a.symbols } : Automaton).withStates a.states with
                initial := a.initial }) rfl
    rw [hq] at hlast
    exact hlast

/-! ## Checks -/

/-- **The arrays of a snapshot are restored**, for every well-formed automaton. -/
theorem toAutomaton_arrays (h : a.WellFormed) :
    toAutomaton ((arrays a).map fun (name, x) => (name, .array x))
      = .ok { a with finals := sorted a.finals } := by
  have hfinals : ∀ q ∈ sorted a.finals, q ∈ a.states :=
    fun q hq => h.finals_subset q (mem_sorted.1 hq)
  have hinitial : ¬ 1 < (a.initial.toList.map Label.text).length := by
    cases a.initial <;> simp
  have hnodup : (a.states.map Label.text).Nodup := h.states_nodup.map text_injective
  have hsymbols : (a.symbols.map Label.text).find? (fun s => !isUpperSymbol s) = none := by
    refine List.find?_eq_none.2 fun l hl => ?_
    obtain ⟨x, hx, rfl⟩ := List.mem_map.1 hl
    obtain ⟨c, hc, rfl⟩ := h.symbols_plain x hx
    simp [isUpperSymbol, isSymbol_singleton hc, (isPlainName_singleton hc).upper]
  have hknown : (a.initial.toList.map Label.text ++ (sorted a.finals).map Label.text).find?
      (fun q => !(a.states.map Label.text).contains q) = none := by
    refine List.find?_eq_none.2 fun l hl => ?_
    have hmem : ∃ q ∈ a.states, Label.text q = l := by
      rcases List.mem_append.1 hl with hl | hl
      · obtain ⟨q, hq, rfl⟩ := List.mem_map.1 hl
        exact ⟨q, h.initial_mem q (Option.mem_toList.1 hq), rfl⟩
      · obtain ⟨q, hq, rfl⟩ := List.mem_map.1 hl
        exact ⟨q, hfinals q hq, rfl⟩
    simpa using hmem
  -- every array is found under its name, in the shape that is asked for
  generalize hentries : (arrays a).map (fun (name, x) => (name, Entry.array x)) = entries
  have hformat : checkFormat entries = .ok () := by rw [← hentries]; rfl
  have hrows : rowOf entries "symbols" = .ok (.row a.symbols) ∧
      rowOf entries "states" = .ok (.row a.states) ∧
      rowOf entries "initial_state" = .ok (.row a.initial.toList) ∧
      rowOf entries "final_states" = .ok (.row (sorted a.finals)) := by
    rw [← hentries]
    exact ⟨rfl, rfl, rfl, rfl⟩
  have htable : tableOf entries = .ok (.texts [a.transitions.length, 3]
      (a.transitions.flatMap fun t => [t.symbol, t.source, t.target])) := by
    rw [← hentries]
    rfl
  simp only [toAutomaton, hformat, hrows, htable, NdArray.row, labelsOf_texts, bind, Except.bind]
  rw [if_neg hinitial, if_neg (not_not.2 hnodup), hsymbols]
  dsimp only
  rw [hknown]
  dsimp only
  rw [build_labels h]
  dsimp only
  rw [if_pos rfl]

/-! ## Storing -/

/-- No state name ends in NUL. -/
lemma ne_nul_of_mem_getLast? {q : String} (h : isStateName q = true) :
    ∀ c ∈ q.toList.getLast?, c.toNat ≠ 0 := by
  obtain ⟨name, -, hall, htext⟩ := isStateName_iff.1 h
  intro c hc hzero
  have hc : c = Char.ofNat 0 := by rw [← hzero, Char.ofNat_toNat]
  have hmem : Char.ofNat 0 ∈ q.toList := hc ▸ List.mem_of_getLast? ‹_›
  have hnul : Char.ofNat 0 ∉ name := fun hname => absurd (hall _ hname) (by decide)
  rcases htext with htext | htext <;> rw [htext] at hmem
  · exact hnul hmem
  · rcases List.mem_append.1 hmem with hmem | hmem
    · exact hnul hmem
    · exact absurd (List.mem_singleton.1 hmem) (by decide)

/-- **The arrays of a snapshot are stored as they are.** -/
theorem stored_of_mem_arrays (h : a.WellFormed) : ∀ entry ∈ arrays a, entry.2.stored = entry.2 := by
  have hstates : ∀ q ∈ a.states, ∀ c ∈ q.toList.getLast?, c.toNat ≠ 0 :=
    fun q hq => ne_nul_of_mem_getLast? (h.states_canonical q hq).1
  have hsymbols : ∀ x ∈ a.symbols, ∀ c ∈ x.toList.getLast?, c.toNat ≠ 0 := by
    intro x hx
    obtain ⟨c, hc, rfl⟩ := h.symbols_plain x hx
    exact ne_nul_of_mem_getLast? (isStateName_of_isSymbol (isSymbol_singleton hc))
  intro entry hentry
  simp only [arrays, List.mem_cons, List.not_mem_nil, or_false] at hentry
  rcases hentry with rfl | rfl | rfl | rfl | rfl | rfl | rfl
  · rfl
  · rfl
  · exact NdArray.stored_texts hsymbols
  · exact NdArray.stored_texts hstates
  · exact NdArray.stored_texts fun q hq => hstates q (h.initial_mem q (Option.mem_toList.1 hq))
  · exact NdArray.stored_texts fun q hq => hstates q (h.finals_subset q (mem_sorted.1 hq))
  · refine NdArray.stored_texts fun v hv => ?_
    obtain ⟨t, ht, hv⟩ := List.mem_flatMap.1 hv
    obtain ⟨hsymbol, hsource, htarget⟩ := h.transitions_declared t ht
    simp only [List.mem_cons, List.not_mem_nil, or_false] at hv
    rcases hv with rfl | rfl | rfl
    · exact hsymbols _ hsymbol
    · exact hstates _ hsource
    · exact hstates _ htarget

/-- **Snapshots are restored.**  The arrays of a reachable automaton, with every element as it comes
back from its bytes, are those of an automaton with the same symbols, states, initial state and
transitions, in the same order, and with the same final states. -/
theorem toAutomaton_stored_arrays (h : a.Reachable) :
    ∃ b, toAutomaton ((arrays a).map fun (name, x) => (name, .array x.stored)) = .ok b ∧
      b.symbols = a.symbols ∧ b.states = a.states ∧ b.initial = a.initial ∧
      (∀ q, q ∈ b.finals ↔ q ∈ a.finals) ∧ b.transitions = a.transitions := by
  have hstored : (arrays a).map (fun (name, x) => (name, Entry.array x.stored))
      = (arrays a).map fun (name, x) => (name, .array x) := by
    refine List.map_congr_left fun entry hentry => ?_
    show (entry.1, Entry.array entry.2.stored) = (entry.1, Entry.array entry.2)
    rw [stored_of_mem_arrays h.wellFormed entry hentry]
  refine ⟨{ a with finals := sorted a.finals }, ?_, rfl, rfl, rfl, fun q => mem_sorted, rfl⟩
  rw [hstored, toAutomaton_arrays h.wellFormed]

/-- A snapshot of an automaton whose initial state is not the first one and has a newline behind its
name, after a declaration that was refused part-way. -/
theorem toAutomaton_stored_arrays_of_refused :
    let a : Automaton :=
      { symbols := ["0"], states := ["AB", "C\n"], initial := some "C\n", finals := ["C\n"],
        transitions := [⟨"0", "C\n", "AB"⟩] }
    a.Reachable ∧
      ∃ b, toAutomaton ((arrays a).map fun (name, x) => (name, .array x.stored)) = .ok b ∧
        b.states = ["AB", "C\n"] ∧ b.initial = some "C\n" ∧
        b.transitions = [⟨"0", "C\n", "AB"⟩] := by
  intro a
  have ha : a.Reachable :=
    ((((reachable_empty.call (.addSymbols ["0"])).call (.addStates ["ab", "c\n", "?", "d"])).call
      (.setInitialState "c\n")).call (.addFinalStates ["c\n"])).call (.addRows [("0", "c\n", "ab")])
  obtain ⟨b, hb, -, hstates, hinitial, -, htransitions⟩ := toAutomaton_stored_arrays ha
  exact ⟨ha, b, hb, hstates, hinitial, htransitions⟩

end Snapshot

end AutomatonShell
