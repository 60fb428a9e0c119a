import AutomatonShell.Proofs.ClosedForm
import AutomatonShell.Proofs.CompletedRuns
import AutomatonShell.Proofs.GivenNames

/-!
# Extending an automaton

Symbols, states, final states and transitions are added to an automaton, in any number of calls that
go through or stop part-way.  As long as no transition of the automaton is replaced, everything that
a run depends on is still there (`Extends`): the tables may differ in their dimensions and in every
index, but a look-up that has found a transition finds it again.  So a run that reads its whole text
visits the same states, and all that can change is the verdict, if its last state was made final.

* `Call.adds`, **`Extends`** — what is added, and what an automaton keeps.
* `Extends.call_item` — the step: one item.
* `Extends.runItems`, `Extends.foldl_call` — all items of a call, and all calls.
* **`run_of_extended`** — runs that read their whole text.
-/

namespace AutomatonShell.Automaton

variable {a b : Automaton} {finals : List String}

/-- The calls that only add something. -/
def Call.adds : Call → Bool
  | .setInitialState _ | .clear => false
  | _ => true

/-- **An automaton kept in another one**, which has made the states `finals` final as well. -/
structure Extends (a : Automaton) (finals : List String) (b : Automaton) : Prop where
  symbols : a.symbols ⊆ b.symbols
  initial : ∀ q, a.initial = some q → b.initial = some q
  finals : ∀ q, q ∈ b.finals ↔ q ∈ a.finals ∨ q ∈ finals
  transitions : a.transitions ⊆ b.transitions

lemma Extends.refl (a : Automaton) : a.Extends [] a :=
  ⟨List.Subset.refl _, fun _ h => h, by simp, List.Subset.refl _⟩

/-! ## One item -/

/-- Adding symbols changes nothing else. -/
lemma exists_addSymbols (a : Automaton) (texts : List String) :
    ∃ symbols, a.addSymbols texts = { a with symbols } := by
  rw [addSymbols]
  generalize texts.flatMap String.toList = chars
  induction chars generalizing a with
  | nil => exact ⟨a.symbols, rfl⟩
  | cons c rest ih =>
    obtain ⟨symbols, hchar⟩ : ∃ symbols, a.addSymbolChar c = { a with symbols } := by
      rw [addSymbolChar]
      split_ifs
      · dsimp only
        split_ifs
        · exact ⟨a.symbols, rfl⟩
        · exact ⟨_, rfl⟩
      · exact ⟨a.symbols, rfl⟩
    rw [List.foldl_cons, hchar]
    exact ih { a with symbols }

lemma Extends.addSymbols (h : a.Extends finals b) (texts : List String) :
    a.Extends finals (b.addSymbols texts) := by
  have hsubset : a.symbols ⊆ (b.addSymbols texts).symbols :=
    fun x hx => mem_symbols_addSymbols.2 (Or.inl (h.symbols hx))
  obtain ⟨symbols, hadded⟩ := exists_addSymbols b texts
  rw [hadded] at hsubset ⊢
  exact ⟨hsubset, h.initial, h.finals, h.transitions⟩

lemma Extends.ensureState (h : a.Extends finals b) (q : String) :
    a.Extends finals (b.ensureState q) := by
  by_cases hold : q ∈ b.states
  · rwa [ensureState_of_mem hold]
  · rw [ensureState_of_not_mem hold]
    refine ⟨h.symbols, fun p hp => ?_, h.finals, h.transitions⟩
    -- a state becomes the initial one only where there is none
    simp [h.initial p hp]

lemma Extends.ensureFinal (h : a.Extends finals b) (q : String) :
    a.Extends (finals ++ [q]) (b.ensureFinal q) := by
  have hstate := h.ensureState q
  have hfinals : ∀ p, p ∈ (b.ensureFinal q).finals ↔ p ∈ a.finals ∨ p ∈ finals ++ [q] := by
    intro p
    rw [mem_finals_ensureFinal_iff, h.finals, List.mem_append, List.mem_singleton, or_assoc]
  rw [Automaton.ensureFinal] at hfinals ⊢
  split_ifs at hfinals ⊢
  · exact ⟨hstate.symbols, hstate.initial, hfinals, hstate.transitions⟩
  · exact ⟨hstate.symbols, hstate.initial, hfinals, hstate.transitions⟩

/-- A transition inserted that replaces none of the first automaton. -/
lemma Extends.insertTransition (h : a.Extends finals b) {t : Transition}
    (hnew : t.key ∉ a.transitions.map Transition.key) :
    a.Extends finals (b.insertTransition t) := by
  refine ⟨h.symbols, h.initial, h.finals, fun u hu => ?_⟩
  have hkey : u.key ≠ t.key := fun he => hnew (he ▸ List.mem_map_of_mem hu)
  exact List.mem_append_left _ (List.mem_filter.2 ⟨h.transitions hu, by simpa using hkey⟩)

/-- **One item added** keeps the automaton. -/
lemma Extends.call_item (h : a.Extends finals b) {i : Item} (hadds : i.call.adds = true)
    {c : Automaton} (hcall : b.call i.call = (c, none))
    (hnew : ∀ t ∈ i.declares.transitions, t.key ∉ a.transitions.map Transition.key) :
    a.Extends (finals ++ i.declares.finals) c := by
  cases i with
  | symbols text =>
    obtain rfl : b.addSymbols [text] = c := congrArg Prod.fst hcall
    simpa [Item.declares] using h.addSymbols [text]
  | state name =>
    rcases canonicalName_cases name with hname | ⟨e, hname⟩ <;>
      simp only [Automaton.call, Item.call, addStates, hname, Prod.mk.injEq, reduceCtorEq,
        and_false] at hcall
    obtain rfl := hcall.1
    simpa [Item.declares] using h.ensureState (Text.upper name)
  | final name =>
    rcases canonicalName_cases name with hname | ⟨e, hname⟩ <;>
      simp only [Automaton.call, Item.call, addFinalStates, hname, Prod.mk.injEq, reduceCtorEq,
        and_false] at hcall
    obtain rfl := hcall.1
    exact h.ensureFinal (Text.upper name)
  | transition t =>
    obtain rfl : b.insertTransition t = c := by
      simp only [Automaton.call, Item.call, addTransitions] at hcall
      cases hundeclared : b.undeclared? t <;> simp_all
    simpa [Item.declares] using h.insertTransition (hnew t (by simp [Item.declares]))
  | row symbol source target =>
    have hrow : b.addRows [(symbol, source, target)] = (c, none) := hcall
    obtain ⟨-, rfl⟩ := addRows_singleton_eq.1 hrow
    simpa [Item.declares] using h.insertTransition (hnew _ (by simp [Item.declares]))
  | initial | clear => exact absurd hadds Bool.false_ne_true

/-! ## All items, all calls -/

/-- **The items of a call**, up to the first that is refused. -/
lemma Extends.runItems (h : a.Extends finals b) {items : List Item}
    (hadds : ∀ i ∈ items, i.call.adds = true)
    (hnew : ∀ t ∈ (declarations (b.applied items)).transitions,
      t.key ∉ a.transitions.map Transition.key) :
    a.Extends (finals ++ (declarations (b.applied items)).finals) (b.runItems items).1 := by
  induction items generalizing b finals with
  | nil => simpa [Automaton.runItems, applied, declarations] using h
  | cons i rest ih =>
    rw [List.forall_mem_cons] at hadds
    rw [applied] at hnew ⊢
    rw [runItems_cons]
    rcases hcall : b.call i.call with ⟨c, _ | e⟩
    · simp only [hcall, declarations, List.flatMap_cons, List.forall_mem_append] at hnew ⊢
      rw [← List.append_assoc]
      exact ih (h.call_item hadds.1 hcall hnew.1) hadds.2 hnew.2
    · obtain rfl := eq_of_call_refused hcall
      simpa [declarations] using h

lemma Call.adds_of_mem_items {c : Call} (h : c.adds = true) :
    ∀ i ∈ c.items, i.call.adds = true := by
  cases c with
  | addSymbols | addStates | addFinalStates | addTransitions | addRows =>
    intro i hi
    obtain ⟨_, -, rfl⟩ := List.mem_map.1 hi
    rfl
  | setInitialState | clear => exact absurd h Bool.false_ne_true

/-- **All calls**, whether they go through or stop part-way. -/
lemma Extends.foldl_call (h : a.Extends finals b) {calls : List Call}
    (hadds : ∀ c ∈ calls, c.adds = true)
    (hnew : ∀ t ∈ (declarations (b.history calls)).transitions,
      t.key ∉ a.transitions.map Transition.key) :
    a.Extends (finals ++ (declarations (b.history calls)).finals)
      (calls.foldl (fun a c => (a.call c).1) b) := by
  induction calls generalizing b finals with
  | nil => simpa [history, declarations] using h
  | cons c rest ih =>
    rw [List.forall_mem_cons] at hadds
    simp only [history, declarations, List.flatMap_append, List.forall_mem_append] at hnew ⊢
    rw [List.foldl_cons, ← List.append_assoc]
    refine ih ?_ hadds.2 hnew.2
    rw [call_eq_runItems]
    exact h.runItems (Call.adds_of_mem_items hadds.1) hnew.1

/-! ## Runs -/

/-- A character that leads somewhere leads there again. -/
lemma Extends.next (h : a.Extends finals b) (ha : a.WellFormed) (hb : b.WellFormed)
    {q reached : String} {c : Char} (hnext : a.next q c = .ok reached) :
    b.next q c = .ok reached := by
  rw [Automaton.next] at hnext ⊢
  split_ifs at hnext with hsymbol
  have hmem : Text.upper (String.singleton c) ∈ b.symbols := by
    refine h.symbols ?_
    simpa [hasSymbol] using hsymbol
  rw [if_neg (by simpa [hasSymbol] using hmem)]
  cases ht : a.transitionFor (String.singleton c) q with
  | none => simp [ht] at hnext
  | some t =>
    obtain ⟨htmem, hkey⟩ := (transitionFor_eq_some ha).1 ht
    rw [ht] at hnext
    rw [(transitionFor_eq_some hb).2 ⟨h.transitions htmem, hkey⟩]
    exact hnext

/-- A walk over a whole text visits the same states again, by induction on the text. -/
lemma Extends.visits (h : a.Extends finals b) (ha : a.WellFormed) (hb : b.WellFormed)
    {q : String} {text : List Char} {trace : List String} (hvisits : a.visits q text = .ok trace) :
    b.visits q text = .ok trace := by
  induction text generalizing q trace with
  | nil => exact hvisits
  | cons c rest ih =>
    obtain ⟨reached, tail, hnext, hrest, htrace⟩ := visits_cons_eq_ok.1 hvisits
    exact visits_cons_eq_ok.2 ⟨reached, tail, h.next ha hb hnext, ih hrest, htrace⟩

/-- **Extending an automaton does not disturb runs that read their whole text.**  After any calls
that add something and replace none of its transitions, such a run visits the same states, and it is
accepted if it was accepted before or its last state was made final. -/
theorem run_of_extended (ha : a.Reachable) {calls : List Call} (hadds : ∀ c ∈ calls, c.adds = true)
    (hnew : ∀ t ∈ (declarations (a.history calls)).transitions,
      t.key ∉ a.transitions.map Transition.key)
    {text : String} {trace : List String} {accepted : Bool}
    (hrun : a.run text = .ok (.completed trace accepted)) :
    (calls.foldl (fun a c => (a.call c).1) a).run text
      = .ok (.completed trace
          (accepted || trace.getLast?.any (declarations (a.history calls)).finals.contains)) := by
  have h := (Extends.refl a).foldl_call hadds hnew
  have hb : (calls.foldl (fun a c => (a.call c).1) a).WellFormed :=
    List.foldlRecOn calls _ ha.wellFormed fun b hb c _ => hb.call c
  rw [List.nil_append] at h
  obtain ⟨q, hq, hvisits, rfl⟩ := (run_eq_completed ha.wellFormed).1 hrun
  refine (run_eq_completed hb).2 ⟨q, h.initial q hq, h.visits ha.wellFormed hb hvisits, ?_⟩
  cases trace.getLast? with
  | none => rfl
  | some p =>
    rw [Option.any_some, Option.any_some, Option.any_some, Bool.eq_iff_iff, Bool.or_eq_true,
      List.contains_iff_mem, List.contains_iff_mem, List.contains_iff_mem, h.finals]

/-- Four calls, two of which stop part-way: a run that was rejected is accepted, since its last
state is made final, and it visits the same states. -/
theorem run_of_extended_by_refused :
    let a : Automaton :=
      { symbols := ["1"], states := ["A", "B"], initial := some "A",
        transitions := [⟨"1", "A", "B"⟩] }
    let calls : List Call :=
      [.addSymbols ["0"], .addStates ["c", "?", "d"], .addRows [("0", "b", "c"), ("0", "c", "d")],
        .addFinalStates ["b"]]
    let b := calls.foldl (fun a c => (a.call c).1) a
    a.Reachable ∧ (∀ c ∈ calls, c.adds = true) ∧
      (declarations (a.history calls)).transitions = [⟨"0", "B", "C"⟩] ∧
      b.states = ["A", "B", "C"] ∧ a.run "1" = .ok (.completed ["A", "B"] false) ∧
      b.run "1" = .ok (.completed ["A", "B"] true) := by
  intro a calls b
  have ha : a.Reachable :=
    ((reachable_empty.call (.addSymbols ["1"])).call (.addStates ["a", "b"])).call
      (.addRows [("1", "a", "b")])
  have hadds : ∀ c ∈ calls, c.adds = true := by decide
  have hadded : (declarations (a.history calls)).transitions = [⟨"0", "B", "C"⟩] := by
    decide +kernel
  have hrun : a.run "1" = .ok (.completed ["A", "B"] false) := by decide +kernel
  have hagain := run_of_extended ha hadds (by rw [hadded]; decide) hrun
  refine ⟨ha, hadds, hadded, by decide +kernel, hrun, hagain.trans ?_⟩
  have hfinals : (declarations (a.history calls)).finals = ["B"] := by decide +kernel
  rw [hfinals]
  rfl

end AutomatonShell.Automaton
