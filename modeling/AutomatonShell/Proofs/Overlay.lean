import AutomatonShell.Automaton.Listing
import AutomatonShell.Proofs.Redeclaring

/-!
# Declaring one automaton over another

The commands of a listing declare an automaton over whatever is declared already.  This file says
what that leaves and what it says, on the level of automata; the text of the commands comes later.

* `Automaton.overlay` — an automaton with another one declared over it.
* **`redeclare_eq`** — declaring everything anew leaves the overlay, and is refused nothing.
* `empty_overlay`, `overlay_self` — an automaton declared over nothing, and over itself.
* `IsRearrangementOf` — the same automaton in other orders.
-/

namespace AutomatonShell

namespace Automaton

variable {a : Automaton}

lemma mem_sorted {x : String} {xs : List String} : x ∈ sorted xs ↔ x ∈ xs := List.mem_mergeSort

lemma sorted_perm (xs : List String) : (sorted xs).Perm xs := List.mergeSort_perm xs _

lemma sorted_nodup {xs : List String} (h : xs.Nodup) : (sorted xs).Nodup :=
  (sorted_perm xs).nodup_iff.2 h

lemma sortedTransitions_perm (a : Automaton) : a.sortedTransitions.Perm a.transitions :=
  List.mergeSort_perm _ _

lemma WellFormed.isPlain (h : a.WellFormed) (hplain : ∀ q ∈ a.states, IsPlainName q) :
    ∀ t ∈ a.sortedTransitions, t.IsPlain := by
  intro t ht
  obtain ⟨hsymbol, hsource, htarget⟩ :=
    h.transitions_declared t ((sortedTransitions_perm a).mem_iff.1 ht)
  exact ⟨h.symbols_plain _ hsymbol, hplain _ hsource, hplain _ htarget⟩

/-- **An automaton with another one declared over it.**  What is not declared yet stands behind what
is, in ascending order; the initial state and the transitions of the other one take precedence. -/
def overlay (b a : Automaton) : Automaton where
  symbols := b.symbols ++ (sorted a.symbols).filter fun x => x ∉ b.symbols
  states := b.states ++ (sorted a.states).filter fun q => q ∉ b.states
  initial := a.initial <|> b.initial
  finals := b.finals ++ (sorted a.finals).filter fun q => q ∉ b.finals
  transitions :=
    (b.transitions.filter fun t => t.key ∉ a.transitions.map Transition.key) ++ a.sortedTransitions

/-- The commands of a listing one after the other, without the text between them. -/
def redeclare (b a : Automaton) : Declaration :=
  (b.declareSymbols (sorted a.symbols)).andThen fun b =>
    (b.declareStates (sorted a.states)).andThen fun b =>
      (Outcome.forEach declareInitial b a.initial.toList).andThen fun b =>
        (b.declareFinals (sorted a.finals)).andThen fun b =>
          b.declareTransitions (Transition.body a.sortedTransitions)

/-- What there is to say when an automaton is declared over another one. -/
def repetitions (b a : Automaton) : List Diagnostic :=
  ((sorted a.symbols).filter fun x => x ∈ b.symbols).map .symbolDeclared
    ++ ((sorted a.states).filter fun q => q ∈ b.states).map .stateDeclared
    ++ ((sorted a.finals).filter fun q => q ∈ b.finals).map .alreadyFinal
    ++ b.replacements a.sortedTransitions

/-- What is put behind the others if it is missing is there afterwards. -/
lemma mem_append_missing {x : String} {names : List String} (h : x ∈ names) (old : List String) :
    x ∈ old ++ (sorted names).filter fun y => y ∉ old := by
  by_cases hold : x ∈ old <;> simp [hold, mem_sorted, h]

/-- INITIAL-STATE behind STATES: the initial state of the listing takes precedence.  If it has none,
it has no states either, and STATES has not chosen one. -/
lemma forEach_declareInitial (h : a.WellFormed) (hplain : ∀ q ∈ a.states, IsPlainName q)
    (b : Automaton) :
    Outcome.forEach declareInitial
        (b.withStates ((sorted a.states).filter fun q => q ∉ b.states)) a.initial.toList
      = .done { b.withStates ((sorted a.states).filter fun q => q ∉ b.states) with
          initial := a.initial <|> b.initial } := by
  cases hq : a.initial with
  | none =>
    have hnil := h.initial_eq_none_iff.1 hq
    have hnone : ((sorted a.states).filter fun q => q ∉ b.states) = [] := by
      simp [hnil, sorted]
    rw [hnone, withStates_nil]
    rfl
  | some q =>
    have hmem : q ∈ a.states := h.initial_mem q hq
    rw [Option.toList_some, Outcome.forEach]
    show (declareInitial _ q).andThen Outcome.done = _
    rw [Outcome.andThen_done, declareInitial_eq (hplain q hmem) (mem_append_missing hmem b.states)]
    rfl

/-- **Declaring everything anew** leaves the overlay, and is refused nothing. -/
theorem redeclare_eq (h : a.WellFormed) (hplain : ∀ q ∈ a.states, IsPlainName q) (b : Automaton) :
    b.redeclare a = { state := b.overlay a, output := b.repetitions a } := by
  have hts := (sortedTransitions_perm a).map Transition.key
  have hkeys : (a.sortedTransitions.map Transition.key).Nodup := hts.nodup_iff.2 h.keys_nodup
  rw [redeclare, declareSymbols_eq (sorted_nodup h.symbols_nodup)
      fun w hw => h.symbols_plain w (mem_sorted.1 hw), Outcome.andThen_of_failure_eq_none rfl]
  dsimp only
  rw [declareStates_eq (sorted_nodup h.states_nodup) fun w hw => hplain w (mem_sorted.1 hw),
    Outcome.andThen_of_failure_eq_none rfl]
  dsimp only
  rw [forEach_declareInitial h hplain { b with symbols := _ }, Outcome.done_andThen,
    declareFinals_eq (sorted_nodup h.finals_nodup)
      (fun w hw => hplain w (h.finals_subset w (mem_sorted.1 hw)))
      fun w hw => mem_append_missing (h.finals_subset w (mem_sorted.1 hw)) b.states,
    Outcome.andThen_of_failure_eq_none rfl]
  dsimp only
  rw [declareTransitions_eq (h.isPlain hplain) ?_ hkeys]
  · simp only [overlay, repetitions, withStates, hts.mem_iff, List.append_assoc]
    rfl
  · intro t ht
    obtain ⟨hsymbol, hsource, htarget⟩ :=
      h.transitions_declared t ((sortedTransitions_perm a).mem_iff.1 ht)
    exact ⟨mem_append_missing hsymbol b.symbols, mem_append_missing hsource b.states,
      mem_append_missing htarget b.states⟩

/-- What there is to say is never an error. -/
lemma severity_of_mem_repetitions {b : Automaton} {d : Diagnostic} (h : d ∈ b.repetitions a) :
    d.severity = .warning := by
  simp only [repetitions, replacements, List.mem_append, List.mem_map, List.mem_flatMap,
    Option.mem_toList, Option.map_eq_some_iff] at h
  rcases h with ((⟨x, -, rfl⟩ | ⟨q, -, rfl⟩) | ⟨q, -, rfl⟩) | ⟨t, -, old, -, rfl⟩
  · rfl
  · rfl
  · rfl
  · rw [replacement]
    split_ifs <;> rfl

/-- Over nothing there is nothing to say. -/
lemma repetitions_empty (a : Automaton) : ({} : Automaton).repetitions a = [] := by
  simp [repetitions, replacements, transitionFor]

/-- **Declared over nothing**, an automaton is sorted. -/
lemma empty_overlay (a : Automaton) :
    ({} : Automaton).overlay a
      = { symbols := sorted a.symbols, states := sorted a.states, initial := a.initial
          finals := sorted a.finals, transitions := a.sortedTransitions } := by
  have hinitial : (a.initial <|> none) = a.initial := by cases a.initial <;> rfl
  simp [overlay, hinitial]

/-- **The same automaton, perhaps in other orders.** -/
structure IsRearrangementOf (b a : Automaton) : Prop where
  symbols : b.symbols.Perm a.symbols
  states : b.states.Perm a.states
  initial : b.initial = a.initial
  finals : b.finals.Perm a.finals
  transitions : b.transitions.Perm a.transitions

lemma isRearrangementOf_overlay (a : Automaton) :
    (({} : Automaton).overlay a).IsRearrangementOf a := by
  rw [empty_overlay]
  exact ⟨sorted_perm _, sorted_perm _, rfl, sorted_perm _, sortedTransitions_perm a⟩

/-- **Declared over itself**, an automaton stays the same. -/
lemma overlay_self (a : Automaton) : (a.overlay a).same a = true := by
  have hself : ∀ xs : List String, ((sorted xs).filter fun x => x ∉ xs) = [] := by
    intro xs
    exact List.filter_eq_nil_iff.2 fun x hx => by simpa using mem_sorted.1 hx
  have hown : (a.transitions.filter fun t => t.key ∉ a.transitions.map Transition.key) = [] :=
    List.filter_eq_nil_iff.2 fun t ht => by simpa using ⟨t, ht, rfl⟩
  have hinitial : (a.initial <|> a.initial) = a.initial := by cases a.initial <;> rfl
  have hts := fun t => (sortedTransitions_perm a).mem_iff (a := t)
  have hoverlay : a.overlay a = { a with transitions := a.sortedTransitions } := by
    rw [overlay, hself, hself, hself, hown, hinitial]
    simp only [List.append_nil, List.nil_append]
  rw [hoverlay]
  simp [same, hts]

end Automaton

end AutomatonShell
