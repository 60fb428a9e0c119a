import AutomatonShell.Proofs.CompletedRuns
import AutomatonShell.Proofs.ListingReplay

/-!
# What does not depend on the order of declarations

Two automata with the same contents may list them in different orders.  Executing them does not show
the order, since a look-up finds the one transition with its key wherever it stands, so both walk
through the same states.  A listing does not show it either: names have one ascending order, and
transitions have one order by source and symbol, since a key has only one transition.

A listing shows everything else.  It is read back as the sorted automaton (`processAll_listing`), so
automata with the same listing have the same contents.

* `SameContents` — the same names and transitions, in whatever orders.
* `SameContents.run_eq`, `SameContents.listing_eq` — what does not show the order.
* `SameContents.of_listing_eq` — what a listing shows.
* **`listing_eq_iff_sameContents`** — all of it.
-/

namespace AutomatonShell.Automaton

variable {a b : Automaton}

/-- **The same contents**, in whatever orders they were declared. -/
structure SameContents (a b : Automaton) : Prop where
  symbols : ∀ x, x ∈ a.symbols ↔ x ∈ b.symbols
  states : ∀ q, q ∈ a.states ↔ q ∈ b.states
  initial : a.initial = b.initial
  finals : ∀ q, q ∈ a.finals ↔ q ∈ b.finals
  transitions : ∀ t, t ∈ a.transitions ↔ t ∈ b.transitions

/-! ## Runs -/

/-- A look-up finds the same transition. -/
lemma SameContents.transitionFor_eq (h : a.SameContents b) (ha : a.WellFormed) (hb : b.WellFormed)
    (symbol source : String) : a.transitionFor symbol source = b.transitionFor symbol source := by
  ext t
  rw [transitionFor_eq_some ha, transitionFor_eq_some hb, h.transitions]

/-- One character leads to the same state. -/
lemma SameContents.next_eq (h : a.SameContents b) (ha : a.WellFormed) (hb : b.WellFormed)
    (q : String) (c : Char) : a.next q c = b.next q c := by
  have hsymbol : a.hasSymbol (String.singleton c) = b.hasSymbol (String.singleton c) := by
    rw [hasSymbol, hasSymbol, Bool.eq_iff_iff, List.contains_iff_mem, List.contains_iff_mem,
      h.symbols]
  rw [next, next, hsymbol, h.transitionFor_eq ha hb]

/-- A walk visits the same states, by induction on the text. -/
lemma SameContents.visits_eq (h : a.SameContents b) (ha : a.WellFormed) (hb : b.WellFormed)
    (q : String) (text : List Char) : a.visits q text = b.visits q text := by
  induction text generalizing q with
  | nil => rfl
  | cons c rest ih =>
    rw [visits, visits, h.next_eq ha hb]
    cases b.next q c with
    | error e => rfl
    | ok reached =>
      dsimp only
      rw [ih]

/-- **Executing does not show the order of declarations.** -/
theorem SameContents.run_eq (h : a.SameContents b) (ha : a.WellFormed) (hb : b.WellFormed)
    (text : String) : a.run text = b.run text := by
  have hfinals : a.finals.contains = b.finals.contains := by
    funext q
    rw [Bool.eq_iff_iff, List.contains_iff_mem, List.contains_iff_mem, h.finals]
  have hwalk : a.walk text = b.walk text := by
    rw [walk, walk, h.initial]
    cases b.initial with
    | none => rfl
    | some q =>
      dsimp only
      rw [walkFrom, walkFrom, h.visits_eq ha hb, hfinals]
  rw [run_eq_mapError_walk ha, run_eq_mapError_walk hb, hwalk]

/-! ## Listings -/

/-- As names, and keys of transitions, are listed once, the lists differ in their order only. -/
lemma SameContents.isRearrangementOf (h : a.SameContents b) (ha : a.WellFormed)
    (hb : b.WellFormed) : a.IsRearrangementOf b where
  symbols := (List.perm_ext_iff_of_nodup ha.symbols_nodup hb.symbols_nodup).2 h.symbols
  states := (List.perm_ext_iff_of_nodup ha.states_nodup hb.states_nodup).2 h.states
  initial := h.initial
  finals := (List.perm_ext_iff_of_nodup ha.finals_nodup hb.finals_nodup).2 h.finals
  transitions := (List.perm_ext_iff_of_nodup (List.Nodup.of_map _ ha.keys_nodup)
    (List.Nodup.of_map _ hb.keys_nodup)).2 h.transitions

/-- **Names have one ascending order.** -/
lemma sorted_congr {xs ys : List String} (h : xs.Perm ys) : sorted xs = sorted ys := by
  have hpairwise : ∀ names : List String,
      (sorted names).Pairwise fun x y => decide (x ≤ y) = true :=
    List.pairwise_mergeSort (by simpa using fun _ _ _ => le_trans) (by simpa using le_total)
  have hperm : (sorted xs).Perm (sorted ys) :=
    ((sorted_perm xs).trans h).trans (sorted_perm ys).symm
  refine hperm.eq_of_pairwise (fun x y _ _ hxy hyx => ?_) (hpairwise xs) (hpairwise ys)
  exact le_antisymm (of_decide_eq_true hxy) (of_decide_eq_true hyx)

/-- Whether a transition may stand in front of another one in a listing. -/
def Precedes (t u : Transition) : Prop :=
  t.source < u.source ∨ (t.source = u.source ∧ t.symbol ≤ u.symbol)

instance : DecidableRel Precedes := fun t u =>
  inferInstanceAs (Decidable (t.source < u.source ∨ (t.source = u.source ∧ t.symbol ≤ u.symbol)))

lemma precedes_trans {t u v : Transition} (htu : Precedes t u) (huv : Precedes u v) :
    Precedes t v := by
  rcases htu with htu | ⟨htu, htu'⟩ <;> rcases huv with huv | ⟨huv, huv'⟩
  · exact Or.inl (htu.trans huv)
  · exact Or.inl (huv ▸ htu)
  · exact Or.inl (htu ▸ huv)
  · exact Or.inr ⟨htu.trans huv, htu'.trans huv'⟩

lemma precedes_total (t u : Transition) : Precedes t u ∨ Precedes u t := by
  rcases lt_trichotomy t.source u.source with hlt | heq | hgt
  · exact Or.inl (Or.inl hlt)
  · rcases le_total t.symbol u.symbol with hle | hle
    · exact Or.inl (Or.inr ⟨heq, hle⟩)
    · exact Or.inr (Or.inr ⟨heq.symm, hle⟩)
  · exact Or.inr (Or.inl hgt)

/-- Transitions that may stand in front of each other have the same key. -/
lemma key_eq_of_precedes {t u : Transition} (htu : Precedes t u) (hut : Precedes u t) :
    t.key = u.key := by
  have hsource : t.source = u.source := by
    rcases htu with htu | ⟨htu, -⟩
    · rcases hut with hut | ⟨hut, -⟩
      · exact absurd hut htu.asymm
      · exact hut.symm
    · exact htu
  have hsymbol : t.symbol = u.symbol :=
    le_antisymm (htu.resolve_left (hsource ▸ lt_irrefl _)).2
      (hut.resolve_left (hsource ▸ lt_irrefl _)).2
  exact Prod.ext hsymbol hsource

/-- The transitions of a listing stand by source, and then by symbol. -/
lemma pairwise_sortedTransitions (a : Automaton) : a.sortedTransitions.Pairwise Precedes := by
  have hpairwise : a.sortedTransitions.Pairwise fun t u => decide (Precedes t u) = true := by
    refine List.pairwise_mergeSort (fun t u v htu huv => ?_) (fun t u => ?_) a.transitions
    · exact decide_eq_true (precedes_trans (of_decide_eq_true htu) (of_decide_eq_true huv))
    · simpa using precedes_total t u
  exact hpairwise.imp of_decide_eq_true

/-- **Transitions have one order in a listing**, since two of them with the same key are the
same. -/
lemma sortedTransitions_congr (ha : a.WellFormed) (h : a.transitions.Perm b.transitions) :
    a.sortedTransitions = b.sortedTransitions := by
  have hperm : a.sortedTransitions.Perm b.sortedTransitions :=
    ((sortedTransitions_perm a).trans h).trans (sortedTransitions_perm b).symm
  refine hperm.eq_of_pairwise (fun t u ht hu htu hut => ?_) (pairwise_sortedTransitions a)
    (pairwise_sortedTransitions b)
  exact List.inj_on_of_nodup_map ha.keys_nodup ((sortedTransitions_perm a).mem_iff.1 ht)
    ((sortedTransitions_perm a).mem_iff.1 (hperm.mem_iff.2 hu)) (key_eq_of_precedes htu hut)

/-- **A listing does not show the order of declarations.** -/
theorem SameContents.listing_eq (h : a.SameContents b) (ha : a.WellFormed) (hb : b.WellFormed) :
    a.listing = b.listing := by
  have hlists := h.isRearrangementOf ha hb
  rw [listing, listing, sorted_congr hlists.symbols, sorted_congr hlists.states, hlists.initial,
    sorted_congr hlists.finals, sortedTransitions_congr ha hlists.transitions]

/-! ## What a listing shows -/

/-- Automata that are the same when they are sorted have the same contents. -/
lemma SameContents.of_overlay_eq
    (h : ({} : Automaton).overlay a = ({} : Automaton).overlay b) : a.SameContents b := by
  have ha := isRearrangementOf_overlay a
  have hb := isRearrangementOf_overlay b
  rw [h] at ha
  exact ⟨fun x => ha.symbols.symm.mem_iff.trans hb.symbols.mem_iff,
    fun q => ha.states.symm.mem_iff.trans hb.states.mem_iff, ha.initial.symm.trans hb.initial,
    fun q => ha.finals.symm.mem_iff.trans hb.finals.mem_iff,
    fun t => ha.transitions.symm.mem_iff.trans hb.transitions.mem_iff⟩

/-- The commands of a listing leave the sorted automaton in a session that has just been started. -/
lemma processAll_listing_start (ha : a.WellFormed) (hplain : ∀ q ∈ a.states, IsPlainName q)
    {commands : List NumberedCommand}
    (hcommands : commands.map Prod.snd = a.listingCommands.map String.ofList) :
    (Session.processAll Session.process (Session.start Config.standard { home := [] })
      commands).state.automaton = ({} : Automaton).overlay a := by
  rw [(Session.processAll_listing ha hplain hcommands rfl).automaton_eq, redeclare_eq ha hplain]
  rfl

/-- **A listing shows everything but the order**, since it is read back. -/
theorem SameContents.of_listing_eq (ha : a.WellFormed) (hb : b.WellFormed)
    (hplain : ∀ q ∈ a.states, IsPlainName q) (hplain' : ∀ q ∈ b.states, IsPlainName q)
    (h : a.listing = b.listing) : a.SameContents b := by
  have hinjective : Function.Injective fun t : List Char => String.ofList (t ++ [separator]) :=
    fun t u htu => List.append_cancel_right (String.ofList_injective htu)
  have hcommands : a.listingCommands = b.listingCommands := by
    rw [Automaton.listing_eq, Automaton.listing_eq] at h
    exact List.map_injective_iff.2 hinjective h
  let commands : List NumberedCommand := a.listingCommands.map fun t => (0, String.ofList t)
  have htexts : commands.map Prod.snd = a.listingCommands.map String.ofList := by
    simp [commands]
  refine SameContents.of_overlay_eq ?_
  rw [← processAll_listing_start ha hplain htexts,
    processAll_listing_start hb hplain' (htexts.trans (by rw [hcommands]))]

/-- **The order of declarations is not seen.**  Automata with the same contents run alike on every
text and are listed alike, and automata that are listed alike have the same contents. -/
theorem listing_eq_iff_sameContents (ha : a.Reachable) (hb : b.Reachable)
    (hplain : ∀ q ∈ a.states, IsPlainName q) (hplain' : ∀ q ∈ b.states, IsPlainName q) :
    (a.listing = b.listing ↔ a.SameContents b) ∧
      (a.SameContents b → ∀ text, a.run text = b.run text) :=
  ⟨⟨SameContents.of_listing_eq ha.wellFormed hb.wellFormed hplain hplain',
    fun h => h.listing_eq ha.wellFormed hb.wellFormed⟩,
    fun h => h.run_eq ha.wellFormed hb.wellFormed⟩

/-- Two automata that were declared in opposite orders: their tables differ, their listings and
runs do not. -/
theorem listing_eq_iff_sameContents_of_reversed :
    let a : Automaton :=
      { symbols := ["0", "1"], states := ["A", "B"], initial := some "A", finals := ["B", "A"],
        transitions := [⟨"0", "A", "B"⟩, ⟨"1", "B", "A"⟩] }
    let b : Automaton :=
      { symbols := ["1", "0"], states := ["B", "A"], initial := some "A", finals := ["A", "B"],
        transitions := [⟨"1", "B", "A"⟩, ⟨"0", "A", "B"⟩] }
    a.Reachable ∧ b.Reachable ∧ Matrix.ofAutomaton a ≠ Matrix.ofAutomaton b ∧
      a.listing = b.listing ∧ a.run "01" = b.run "01" ∧
      b.run "01" = .ok (.completed ["A", "B", "A"] true) := by
  intro a b
  have ha : a.Reachable :=
    (((Automaton.reachable_empty.call (.addSymbols ["01"])).call (.addStates ["a", "b"])).call
      (.addFinalStates ["b", "a"])).call (.addRows [("0", "a", "b"), ("1", "b", "a")])
  have hb : b.Reachable :=
    ((((Automaton.reachable_empty.call (.addSymbols ["10"])).call (.addStates ["b", "a"])).call
      (.setInitialState "a")).call (.addFinalStates ["a", "b"])).call
        (.addRows [("1", "b", "a"), ("0", "a", "b")])
  have hA : IsPlainName "A" := isPlainName_singleton (c := 'A') (Or.inl rfl)
  have hB : IsPlainName "B" := isPlainName_singleton (c := 'B') (Or.inl rfl)
  have hsame : a.SameContents b := by
    constructor <;> simp [a, b, or_comm]
  obtain ⟨hlisting, hrun⟩ := listing_eq_iff_sameContents ha hb (by simpa [a] using ⟨hA, hB⟩)
    (by simpa [b] using ⟨hB, hA⟩)
  exact ⟨ha, hb, by decide, hlisting.2 hsame, hrun hsame "01", by decide⟩

end AutomatonShell.Automaton
