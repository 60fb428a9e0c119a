import AutomatonShell.Proofs.WellFormed

/-!
# What declarations leave

The declarations of the model, given canonical names that are not declared yet, each of them once.
They are not refused, and put the names behind those that are there, in their order.  Both ways in
which an automaton is built up again, from commands and from a snapshot, come down to these.

* `addSymbols_eq`, `addStates_eq`, `setInitialState_eq`, `addFinalStates_eq`, `addTransitions_eq` —
  the declarations of the model.
* `Transition.of?_self` — a transition with canonical names is made from its own names.
-/

namespace AutomatonShell

lemma isSymbol_singleton {c : Char} (h : IsCapital c) : isSymbol (String.singleton c) = true :=
  isSymbol_iff.2 ⟨c, h.isAlphanum, Or.inl (String.toList_singleton c)⟩

/-- **A transition is made from its own names**, if they are canonical. -/
lemma Transition.of?_self {t : Transition} (hsymbol : isSymbol t.symbol = true)
    (hupper : Text.upper t.symbol = t.symbol) (hsource : IsCanonicalName t.source)
    (htarget : IsCanonicalName t.target) : Transition.of? t.symbol t.source t.target = .ok t := by
  rw [Transition.of?, canonicalSymbol_of_isSymbol hsymbol, hupper, canonicalName_self hsource,
    canonicalName_self htarget]
  rfl

namespace Automaton

variable {a : Automaton}

/-- After the first of some new names is put in, the others are still new. -/
lemma fresh_append_singleton {x : String} {rest names : List String} (hx : x ∉ rest)
    (hfresh : ∀ y ∈ x :: rest, y ∉ names) : ∀ y ∈ rest, y ∉ names ++ [x] := by
  intro y hy hmem
  rcases List.mem_append.1 hmem with hmem | hmem
  · exact hfresh y (List.mem_cons_of_mem x hy) hmem
  · rw [List.mem_singleton.1 hmem] at hy
    exact hx hy

/-! ## Symbols -/

lemma addSymbols_singleton {c : Char} (hc : IsCapital c) (h : String.singleton c ∉ a.symbols) :
    a.addSymbols [String.singleton c]
      = { a with symbols := a.symbols ++ [String.singleton c] } := by
  have hupper : c.toUpper = c := Char.toUpper_eq_of_not_isLower (by simp [hc.isLower_eq_false])
  simp only [addSymbols, List.flatMap_singleton, String.toList_singleton, List.foldl_cons,
    List.foldl_nil, addSymbolChar, hc.isAlphanum, if_true, hupper]
  rw [if_neg (by simpa using h)]

/-- **Symbols added** that are capital letters or digits. -/
theorem addSymbols_eq {symbols : List String} (hnodup : symbols.Nodup)
    (hplain : ∀ x ∈ symbols, ∃ c, IsCapital c ∧ x = String.singleton c)
    (hfresh : ∀ x ∈ symbols, x ∉ a.symbols) :
    a.addSymbols symbols = { a with symbols := a.symbols ++ symbols } := by
  induction symbols generalizing a with
  | nil => simp [addSymbols]
  | cons x rest ih =>
    obtain ⟨hx, hrest⟩ := List.nodup_cons.1 hnodup
    obtain ⟨c, hc, rfl⟩ := hplain x List.mem_cons_self
    have hfirst := addSymbols_singleton hc (hfresh _ List.mem_cons_self)
    have hcons : a.addSymbols (String.singleton c :: rest)
        = (a.addSymbols [String.singleton c]).addSymbols rest := by
      simp [addSymbols]
    rw [hcons, hfirst, ih hrest (fun y hy => hplain y (List.mem_cons_of_mem _ hy))
      (fresh_append_singleton hx hfresh)]
    simp

/-! ## States -/

lemma addStates_singleton {q : String} (h : IsCanonicalName q) :
    a.addStates [q] = (a.ensureState q, none) := by
  rw [addStates, canonicalName_self h]
  rfl

/-- What STATES leaves: new states behind the others, and an initial state if there was none. -/
def withStates (a : Automaton) (states : List String) : Automaton :=
  { a with states := a.states ++ states, initial := a.initial <|> states.head? }

lemma withStates_nil (a : Automaton) : a.withStates [] = a := by simp [withStates]

lemma withStates_cons (a : Automaton) (q : String) (rest : List String) :
    (a.withStates [q]).withStates rest = a.withStates (q :: rest) := by
  cases h : a.initial <;> simp [withStates, h]

/-- **States added** that have canonical names. -/
theorem addStates_eq {states : List String} (hnodup : states.Nodup)
    (hcanonical : ∀ q ∈ states, IsCanonicalName q) (hfresh : ∀ q ∈ states, q ∉ a.states) :
    a.addStates states = (a.withStates states, none) := by
  induction states generalizing a with
  | nil => rw [addStates, withStates_nil]
  | cons q rest ih =>
    obtain ⟨hq, hrest⟩ := List.nodup_cons.1 hnodup
    rw [addStates, canonicalName_self (hcanonical q List.mem_cons_self)]
    dsimp only
    have hensure : a.ensureState q = a.withStates [q] :=
      ensureState_of_not_mem (hfresh q List.mem_cons_self)
    rw [hensure, ih hrest (fun p hp => hcanonical p (List.mem_cons_of_mem q hp))
      (fresh_append_singleton hq hfresh), withStates_cons]

/-- **The initial state set** to a declared state. -/
theorem setInitialState_eq {q : String} (h : IsCanonicalName q) (hmem : q ∈ a.states) :
    a.setInitialState q = ({ a with initial := some q }, none) := by
  rw [setInitialState, canonicalName_self h]
  dsimp only
  rw [ensureState_of_mem hmem]

lemma addFinalStates_singleton {q : String} (h : IsCanonicalName q) :
    a.addFinalStates [q] = (a.ensureFinal q, none) := by
  rw [addFinalStates, canonicalName_self h]
  rfl

lemma ensureFinal_of_not_mem {q : String} (hmem : q ∈ a.states) (h : q ∉ a.finals) :
    a.ensureFinal q = { a with finals := a.finals ++ [q] } := by
  simp only [ensureFinal, ensureState_of_mem hmem]
  rw [if_neg (by simpa using h)]

/-- **Final states added** that are declared. -/
theorem addFinalStates_eq {states : List String} (hnodup : states.Nodup)
    (hcanonical : ∀ q ∈ states, IsCanonicalName q) (hmem : ∀ q ∈ states, q ∈ a.states)
    (hfresh : ∀ q ∈ states, q ∉ a.finals) :
    a.addFinalStates states = ({ a with finals := a.finals ++ states }, none) := by
  induction states generalizing a with
  | nil => simp [addFinalStates]
  | cons q rest ih =>
    obtain ⟨hq, hrest⟩ := List.nodup_cons.1 hnodup
    rw [addFinalStates, canonicalName_self (hcanonical q List.mem_cons_self)]
    dsimp only
    rw [ensureFinal_of_not_mem (hmem q List.mem_cons_self) (hfresh q List.mem_cons_self),
      ih (a := { a with finals := a.finals ++ [q] }) hrest
        (fun p hp => hcanonical p (List.mem_cons_of_mem q hp))
        (fun p hp => hmem p (List.mem_cons_of_mem q hp)) (fresh_append_singleton hq hfresh)]
    simp

/-! ## Transitions -/

/-- Whether everything that a transition refers to is declared. -/
def Declares (a : Automaton) (t : Transition) : Prop :=
  t.symbol ∈ a.symbols ∧ t.source ∈ a.states ∧ t.target ∈ a.states

/-- **Transitions inserted with different keys.**  They stand behind the others in their order, and
the others lose those with the same keys. -/
theorem addTransitions_eq {ts : List Transition} (hkeys : (ts.map Transition.key).Nodup)
    (h : ∀ t ∈ ts, a.Declares t) :
    a.addTransitions ts
      = ({ a with
            transitions := (a.transitions.filter fun t => t.key ∉ ts.map Transition.key) ++ ts },
          none) := by
  induction ts generalizing a with
  | nil => simp [addTransitions]
  | cons t rest ih =>
    obtain ⟨ht, hrest⟩ := List.nodup_cons.1 hkeys
    rw [addTransitions, undeclared?_eq_none.2 (h t List.mem_cons_self)]
    dsimp only
    rw [ih (a := a.insertTransition t) hrest fun u hu => h u (List.mem_cons_of_mem t hu)]
    have hfilter : (a.transitions.filter fun u => u.key ∉ (t :: rest).map Transition.key)
        = (a.transitions.filter fun u => u.key != t.key).filter
            fun u => u.key ∉ rest.map Transition.key := by
      rw [List.filter_filter]
      refine List.filter_congr fun u _ => ?_
      by_cases hu : u.key = t.key <;> simp [hu]
    -- the keys behind it leave the transition that was put in alone
    have hlast : ([t].filter fun u => u.key ∉ rest.map Transition.key) = [t] := by
      rw [List.filter_cons_of_pos (by simpa using ht), List.filter_nil]
    rw [insertTransition, hfilter, List.filter_append, hlast, List.append_assoc,
      List.singleton_append]

end Automaton

end AutomatonShell
