import AutomatonShell.Proofs.Acceptance

/-!
# An automaton from what was declared

Declarations come in any order, repeat themselves, declare states on the way, replace transitions,
and stop in the middle of a list when a name is refused.  What they leave still depends on nothing
but the items that went through, in their order, and it can be read off them field by field.

Two steps lead there.  A call is its items given one at a time (`call_eq_runItems`), so only single
items have to be looked at; and an item that goes through puts its names behind those that were
declared before it (`call_of_declares`), whatever they were.  The run over all calls is then an
induction from the last item.

* `Declarations`, `Declarations.automaton` — lists that may repeat themselves, and the automaton
  they condense to.
* `Item`, `Call.items`, `Item.declares` — single items, and what each of them declares.
* `applied`, `history` — the items that go through.
* **`calls_closed_form`** — the automaton that any calls leave.
-/

namespace AutomatonShell

/-! ## The last of every key -/

/-- The transitions that no later one replaces: for every key the last of them, in the order of
their last insertion. -/
def latest (ts : List Transition) : List Transition := ts.pwFilter fun t u => t.key ≠ u.key

lemma latest_cons_of_pos {t : Transition} {rest : List Transition}
    (h : ∀ u ∈ latest rest, t.key ≠ u.key) : latest (t :: rest) = t :: latest rest :=
  List.pwFilter_cons_of_pos h

lemma latest_cons_of_neg {t : Transition} {rest : List Transition}
    (h : ¬ ∀ u ∈ latest rest, t.key ≠ u.key) : latest (t :: rest) = latest rest :=
  List.pwFilter_cons_of_neg h

lemma latest_append_singleton (ts : List Transition) (t : Transition) :
    latest (ts ++ [t]) = (latest ts).filter (·.key != t.key) ++ [t] := by
  induction ts with
  | nil => exact latest_cons_of_pos (by simp [latest])
  | cons u rest ih =>
    -- what stays in front of `t` is judged as before, unless it has the key of `t`
    have hstays : (∀ v ∈ latest (rest ++ [t]), u.key ≠ v.key) ↔
        u.key ≠ t.key ∧ ∀ v ∈ latest rest, u.key ≠ v.key := by
      rw [ih]
      simp only [List.mem_append, List.mem_filter, List.mem_singleton, bne_iff_ne]
      constructor
      · intro h
        have ht := h t (Or.inr rfl)
        refine ⟨ht, fun v hv he => h v (Or.inl ⟨hv, ?_⟩) he⟩
        exact fun hvt => ht (he.trans hvt)
      · rintro ⟨ht, hrest⟩ v (⟨hv, -⟩ | rfl)
        · exact hrest v hv
        · exact ht
    rw [List.cons_append]
    by_cases hrest : ∀ v ∈ latest rest, u.key ≠ v.key
    · rw [latest_cons_of_pos hrest]
      by_cases ht : u.key = t.key
      · rw [latest_cons_of_neg fun h => (hstays.1 h).1 ht, ih,
          List.filter_cons_of_neg (by simpa using ht)]
      · rw [latest_cons_of_pos (hstays.2 ⟨ht, hrest⟩), ih,
          List.filter_cons_of_pos (by simpa using ht), List.cons_append]
    · rw [latest_cons_of_neg hrest, latest_cons_of_neg fun h => hrest (hstays.1 h).2, ih]

lemma eraseDups_append_singleton (xs : List String) (x : String) :
    (xs ++ [x]).eraseDups = if x ∈ xs then xs.eraseDups else xs.eraseDups ++ [x] := by
  rw [List.eraseDups_append]
  split_ifs with h <;> simp [List.removeAll, List.eraseDups_cons, h]

/-! ## Declarations condensed -/

/-- The symbols in a text: its letters and digits, in upper case. -/
def lettersOf (text : String) : List String :=
  (text.toList.filter Char.isAlphanum).map fun c => String.singleton c.toUpper

/-- What was declared, in order, with everything that was declared again. -/
structure Declarations where
  /-- The symbols. -/
  symbols : List String := []
  /-- The states, whatever declared them. -/
  states : List String := []
  /-- The states that were made the initial one. -/
  initials : List String := []
  /-- The states that were made final. -/
  finals : List String := []
  /-- The transitions that were inserted. -/
  transitions : List Transition := []
  deriving Repr, DecidableEq

namespace Declarations

variable {d : Declarations}

/-- What was declared, with more behind it. -/
def append (d e : Declarations) : Declarations where
  symbols := d.symbols ++ e.symbols
  states := d.states ++ e.states
  initials := d.initials ++ e.initials
  finals := d.finals ++ e.finals
  transitions := d.transitions ++ e.transitions

/-- **The automaton in closed form.**  Symbols, states and final states are listed where they
occur first, the initial state is the last that was made so, or else the first state, and a
transition lasts until one with its key is inserted. -/
def automaton (d : Declarations) : Automaton where
  symbols := d.symbols.eraseDups
  states := d.states.eraseDups
  initial := d.initials.getLast? <|> d.states.head?
  finals := d.finals.eraseDups
  transitions := latest d.transitions

lemma append_empty (d : Declarations) : d.append {} = d := by simp [append]

lemma addSymbolChar_automaton (c : Char) :
    d.automaton.addSymbolChar c
      = (d.append { symbols := lettersOf (String.singleton c) }).automaton := by
  rw [Automaton.addSymbolChar]
  by_cases hc : c.isAlphanum
  · by_cases hold : String.singleton c.toUpper ∈ d.symbols <;>
      simp [automaton, append, lettersOf, eraseDups_append_singleton, hc, hold]
  · simp [append, lettersOf, hc]

lemma addSymbols_automaton (texts : List String) :
    d.automaton.addSymbols texts
      = (d.append { symbols := texts.flatMap lettersOf }).automaton := by
  have hletters : texts.flatMap lettersOf
      = (texts.flatMap String.toList).flatMap fun c => lettersOf (String.singleton c) := by
    rw [List.flatMap_assoc]
    refine List.flatMap_congr fun text _ => ?_
    rw [lettersOf]
    induction text.toList with
    | nil => rfl
    | cons c rest ih =>
      rw [List.flatMap_cons, ← ih]
      by_cases hc : c.isAlphanum <;> simp [lettersOf, hc]
  rw [Automaton.addSymbols, hletters]
  generalize texts.flatMap String.toList = chars
  induction chars generalizing d with
  | nil => rw [List.foldl_nil, List.flatMap_nil, append_empty]
  | cons c rest ih =>
    rw [List.foldl_cons, addSymbolChar_automaton, ih, List.flatMap_cons]
    simp [append]

lemma ensureState_automaton (q : String) :
    d.automaton.ensureState q = (d.append { states := [q] }).automaton := by
  by_cases hold : q ∈ d.states
  · obtain ⟨p, rest, hstates⟩ := List.exists_cons_of_ne_nil (List.ne_nil_of_mem hold)
    rw [Automaton.ensureState_of_mem (by simpa [automaton] using hold)]
    simp only [automaton, append, List.append_nil, eraseDups_append_singleton, if_pos hold]
    rw [hstates]
    rfl
  · rw [Automaton.ensureState_of_not_mem (by simpa [automaton] using hold)]
    simp only [automaton, append, List.append_nil, eraseDups_append_singleton, if_neg hold]
    cases d.initials.getLast? <;> cases d.states <;> simp

lemma setInitial_automaton (q : String) :
    { d.automaton.ensureState q with initial := some q }
      = (d.append { states := [q], initials := [q] }).automaton := by
  rw [ensureState_automaton]
  simp [automaton, append]

lemma ensureFinal_automaton (q : String) :
    d.automaton.ensureFinal q = (d.append { states := [q], finals := [q] }).automaton := by
  rw [Automaton.ensureFinal, ensureState_automaton]
  by_cases hold : q ∈ d.finals <;>
    simp [automaton, append, eraseDups_append_singleton, hold]

lemma insertTransition_automaton (t : Transition) :
    d.automaton.insertTransition t = (d.append { transitions := [t] }).automaton := by
  simp [automaton, append, Automaton.insertTransition, latest_append_singleton]

end Declarations

namespace Automaton

variable {a b : Automaton}

/-! ## Items -/

/-- A single item of a call. -/
inductive Item where
  /-- A text whose characters are symbols. -/
  | symbols (text : String)
  /-- A name for the states. -/
  | state (name : String)
  /-- A name for the initial state. -/
  | initial (name : String)
  /-- A name for the final states. -/
  | final (name : String)
  /-- A transition that was made before. -/
  | transition (t : Transition)
  /-- A transition that is made when its turn comes. -/
  | row (symbol source target : String)
  /-- Everything removed. -/
  | clear
  deriving Repr, DecidableEq

/-- The items of a call. -/
def Call.items : Call → List Item
  | .addSymbols texts => texts.map .symbols
  | .addStates names => names.map .state
  | .setInitialState name => [.initial name]
  | .addFinalStates names => names.map .final
  | .addTransitions transitions => transitions.map .transition
  | .addRows rows => rows.map fun row => .row row.1 row.2.1 row.2.2
  | .clear => [.clear]

/-- The call of a single item. -/
def Item.call : Item → Call
  | .symbols text => .addSymbols [text]
  | .state name => .addStates [name]
  | .initial name => .setInitialState name
  | .final name => .addFinalStates [name]
  | .transition t => .addTransitions [t]
  | .row symbol source target => .addRows [(symbol, source, target)]
  | .clear => .clear

/-- **What an item declares**, if it is not refused.  Names of initial and of final states declare
states as well. -/
def Item.declares : Item → Declarations
  | .symbols text => { symbols := lettersOf text }
  | .state name => { states := [Text.upper name] }
  | .initial name => { states := [Text.upper name], initials := [Text.upper name] }
  | .final name => { states := [Text.upper name], finals := [Text.upper name] }
  | .transition t => { transitions := [t] }
  | .row symbol source target => { transitions := [rowTransition (symbol, source, target)] }
  | .clear => {}

/-- What some items declare, one after the other. -/
def declarations (items : List Item) : Declarations where
  symbols := items.flatMap fun i => i.declares.symbols
  states := items.flatMap fun i => i.declares.states
  initials := items.flatMap fun i => i.declares.initials
  finals := items.flatMap fun i => i.declares.finals
  transitions := items.flatMap fun i => i.declares.transitions

/-- The items behind the last `clear`. -/
def sinceClear (items : List Item) : List Item := items.rtakeWhile (· != .clear)

/-- Items given one at a time, up to the first that is refused. -/
def runItems (a : Automaton) : List Item → Automaton × Option ModelError
  | [] => (a, none)
  | i :: rest =>
    match a.call i.call with
    | (b, some e) => (b, some e)
    | (b, none) => b.runItems rest

/-- The items in front of the first that is refused. -/
def applied (a : Automaton) : List Item → List Item
  | [] => []
  | i :: rest =>
    match a.call i.call with
    | (_, some _) => []
    | (b, none) => i :: b.applied rest

/-- The items that go through when calls follow each other, refused or not. -/
def history (a : Automaton) : List Call → List Item
  | [] => []
  | c :: rest => a.applied c.items ++ (a.call c).1.history rest

/-! ## A call is its items -/

lemma runItems_cons (i : Item) (rest : List Item) :
    a.runItems (i :: rest)
      = match a.call i.call with
        | (b, some e) => (b, some e)
        | (b, none) => b.runItems rest := rfl

lemma runItems_singleton (i : Item) : a.runItems [i] = a.call i.call := by
  rw [runItems_cons]
  rcases a.call i.call with ⟨b, _ | e⟩ <;> rfl

/-- A declaration that goes through a list is its items, if it is so for the first. -/
lemma eq_runItems_of_cons {α : Type} {f : Automaton → List α → Automaton × Option ModelError}
    {item : α → Item} (hnil : ∀ a, f a [] = (a, none))
    (hcons : ∀ a x rest, f a (x :: rest)
      = match a.call (item x).call with
        | (b, some e) => (b, some e)
        | (b, none) => f b rest) (a : Automaton) (xs : List α) :
    f a xs = a.runItems (xs.map item) := by
  induction xs generalizing a with
  | nil => exact hnil a
  | cons x rest ih =>
    rw [hcons, List.map_cons, runItems_cons]
    rcases a.call (item x).call with ⟨b, _ | e⟩
    · exact ih b
    · rfl

/-- **A call is its items**, given one at a time. -/
theorem call_eq_runItems (a : Automaton) (c : Call) : a.call c = a.runItems c.items := by
  cases c with
  | addSymbols texts =>
    refine eq_runItems_of_cons (f := fun a texts => (a.addSymbols texts, none))
      (fun a => rfl) (fun a text rest => ?_) a texts
    simp [call, Item.call, addSymbols]
  | addStates names =>
    refine eq_runItems_of_cons (fun a => rfl) (fun a name rest => ?_) a names
    simp only [call, Item.call, addStates]
    cases canonicalName name <;> rfl
  | setInitialState name => rw [Call.items, runItems_singleton]; rfl
  | addFinalStates names =>
    refine eq_runItems_of_cons (fun a => rfl) (fun a name rest => ?_) a names
    simp only [call, Item.call, addFinalStates]
    cases canonicalName name <;> rfl
  | addTransitions transitions =>
    refine eq_runItems_of_cons (fun a => rfl) (fun a t rest => ?_) a transitions
    simp only [call, Item.call, addTransitions]
    cases a.undeclared? t <;> rfl
  | addRows rows =>
    refine eq_runItems_of_cons (fun a => rfl) (fun a row rest => ?_) a rows
    obtain ⟨symbol, source, target⟩ := row
    simp only [call, Item.call, addRows]
    cases Transition.of? symbol source target with
    | error e => rfl
    | ok t =>
      dsimp only
      rcases a.addTransitions [t] with ⟨b, _ | e⟩ <;> rfl
  | clear => rw [Call.items, runItems_singleton]; rfl

/-! ## One item -/

/-- An item that is refused leaves everything as it was. -/
lemma eq_of_call_refused {i : Item} {e : ModelError} (h : a.call i.call = (b, some e)) : b = a := by
  cases i with
  | symbols text => exact absurd (congrArg Prod.snd h) (by simp [call, Item.call])
  | state name | initial name | final name =>
    simp only [call, Item.call, addStates, setInitialState, addFinalStates] at h
    cases hcanonical : canonicalName name <;> simp_all
  | transition t =>
    simp only [call, Item.call, addTransitions] at h
    cases hundeclared : a.undeclared? t <;> simp_all
  | row symbol source target =>
    simp only [call, Item.call, addRows, addTransitions] at h
    cases hof : Transition.of? symbol source target with
    | error e => simp_all
    | ok t =>
      rw [hof] at h
      cases hundeclared : a.undeclared? t <;> simp_all
  | clear => exact absurd (congrArg Prod.snd h) (by simp [call, Item.call])

lemma canonicalName_cases (name : String) :
    canonicalName name = .ok (Text.upper name) ∨ ∃ e, canonicalName name = .error e := by
  rw [canonicalName]
  split_ifs
  · exact Or.inl rfl
  · exact Or.inr ⟨_, rfl⟩

/-- **One item.**  It goes behind what was declared before. -/
theorem call_of_declares {d : Declarations} {i : Item} (hclear : i ≠ .clear)
    (h : d.automaton.call i.call = (b, none)) : b = (d.append i.declares).automaton := by
  cases i with
  | symbols text =>
    have hb : d.automaton.addSymbols [text] = b := congrArg Prod.fst h
    rw [← hb, Declarations.addSymbols_automaton, List.flatMap_singleton]
    rfl
  | state name =>
    rcases canonicalName_cases name with hname | ⟨e, hname⟩ <;>
      simp only [call, Item.call, addStates, hname, Prod.mk.injEq, reduceCtorEq, and_false] at h
    exact h.1 ▸ Declarations.ensureState_automaton _
  | initial name =>
    rcases canonicalName_cases name with hname | ⟨e, hname⟩ <;>
      simp only [call, Item.call, setInitialState, hname, Prod.mk.injEq, reduceCtorEq, and_false]
        at h
    exact h.1 ▸ Declarations.setInitial_automaton _
  | final name =>
    rcases canonicalName_cases name with hname | ⟨e, hname⟩ <;>
      simp only [call, Item.call, addFinalStates, hname, Prod.mk.injEq, reduceCtorEq, and_false]
        at h
    exact h.1 ▸ Declarations.ensureFinal_automaton _
  | transition t =>
    simp only [call, Item.call, addTransitions] at h
    cases hundeclared : d.automaton.undeclared? t with
    | some e => simp [hundeclared] at h
    | none =>
      obtain rfl : d.automaton.insertTransition t = b := by simpa [hundeclared] using h
      exact Declarations.insertTransition_automaton t
  | row symbol source target =>
    have hrow : d.automaton.addRows [(symbol, source, target)] = (b, none) := h
    obtain ⟨-, rfl⟩ := addRows_singleton_eq.1 hrow
    exact Declarations.insertTransition_automaton _
  | clear => exact absurd rfl hclear

/-! ## All items -/

/-- Items that all go through, one behind the other. -/
lemma runItems_of_declares {d : Declarations} {items : List Item} (hclear : .clear ∉ items)
    (h : d.automaton.runItems items = (b, none)) :
    b = (d.append (declarations items)).automaton := by
  induction items generalizing d with
  | nil =>
    have hempty : d.append (declarations []) = d := Declarations.append_empty d
    rw [hempty]
    exact (congrArg Prod.fst h).symm
  | cons i rest ih =>
    obtain ⟨hi, hrest⟩ := not_or.1 (mt List.mem_cons.2 hclear)
    rw [runItems_cons] at h
    rcases hcall : d.automaton.call i.call with ⟨c, _ | e⟩ <;> rw [hcall] at h
    · obtain rfl := call_of_declares (Ne.symm hi) hcall
      rw [ih hrest h]
      simp [declarations, Declarations.append]
    · cases h

/-- Items that go through leave what was declared since the last `clear`. -/
lemma runItems_applied (items before : List Item) :
    ((declarations (sinceClear before)).automaton.runItems items).1
      = (declarations (sinceClear
          (before ++ (declarations (sinceClear before)).automaton.applied items))).automaton := by
  induction items generalizing before with
  | nil => simp [runItems, applied]
  | cons i rest ih =>
    rw [runItems_cons, applied]
    rcases hcall : (declarations (sinceClear before)).automaton.call i.call with ⟨b, _ | e⟩
    · -- what the item leaves is again in closed form
      obtain rfl : b = (declarations (sinceClear (before ++ [i]))).automaton := by
        rw [sinceClear, List.rtakeWhile_concat, ← sinceClear]
        by_cases hclear : i = .clear
        · subst hclear
          exact (congrArg Prod.fst hcall).symm
        · rw [if_pos (by simpa using hclear), call_of_declares hclear hcall]
          simp [declarations, Declarations.append]
      dsimp only
      rw [ih, List.append_assoc, List.singleton_append]
    · dsimp only
      rw [List.append_nil, eq_of_call_refused hcall]

lemma foldl_call (calls : List Call) (before : List Item) :
    calls.foldl (fun a c => (a.call c).1) (declarations (sinceClear before)).automaton
      = (declarations (sinceClear
          (before ++ (declarations (sinceClear before)).automaton.history calls))).automaton := by
  induction calls generalizing before with
  | nil => simp [history]
  | cons c rest ih =>
    rw [List.foldl_cons, history, call_eq_runItems, runItems_applied, ih, List.append_assoc]

/-- What a call has applied when it stops, and where it stops. -/
lemma exists_rest_of_applied (a : Automaton) (items : List Item) :
    ∃ rest, items = a.applied items ++ rest ∧
      a.runItems (a.applied items) = ((a.runItems items).1, none) ∧
      (rest = [] ∧ (a.runItems items).2 = none ∨
        ∃ i later e, rest = i :: later ∧ (a.runItems items).2 = some e ∧
          (a.runItems items).1.call i.call = ((a.runItems items).1, some e)) := by
  induction items generalizing a with
  | nil => exact ⟨[], rfl, rfl, Or.inl ⟨rfl, rfl⟩⟩
  | cons i later ih =>
    rw [runItems_cons, applied]
    rcases hcall : a.call i.call with ⟨b, _ | e⟩
    · obtain ⟨rest, hitems, happlied, hrest⟩ := ih b
      refine ⟨rest, by rw [List.cons_append, ← hitems], ?_, hrest⟩
      rw [runItems_cons, hcall]
      exact happlied
    · obtain rfl := eq_of_call_refused hcall
      exact ⟨i :: later, rfl, rfl, Or.inr ⟨i, later, e, rfl, rfl, hcall⟩⟩

/-- **An automaton is a function of its history.**  A call applies its items in order, all of them
or those in front of the one it is refused for, and it leaves what the call with just these items
leaves.  After any calls, the automaton is the closed form of the items that were applied since
everything was last removed. -/
theorem calls_closed_form (calls : List Call) :
    (∀ (a : Automaton) (c : Call), ∃ rest, c.items = a.applied c.items ++ rest ∧
      a.runItems (a.applied c.items) = ((a.call c).1, none) ∧
      (rest = [] ∧ (a.call c).2 = none ∨
        ∃ i later e, rest = i :: later ∧ (a.call c).2 = some e ∧
          (a.call c).1.call i.call = ((a.call c).1, some e))) ∧
      calls.foldl (fun a c => (a.call c).1) {}
        = (declarations (sinceClear (history {} calls))).automaton := by
  refine ⟨fun a c => ?_, ?_⟩
  · rw [call_eq_runItems]
    exact exists_rest_of_applied a c.items
  · exact foldl_call calls []

end Automaton

end AutomatonShell
