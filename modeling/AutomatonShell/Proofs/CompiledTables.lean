import AutomatonShell.Proofs.DeclarationOrder

/-!
# Reading an automaton back from its table

A table says what an automaton says (`Matrix.Represents`), also in the cells that no run reaches.
Here the converse: nothing of the automaton is lost.  Its final states are those that are marked,
and its transitions are those cells that do not hold the mark for no transition, so automata that
are laid out alike are the same.  The other way round, a table is no larger than it has to be
(`Matrix.HasShape`), so there is only one that says what an automaton says.

* `Matrix.HasShape`, `hasShape_ofAutomaton` — how large the table of an automaton is.
* `Matrix.Represents.cell_eq_transitionFor` — a cell, said with a look-up in the automaton.
* **`Matrix.Represents.mem_transitions_iff`** and its sibling — what the automaton holds, said with
  its table.
* `Matrix.Represents.eq_of_same` — there is only one table of an automaton.
* **`ofAutomaton_exact`** — all of it, for every automaton that histories lead to.
-/

namespace AutomatonShell

namespace Matrix

variable {m m' : Matrix} {a b : Automaton}

/-! ## How large a table is -/

/-- **The shape of a table**: so many rows, and so many columns in each row and in the mask. -/
structure HasShape (m : Matrix) (rows columns : Nat) : Prop where
  table_length : m.table.length = rows
  row_length : ∀ cells ∈ m.table, cells.length = columns
  mask_length : m.finalMask.length = columns

lemma length_of_mem_setCell {table : List (List Int)} {columns row column : Nat} {value : Int}
    (h : ∀ cells ∈ table, cells.length = columns) :
    ∀ cells ∈ setCell table row column value, cells.length = columns := by
  intro cells hcells
  obtain ⟨i, hi⟩ := List.mem_iff_getElem?.1 hcells
  rw [setCell, List.getElem?_modify, Option.map_eq_map, Option.map_eq_some_iff] at hi
  obtain ⟨old, hold, rfl⟩ := hi
  have hlength := h old (List.mem_of_getElem? hold)
  split_ifs
  · rw [List.length_set, hlength]
  · exact hlength

/-- Filling in transitions changes no lengths, by induction on the transitions. -/
lemma length_fill {symbols states : List String} {columns : Nat} {ts : List Transition}
    {table filled : List (List Int)} (hfill : fill symbols states table ts = .ok filled)
    (h : ∀ cells ∈ table, cells.length = columns) :
    filled.length = table.length ∧ ∀ cells ∈ filled, cells.length = columns := by
  induction ts generalizing table with
  | nil =>
    obtain rfl : table = filled := Except.ok.inj hfill
    exact ⟨rfl, h⟩
  | cons t rest ih =>
    rw [fill] at hfill
    obtain ⟨row, -, hfill⟩ := bind_eq_ok.1 hfill
    obtain ⟨column, -, hfill⟩ := bind_eq_ok.1 hfill
    obtain ⟨target, -, hfill⟩ := bind_eq_ok.1 hfill
    obtain ⟨hlength, hcells⟩ := ih hfill (length_of_mem_setCell h)
    exact ⟨by rw [hlength, setCell, List.length_modify], hcells⟩

lemma length_markFinals {states finals : List String} {mask marked : List Bool}
    (h : markFinals states mask finals = .ok marked) : marked.length = mask.length := by
  induction finals generalizing mask with
  | nil =>
    obtain rfl : mask = marked := Except.ok.inj h
    rfl
  | cons q rest ih =>
    rw [markFinals] at h
    obtain ⟨column, -, h⟩ := bind_eq_ok.1 h
    rw [ih h, List.length_set]

/-- **A table has a row for every symbol and a column for every state.** -/
theorem hasShape_ofAutomaton (h : ofAutomaton a = .ok m) :
    m.HasShape a.symbols.length a.states.length := by
  rw [ofAutomaton] at h
  split at h
  · cases h
  · obtain ⟨initial, -, h⟩ := bind_eq_ok.1 h
    obtain ⟨table, hfill, h⟩ := bind_eq_ok.1 h
    obtain ⟨mask, hmark, h⟩ := bind_eq_ok.1 h
    obtain rfl := Except.ok.inj h
    have hblank : ∀ cells ∈ List.replicate a.symbols.length
        (List.replicate a.states.length noTransition), cells.length = a.states.length :=
      fun cells hcells => by rw [List.eq_of_mem_replicate hcells, List.length_replicate]
    obtain ⟨htable, hrows⟩ := length_fill hfill hblank
    exact ⟨by rw [htable, List.length_replicate], hrows,
      by rw [length_markFinals hmark, List.length_replicate]⟩

/-! ## What a table says -/

lemma upper_of_mem_symbols (h : a.WellFormed) {symbol : String} (hs : symbol ∈ a.symbols) :
    Text.upper symbol = symbol := by
  obtain ⟨c, hc, rfl⟩ := h.symbols_plain symbol hs
  exact (isPlainName_singleton hc).upper

/-- **A cell, said with a look-up**: the mark for no transition, or the column of the state that the
transition leads to. -/
lemma Represents.cell_eq_transitionFor (h : m.Represents a) (hwf : a.WellFormed) {row column : Nat}
    {symbol state : String} (hrow : a.symbols[row]? = some symbol)
    (hcolumn : a.states[column]? = some state) :
    m.cell? row column = some (match a.transitionFor symbol state with
      | none => noTransition
      | some t => a.states.idxOf t.target) := by
  have hsymbol := upper_of_mem_symbols hwf (List.mem_of_getElem? hrow)
  have hstate := (hwf.states_canonical state (List.mem_of_getElem? hcolumn)).2
  have hcell := h.cell_eq row symbol hrow column state hcolumn
  rw [cellOf] at hcell
  rw [Automaton.transitionFor, hsymbol, hstate]
  exact hcell

/-- **The transitions are read off the cells**: a transition is one whose cell holds the column of
its target. -/
theorem Represents.mem_transitions_iff (h : m.Represents a) (hwf : a.WellFormed) {t : Transition} :
    t ∈ a.transitions ↔ ∃ row column target : Nat, m.symbols[row]? = some t.symbol ∧
      m.states[column]? = some t.source ∧ m.states[target]? = some t.target ∧
      m.cell? row column = some (target : Int) := by
  rw [h.symbols_eq, h.states_eq]
  constructor
  · intro ht
    obtain ⟨hsymbol, hsource, htarget⟩ := hwf.transitions_declared t ht
    have hfound : a.transitionFor t.symbol t.source = some t := by
      rw [Automaton.transitionFor_eq_some hwf, upper_of_mem_symbols hwf hsymbol,
        (hwf.states_canonical _ hsource).2]
      exact ⟨ht, rfl⟩
    have hrow := List.getElem?_idxOf hsymbol
    have hcolumn := List.getElem?_idxOf hsource
    refine ⟨_, _, _, hrow, hcolumn, List.getElem?_idxOf htarget, ?_⟩
    rw [h.cell_eq_transitionFor hwf hrow hcolumn, hfound]
  · rintro ⟨row, column, target, hrow, hcolumn, htarget, hcell⟩
    rw [h.cell_eq_transitionFor hwf hrow hcolumn] at hcell
    split at hcell
    · -- no column has the mark for no transition
      exact absurd (Option.some.inj hcell) (by rw [noTransition]; omega)
    · next u hu =>
      obtain ⟨hmem, hkey⟩ := (Automaton.transitionFor_eq_some hwf).1 hu
      rw [upper_of_mem_symbols hwf (List.mem_of_getElem? hrow),
        (hwf.states_canonical _ (List.mem_of_getElem? hcolumn)).2] at hkey
      have hindex : a.states.idxOf u.target = a.states.idxOf t.target := by
        rw [idxOf_of_getElem? hwf.states_nodup htarget]
        exact Int.ofNat.inj (Option.some.inj hcell)
      have hsame : u.target = t.target :=
        (List.idxOf_inj (hwf.transitions_declared u hmem).2.2).1 hindex
      obtain ⟨hsymbol, hsource⟩ := Prod.mk.inj hkey
      have htransition : u = t := by
        cases u
        cases t
        simp_all
      exact htransition ▸ hmem

/-- **The final states are those that are marked.** -/
theorem Represents.mem_finals_iff (h : m.Represents a) (hwf : a.WellFormed) {q : String} :
    q ∈ a.finals ↔ ∃ column : Nat, m.states[column]? = some q ∧
      m.finalMask[column]? = some true := by
  rw [h.states_eq]
  constructor
  · intro hq
    have hcolumn := List.getElem?_idxOf (hwf.finals_subset q hq)
    exact ⟨_, hcolumn, by rw [h.mask_eq _ q hcolumn, List.contains_iff_mem.2 hq]⟩
  · rintro ⟨column, hcolumn, hmark⟩
    rw [h.mask_eq column q hcolumn] at hmark
    exact List.contains_iff_mem.1 (Option.some.inj hmark)

/-- No cell holds anything but the mark for no transition or a column. -/
lemma Represents.mem_range (h : m.Represents a) (hwf : a.WellFormed)
    (hshape : m.HasShape a.symbols.length a.states.length) :
    ∀ cells ∈ m.table, ∀ entry ∈ cells, -1 ≤ entry ∧ entry < a.states.length := by
  intro cells hcells entry hentry
  obtain ⟨row, hrow⟩ := List.mem_iff_getElem?.1 hcells
  obtain ⟨column, hcolumn⟩ := List.mem_iff_getElem?.1 hentry
  have hrow' : row < a.symbols.length := by
    rw [← hshape.table_length]
    exact (List.getElem?_eq_some_iff.1 hrow).1
  have hcolumn' : column < a.states.length := by
    rw [← hshape.row_length cells hcells]
    exact (List.getElem?_eq_some_iff.1 hcolumn).1
  have hcell : m.cell? row column = some entry := by
    rw [cell?, hrow, Option.bind_some, hcolumn]
  rw [h.cell_eq_transitionFor hwf (List.getElem?_eq_getElem hrow')
    (List.getElem?_eq_getElem hcolumn')] at hcell
  obtain rfl := Option.some.inj hcell
  split
  · rw [noTransition]
    omega
  · next t ht =>
    have hmem := ((Automaton.transitionFor_eq_some hwf).1 ht).1
    have hlt := List.idxOf_lt_length_of_mem (hwf.transitions_declared t hmem).2.2
    omega

/-! ## Which automata have the same table -/

/-- Being the same is having the same contents, with symbols and states in the same order. -/
lemma same_iff :
    a.same b = true ↔ a.symbols = b.symbols ∧ a.states = b.states ∧ a.SameContents b := by
  simp only [Automaton.same, Bool.and_eq_true, beq_iff_eq, List.all_eq_true,
    List.contains_iff_mem, and_assoc]
  constructor
  · rintro ⟨hsymbols, hstates, hinitial, hfinals, hfinals', hts, hts'⟩
    exact ⟨hsymbols, hstates, fun x => by rw [hsymbols], fun q => by rw [hstates], hinitial,
      fun q => ⟨hfinals q, hfinals' q⟩, fun t => ⟨hts t, hts' t⟩⟩
  · rintro ⟨hsymbols, hstates, hsame⟩
    exact ⟨hsymbols, hstates, hsame.initial, fun q => (hsame.finals q).1,
      fun q => (hsame.finals q).2, fun t => (hsame.transitions t).1,
      fun t => (hsame.transitions t).2⟩

/-- **Automata that a table says alike are the same.** -/
lemma Represents.same (h : m.Represents a) (h' : m.Represents b) (hwf : a.WellFormed)
    (hwf' : b.WellFormed) : a.same b = true := by
  have hsymbols := h.symbols_eq.symm.trans h'.symbols_eq
  have hstates := h.states_eq.symm.trans h'.states_eq
  refine same_iff.2 ⟨hsymbols, hstates, fun x => by rw [hsymbols], fun q => by rw [hstates], ?_,
    fun q => ?_, fun t => ?_⟩
  · rw [h.initial_eq, h'.initial_eq, hstates]
  · rw [h.mem_finals_iff hwf, h'.mem_finals_iff hwf']
  · rw [h.mem_transitions_iff hwf, h'.mem_transitions_iff hwf']

/-- Two tables of the same automaton begin in the same column. -/
lemma Represents.initialIndex_eq (h : m.Represents a) (h' : m'.Represents b) (hwf : a.WellFormed)
    (hq : a.initial.isSome) (hstates : a.states = b.states) (hinitial : a.initial = b.initial) :
    m.initialIndex = m'.initialIndex := by
  obtain ⟨q, hq⟩ := Option.isSome_iff_exists.1 hq
  have hstart := h.initial_eq.symm.trans hq
  have hstart' := h'.initial_eq.symm.trans (hinitial.symm.trans hq)
  rw [← hstates] at hstart'
  rw [← idxOf_of_getElem? hwf.states_nodup hstart, idxOf_of_getElem? hwf.states_nodup hstart']

/-- Two tables of the same automaton have the same cells. -/
lemma Represents.table_eq (h : m.Represents a) (h' : m'.Represents b) (hwf : a.WellFormed)
    (hwf' : b.WellFormed) (hshape : m.HasShape a.symbols.length a.states.length)
    (hshape' : m'.HasShape a.symbols.length a.states.length) (hsymbols : a.symbols = b.symbols)
    (hstates : a.states = b.states) (hcontents : a.SameContents b) : m.table = m'.table := by
  refine List.ext_getElem (hshape.table_length.trans hshape'.table_length.symm)
    fun row hrow hrow' => List.ext_getElem ?_ fun column hcolumn hcolumn' => ?_
  · rw [hshape.row_length _ (List.getElem_mem hrow), hshape'.row_length _ (List.getElem_mem hrow')]
  · obtain ⟨symbol, hsymbol⟩ : ∃ symbol, a.symbols[row]? = some symbol :=
      ⟨_, List.getElem?_eq_getElem (hrow.trans_eq hshape.table_length)⟩
    obtain ⟨state, hstate⟩ : ∃ state, a.states[column]? = some state :=
      ⟨_, List.getElem?_eq_getElem
        (hcolumn.trans_eq (hshape.row_length _ (List.getElem_mem hrow)))⟩
    have hcell := h.cell_eq_transitionFor hwf hsymbol hstate
    have hcell' := h'.cell_eq_transitionFor hwf' (hsymbols ▸ hsymbol) (hstates ▸ hstate)
    rw [← hcontents.transitionFor_eq hwf hwf', ← hstates, ← hcell] at hcell'
    simpa [cell?, hrow, hrow', hcolumn, hcolumn'] using hcell'.symm

/-- Two tables of the same automaton have the same columns marked. -/
lemma Represents.finalMask_eq (h : m.Represents a) (h' : m'.Represents b)
    (hshape : m.HasShape a.symbols.length a.states.length)
    (hshape' : m'.HasShape a.symbols.length a.states.length) (hstates : a.states = b.states)
    (hcontents : a.SameContents b) : m.finalMask = m'.finalMask := by
  refine List.ext_getElem (hshape.mask_length.trans hshape'.mask_length.symm)
    fun column hcolumn hcolumn' => ?_
  obtain ⟨state, hstate⟩ : ∃ state, a.states[column]? = some state :=
    ⟨_, List.getElem?_eq_getElem (hcolumn.trans_eq hshape.mask_length)⟩
  have hmark := h.mask_eq column _ hstate
  have hmark' := h'.mask_eq column _ (hstates ▸ hstate)
  have hboth := fun q => Bool.eq_iff_iff.2 (List.contains_iff_mem.trans
    ((hcontents.finals q).trans List.contains_iff_mem.symm))
  rw [← hboth, ← hmark] at hmark'
  simpa [hcolumn, hcolumn'] using hmark'.symm

/-- **There is only one table of an automaton**: one that says no more and no less, and is no larger
than it has to be. -/
lemma Represents.eq_of_same (h : m.Represents a) (h' : m'.Represents b) (hwf : a.WellFormed)
    (hwf' : b.WellFormed) (hshape : m.HasShape a.symbols.length a.states.length)
    (hshape' : m'.HasShape b.symbols.length b.states.length) (hq : a.initial.isSome)
    (hsame : a.same b = true) : m = m' := by
  obtain ⟨hsymbols, hstates, hcontents⟩ := same_iff.1 hsame
  rw [← hsymbols, ← hstates] at hshape'
  have hindex := h.initialIndex_eq h' hwf hq hstates hcontents.initial
  have htable := h.table_eq h' hwf hwf' hshape hshape' hsymbols hstates hcontents
  have hmask := h.finalMask_eq h' hshape hshape' hstates hcontents
  have hnames := h.states_eq.trans (hstates.trans h'.states_eq.symm)
  have hletters := h.symbols_eq.trans (hsymbols.trans h'.symbols_eq.symm)
  cases m
  cases m'
  rw [Matrix.mk.injEq]
  exact ⟨hnames, hletters, hindex, htable, hmask⟩

end Matrix

/-! ## The result -/

namespace Automaton

/-- **The table of a reachable automaton says exactly what the automaton says.**  With an initial
state there is a table.  It has a row for every symbol and a column for every state, in the order of
their declaration; a cell holds `-1` where there is no transition and otherwise the column of the
state that the transition leads to, and so never anything else; and a column is marked if its state
is final.  Another automaton has the same table exactly if it is the same: with the same symbols and
states in the same order, the same initial state, and the same final states and transitions. -/
theorem ofAutomaton_exact {a : Automaton} (h : a.Reachable) {q : String} (hq : a.initial = some q) :
    ∃ m, Matrix.ofAutomaton a = .ok m ∧ m.symbols = a.symbols ∧ m.states = a.states ∧
      m.HasShape a.symbols.length a.states.length ∧ m.states[m.initialIndex]? = some q ∧
      (∀ (row : Nat) (symbol : String), m.symbols[row]? = some symbol →
        ∀ (column : Nat) (state : String), m.states[column]? = some state →
          ∃ entry, m.cell? row column = some entry ∧
            match a.transitionFor symbol state with
            | none => entry = -1
            | some t => ∃ target : Nat, entry = target ∧ m.states[target]? = some t.target) ∧
      (∀ cells ∈ m.table, ∀ entry ∈ cells, -1 ≤ entry ∧ entry < m.states.length) ∧
      (∀ (column : Nat) (state : String), m.states[column]? = some state →
        m.finalMask[column]? = some (decide (state ∈ a.finals))) ∧
      ∀ b : Automaton, b.Reachable → (Matrix.ofAutomaton b = .ok m ↔ a.same b = true) := by
  have hwf := h.wellFormed
  obtain ⟨m, hm, hrep⟩ := Matrix.ofAutomaton_represents hwf hq
  have hshape := Matrix.hasShape_ofAutomaton hm
  refine ⟨m, hm, hrep.symbols_eq, hrep.states_eq, hshape, ?_, ?_, ?_, ?_, fun b hb => ?_⟩
  · rw [hrep.states_eq, ← hrep.initial_eq, hq]
  · rw [hrep.symbols_eq, hrep.states_eq]
    intro row symbol hrow column state hcolumn
    refine ⟨_, hrep.cell_eq_transitionFor hwf hrow hcolumn, ?_⟩
    cases ht : a.transitionFor symbol state with
    | none => rfl
    | some t =>
      have hmem := ((transitionFor_eq_some hwf).1 ht).1
      exact ⟨_, rfl, List.getElem?_idxOf (hwf.transitions_declared t hmem).2.2⟩
  · rw [hrep.states_eq]
    exact hrep.mem_range hwf hshape
  · rw [hrep.states_eq]
    intro column state hcolumn
    rw [hrep.mask_eq column state hcolumn, List.contains_eq_mem]
  · have hwf' := hb.wellFormed
    constructor
    · intro hm'
      obtain ⟨p, hp⟩ : ∃ p, b.initial = some p := by
        cases hp : b.initial with
        | none =>
          rw [Matrix.ofAutomaton, hp] at hm'
          cases hm'
        | some p => exact ⟨p, rfl⟩
      obtain ⟨m', hm'', hrep'⟩ := Matrix.ofAutomaton_represents hwf' hp
      obtain rfl : m' = m := Except.ok.inj (hm''.symm.trans hm')
      exact hrep.same hrep' hwf hwf'
    · intro hsame
      have hp : b.initial = some q := (Matrix.same_iff.1 hsame).2.2.initial ▸ hq
      obtain ⟨m', hm', hrep'⟩ := Matrix.ofAutomaton_represents hwf' hp
      rw [hm', hrep.eq_of_same hrep' hwf hwf' hshape (Matrix.hasShape_ofAutomaton hm')
        (by simp [hq]) hsame]

/-- An automaton with a state that no run reaches, and two others: one in which the same transitions
were declared in another order, and one in which one of them leads elsewhere. -/
theorem ofAutomaton_exact_of_unreached :
    let a : Automaton :=
      { symbols := ["0", "1"], states := ["A", "B", "C"], initial := some "B", finals := ["C"],
        transitions := [⟨"0", "B", "A"⟩, ⟨"1", "C", "C"⟩] }
    let b : Automaton := { a with transitions := [⟨"1", "C", "C"⟩, ⟨"0", "B", "A"⟩] }
    let c : Automaton := { a with transitions := [⟨"0", "B", "A"⟩, ⟨"1", "C", "A"⟩] }
    a.Reachable ∧ b.Reachable ∧ c.Reachable ∧
      Matrix.ofAutomaton a = .ok ⟨["A", "B", "C"], ["0", "1"], 1, [[-1, 0, -1], [-1, -1, 2]],
        [false, false, true]⟩ ∧
      Matrix.ofAutomaton b = Matrix.ofAutomaton a ∧
      Matrix.ofAutomaton c ≠ Matrix.ofAutomaton a := by
  intro a b c
  have hdeclared := (((reachable_empty.call (.addSymbols ["01"])).call
    (.addStates ["a", "b", "c"])).call (.setInitialState "b")).call (.addFinalStates ["c"])
  have ha : a.Reachable := hdeclared.call (.addRows [("0", "b", "a"), ("1", "c", "c")])
  have hb : b.Reachable := hdeclared.call (.addRows [("1", "c", "c"), ("0", "b", "a")])
  have hc : c.Reachable := hdeclared.call (.addRows [("0", "b", "a"), ("1", "c", "a")])
  obtain ⟨m, hm, -, -, -, -, -, -, -, hsame⟩ := ofAutomaton_exact ha (q := "B") rfl
  refine ⟨ha, hb, hc, by decide, ?_, ?_⟩
  · rw [hm]
    exact (hsame b hb).2 (by decide)
  · rw [hm]
    exact fun h => absurd ((hsame c hc).1 h) (by decide)

end Automaton

end AutomatonShell
