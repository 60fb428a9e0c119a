import AutomatonShell.Automaton.Matrix
import AutomatonShell.Proofs.WellFormed

/-!
# The table of an automaton

Laying a table out never fails for a well-formed automaton with an initial state, and the table says
what the automaton says (`Represents`): a cell holds the index of the state that the transition on
its symbol from its state leads to, and the mark for no transition where there is none.

* `cellOf`, `Matrix.Represents` — what each cell has to hold, and that all of them do.
* `fill_represents`, `markFinals_represents` — the two loops that write, by induction on what is
  still to be written.  What carries the first is that no key comes twice, so that no cell is
  written twice.
* **`ofAutomaton_represents`** — the table of a well-formed automaton represents it.
-/

namespace AutomatonShell

/-- What the cell of a symbol and a state has to hold among some states, given the transitions. -/
def cellOf (states : List String) (transitions : List Transition) (symbol state : String) : Int :=
  match transitions.find? fun t => t.key == (symbol, state) with
  | none => Matrix.noTransition
  | some t => states.idxOf t.target

namespace Matrix

/-- **A table says what an automaton says**: names in the order of their declaration, the index of
the initial state, every cell, and every mark. -/
structure Represents (m : Matrix) (a : Automaton) : Prop where
  /-- The columns are the states. -/
  states_eq : m.states = a.states
  /-- The rows are the symbols. -/
  symbols_eq : m.symbols = a.symbols
  /-- A run starts in the column of the initial state. -/
  initial_eq : a.initial = a.states[m.initialIndex]?
  /-- Every cell. -/
  cell_eq : ∀ (row : Nat) (symbol : String), a.symbols[row]? = some symbol →
    ∀ (column : Nat) (state : String), a.states[column]? = some state →
      m.cell? row column = some (cellOf a.states a.transitions symbol state)
  /-- Every mark. -/
  mask_eq : ∀ (column : Nat) (state : String), a.states[column]? = some state →
    m.finalMask[column]? = some (a.finals.contains state)

/-! ## Indices -/

lemma idxOf?_of_mem {names : List String} {name : String} (h : name ∈ names) :
    names.idxOf? name = some (names.idxOf name) := by
  rw [List.idxOf_eq_getD_idxOf?]
  cases hi : names.idxOf? name with
  | none => exact absurd h (List.idxOf?_eq_none_iff.1 hi)
  | some i => rfl

lemma indexIn_of_mem {names : List String} {name : String} (h : name ∈ names) :
    indexIn names name = .ok (names.idxOf name) := by
  rw [indexIn, idxOf?_of_mem h]

/-- In a list without repetitions a name is found where it stands. -/
lemma idxOf_of_getElem? {names : List String} (h : names.Nodup) {i : Nat} {name : String}
    (hi : names[i]? = some name) : names.idxOf name = i := by
  obtain ⟨hlt, rfl⟩ := List.getElem?_eq_some_iff.1 hi
  exact h.idxOf_getElem i hlt

/-! ## One cell written -/

/-- The cell of a bare table, if there is such a cell. -/
def cellAt (table : List (List Int)) (row column : Nat) : Option Int :=
  (table[row]?).bind fun cells => cells[column]?

lemma cellAt_setCell_self {table : List (List Int)} {row column : Nat} {old : Int} (value : Int)
    (h : cellAt table row column = some old) :
    cellAt (setCell table row column value) row column = some value := by
  obtain ⟨cells, hcells, hold⟩ := Option.bind_eq_some_iff.1 h
  obtain ⟨hlt, -⟩ := List.getElem?_eq_some_iff.1 hold
  simp only [cellAt, setCell, List.getElem?_modify, hcells, if_pos, Option.map_eq_map,
    Option.map_some, Option.bind_some]
  exact List.getElem?_set_self hlt

lemma cellAt_setCell_of_ne {table : List (List Int)} {row column row' column' : Nat} (value : Int)
    (h : row ≠ row' ∨ column ≠ column') :
    cellAt (setCell table row column value) row' column' = cellAt table row' column' := by
  simp only [cellAt, setCell, List.getElem?_modify]
  cases table[row']? with
  | none => rfl
  | some cells =>
    simp only [Option.map_eq_map, Option.map_some, Option.bind_some]
    split_ifs with hrow
    · rw [List.getElem?_set_ne (h.resolve_left (not_not.2 hrow))]
    · rfl

/-! ## The loops -/

/-- **Filling in transitions.**  The induction is on the transitions still to be written; a cell
that exists holds at the end what the transition of its key says, or what it held before. -/
lemma fill_represents {symbols states : List String} (hsymbols : symbols.Nodup)
    (hstates : states.Nodup) {ts : List Transition} (hkeys : (ts.map Transition.key).Nodup)
    (hts : ∀ t ∈ ts, t.symbol ∈ symbols ∧ t.source ∈ states ∧ t.target ∈ states)
    (table : List (List Int)) :
    ∃ filled, fill symbols states table ts = .ok filled ∧
      ∀ (row : Nat) (symbol : String), symbols[row]? = some symbol →
        ∀ (column : Nat) (state : String), states[column]? = some state →
        ∀ old, cellAt table row column = some old →
          cellAt filled row column = some
            (match ts.find? fun t => t.key == (symbol, state) with
              | none => old
              | some t => states.idxOf t.target) := by
  induction ts generalizing table with
  | nil => exact ⟨table, rfl, fun row symbol _ column state _ old hold => hold⟩
  | cons t rest ih =>
    obtain ⟨hsymbol, hsource, htarget⟩ := hts t List.mem_cons_self
    simp only [List.map_cons, List.nodup_cons] at hkeys
    obtain ⟨filled, hfilled, hcells⟩ := ih hkeys.2 (fun u hu => hts u (List.mem_cons_of_mem t hu))
      (setCell table (symbols.idxOf t.symbol) (states.idxOf t.source) (states.idxOf t.target))
    refine ⟨filled, ?_, ?_⟩
    · rw [fill, indexIn_of_mem hsymbol, indexIn_of_mem hsource, indexIn_of_mem htarget]
      exact hfilled
    · intro row symbol hrow column state hcolumn old hold
      have hrow' := idxOf_of_getElem? hsymbols hrow
      have hcolumn' := idxOf_of_getElem? hstates hcolumn
      by_cases hkey : t.key = (symbol, state)
      · -- this is the cell that is written now, and no later transition has its key
        obtain ⟨rfl, rfl⟩ : t.symbol = symbol ∧ t.source = state := Prod.mk.inj hkey
        have hlater : rest.find? (fun u => u.key == (t.symbol, t.source)) = none := by
          refine List.find?_eq_none.2 fun u hu he => hkeys.1 (List.mem_map.2 ⟨u, hu, ?_⟩)
          exact eq_of_beq he
        have hset := hcells row _ hrow column _ hcolumn _
          (by rw [hrow', hcolumn']; exact cellAt_setCell_self _ hold)
        rw [hlater] at hset
        rw [hset, List.find?_cons_of_pos (by simp [Transition.key])]
      · have hne : symbols.idxOf t.symbol ≠ row ∨ states.idxOf t.source ≠ column := by
          by_contra hboth
          rw [not_or, not_not, not_not] at hboth
          refine hkey (Prod.ext ?_ ?_)
          · exact List.idxOf_inj hsymbol |>.1 (hboth.1.trans hrow'.symm)
          · exact List.idxOf_inj hsource |>.1 (hboth.2.trans hcolumn'.symm)
        have hset := hcells row symbol hrow column state hcolumn old
          (by rw [cellAt_setCell_of_ne _ hne]; exact hold)
        rw [hset, List.find?_cons_of_neg (by simpa using hkey)]

/-- **Marking final states.**  A mark that exists is set at the end if its state is listed, or if it
was set before. -/
lemma markFinals_represents {states : List String} (hstates : states.Nodup) {finals : List String}
    (hfinals : ∀ q ∈ finals, q ∈ states) (mask : List Bool) :
    ∃ marked, markFinals states mask finals = .ok marked ∧
      ∀ (column : Nat) (state : String), states[column]? = some state →
        ∀ old : Bool, mask[column]? = some old →
        marked[column]? = some (finals.contains state || old) := by
  induction finals generalizing mask with
  | nil => exact ⟨mask, rfl, fun column state _ old hold => by simpa using hold⟩
  | cons q rest ih =>
    have hq := hfinals q List.mem_cons_self
    obtain ⟨marked, hmarked, hmarks⟩ := ih (fun p hp => hfinals p (List.mem_cons_of_mem q hp))
      (mask.set (states.idxOf q) true)
    refine ⟨marked, ?_, ?_⟩
    · rw [markFinals, indexIn_of_mem hq]
      exact hmarked
    · intro column state hcolumn old hold
      have hcolumn' := idxOf_of_getElem? hstates hcolumn
      obtain ⟨hlt, -⟩ := List.getElem?_eq_some_iff.1 hold
      by_cases hstate : state = q
      · subst hstate
        have hset := hmarks column state hcolumn true
          (by rw [hcolumn']; exact List.getElem?_set_self hlt)
        rw [hset]
        simp
      · have hne : states.idxOf q ≠ column := fun he =>
          hstate (List.idxOf_inj hq |>.1 (he.trans hcolumn'.symm)).symm
        rw [hmarks column state hcolumn old (by rw [List.getElem?_set_ne hne]; exact hold)]
        simp [hstate]

/-! ## The whole table -/

lemma cellAt_blank {rows columns row column : Nat} (value : Int) (hrow : row < rows)
    (hcolumn : column < columns) :
    cellAt (List.replicate rows (List.replicate columns value)) row column = some value := by
  simp [cellAt, hrow, hcolumn]

/-- **The table of a well-formed automaton with an initial state represents it.**  None of the names
that are looked up on the way is missing. -/
theorem ofAutomaton_represents {a : Automaton} (h : a.WellFormed) {q : String}
    (hq : a.initial = some q) : ∃ m, ofAutomaton a = .ok m ∧ m.Represents a := by
  have hmem : q ∈ a.states := h.initial_mem q hq
  obtain ⟨table, htable, hcells⟩ := fill_represents h.symbols_nodup h.states_nodup h.keys_nodup
    h.transitions_declared
    (List.replicate a.symbols.length (List.replicate a.states.length noTransition))
  obtain ⟨mask, hmask, hmarks⟩ := markFinals_represents h.states_nodup h.finals_subset
    (List.replicate a.states.length false)
  refine ⟨⟨a.states, a.symbols, a.states.idxOf q, table, mask⟩, ?_, rfl, rfl, ?_, ?_, ?_⟩
  · simp only [ofAutomaton, hq, indexIn_of_mem hmem, htable, hmask]
    rfl
  · rw [hq]
    exact (List.getElem?_idxOf hmem).symm
  · intro row symbol hrow column state hcolumn
    obtain ⟨hrow', -⟩ := List.getElem?_eq_some_iff.1 hrow
    obtain ⟨hcolumn', -⟩ := List.getElem?_eq_some_iff.1 hcolumn
    exact hcells row symbol hrow column state hcolumn noTransition
      (cellAt_blank noTransition hrow' hcolumn')
  · intro column state hcolumn
    obtain ⟨hcolumn', -⟩ := List.getElem?_eq_some_iff.1 hcolumn
    have := hmarks column state hcolumn false (by simp [hcolumn'])
    rwa [Bool.or_false] at this

end Matrix

end AutomatonShell
