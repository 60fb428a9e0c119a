import AutomatonShell.Proofs.Refusals
import AutomatonShell.Proofs.SnapshotContent

/-!
# Which snapshots are accepted

A snapshot is read by checks on its arrays and by declarations that must not be refused.  Neither
alone says what an accepted snapshot looks like: the declarations bring names to upper case, put a
state in only once and replace a transition by a later one, so they repair in silence what the
checks let through.  Here both are turned into conditions on what the arrays list.

Reading succeeds exactly when every step does, so each step gets a lemma that says when: what the
declarations of names leave alone, when a row is declared (`addRows_singleton_eq`), and when all
rows are (`declareRows_eq_ok`).  The rows ask for declared names only, and what is declared by then
is what is listed (`isRow_iff`).

* `Automaton.mem_symbols_addSymbols` — the symbols that some texts add.
* `declareRows_eq_ok` — when rows are declared.
* `exists_isAcceptable`, `exists_toAutomaton_of_isAcceptable` — the two directions.
* **`accepted_iff`** — the arrays that are accepted, and how others are refused.
* `exists_accepted_not_isConsistent` — accepted arrays that break rules of an automaton.
-/

namespace AutomatonShell

/-- A transition is made from names that keep the rules, and from no others. -/
lemma Transition.of?_eq_ok {symbol source target : String} {t : Transition} :
    Transition.of? symbol source target = .ok t ↔
      isSymbol symbol = true ∧ isStateName source = true ∧ isStateName target = true ∧
        t = ⟨Text.upper symbol, Text.upper source, Text.upper target⟩ := by
  simp only [Transition.of?, canonicalSymbol, canonicalName]
  by_cases hsymbol : isSymbol symbol <;> by_cases hsource : isStateName source <;>
    by_cases htarget : isStateName target <;>
    simp [hsymbol, hsource, htarget, bind, Except.bind, pure, Except.pure, eq_comm]

namespace Automaton

variable {a b : Automaton}

/-! ## What the declarations leave alone -/

lemma states_addSymbols (a : Automaton) (texts : List String) :
    (a.addSymbols texts).states = a.states := by
  have hchar : ∀ (a : Automaton) (c : Char), (a.addSymbolChar c).states = a.states := by
    intro a c
    rw [addSymbolChar]
    split_ifs
    · dsimp only
      split_ifs <;> rfl
    · rfl
  rw [addSymbols]
  generalize texts.flatMap String.toList = chars
  induction chars generalizing a with
  | nil => rfl
  | cons c rest ih => rw [List.foldl_cons, ih, hchar]

/-- **The symbols that some texts add**: every letter or digit in them, in upper case. -/
lemma mem_symbols_addSymbols {texts : List String} {x : String} :
    x ∈ (a.addSymbols texts).symbols ↔
      x ∈ a.symbols ∨ ∃ text ∈ texts, ∃ c ∈ text.toList, c.isAlphanum = true ∧
        x = String.singleton c.toUpper := by
  have hchar : ∀ (a : Automaton) (c : Char), x ∈ (a.addSymbolChar c).symbols ↔
      x ∈ a.symbols ∨ c.isAlphanum = true ∧ x = String.singleton c.toUpper := by
    intro a c
    rw [addSymbolChar]
    split_ifs with hc
    · dsimp only
      split_ifs with hold
      · have hmem : String.singleton c.toUpper ∈ a.symbols := by simpa using hold
        exact ⟨Or.inl, fun h => h.elim id fun h => h.2 ▸ hmem⟩
      · simp [hc]
    · simp [hc]
  have hall : ∀ (chars : List Char) (a : Automaton), x ∈ (chars.foldl addSymbolChar a).symbols ↔
      x ∈ a.symbols ∨ ∃ c ∈ chars, c.isAlphanum = true ∧ x = String.singleton c.toUpper := by
    intro chars
    induction chars with
    | nil => simp
    | cons c rest ih =>
      intro a
      rw [List.foldl_cons, ih, hchar, or_assoc, List.exists_mem_cons_iff]
  rw [addSymbols, hall]
  simp only [List.mem_flatMap]
  constructor
  · rintro (h | ⟨c, ⟨text, htext, hc⟩, h⟩)
    · exact Or.inl h
    · exact Or.inr ⟨text, htext, c, hc, h⟩
  · rintro (h | ⟨text, htext, c, hc, h⟩)
    · exact Or.inl h
    · exact Or.inr ⟨c, ⟨text, htext, hc⟩, h⟩

lemma symbols_ensureState (a : Automaton) (q : String) : (a.ensureState q).symbols = a.symbols := by
  rw [ensureState]
  split_ifs <;> rfl

lemma symbols_addStates (a : Automaton) (names : List String) :
    (a.addStates names).1.symbols = a.symbols := by
  induction names generalizing a with
  | nil => rfl
  | cons name rest ih =>
    rw [addStates]
    split
    · rfl
    · rw [ih, symbols_ensureState]

lemma symbols_setInitialState (a : Automaton) (name : String) :
    (a.setInitialState name).1.symbols = a.symbols := by
  rw [setInitialState]
  split
  · rfl
  · exact symbols_ensureState a _

lemma symbols_addFinalStates (a : Automaton) (names : List String) :
    (a.addFinalStates names).1.symbols = a.symbols := by
  induction names generalizing a with
  | nil => rfl
  | cons name rest ih =>
    rw [addFinalStates]
    split
    · rfl
    · next state _ =>
      rw [ih, ensureFinal]
      split_ifs <;> exact symbols_ensureState a state

/-- Declared states made final, also several times, change nothing but the final states. -/
lemma addFinalStates_of_mem {names : List String}
    (h : ∀ q ∈ names, IsCanonicalName q ∧ q ∈ a.states) :
    ∃ finals, a.addFinalStates names = ({ a with finals }, none) := by
  induction names generalizing a with
  | nil => exact ⟨a.finals, rfl⟩
  | cons q rest ih =>
    obtain ⟨hq, hmem⟩ := h q List.mem_cons_self
    have hrest : ∀ p ∈ rest, IsCanonicalName p ∧ p ∈ a.states :=
      fun p hp => h p (List.mem_cons_of_mem q hp)
    obtain ⟨finals, hfinal⟩ : ∃ finals, a.ensureFinal q = { a with finals } := by
      by_cases hold : q ∈ a.finals
      · exact ⟨a.finals, by simp [ensureFinal, ensureState_of_mem hmem, hold]⟩
      · exact ⟨_, ensureFinal_of_not_mem hmem hold⟩
    rw [addFinalStates, canonicalName_self hq]
    dsimp only
    rw [hfinal]
    exact ih (a := { a with finals }) hrest

/-! ## Rows -/

/-- The transition that a row describes. -/
def rowTransition (row : String × String × String) : Transition :=
  ⟨Text.upper row.1, Text.upper row.2.1, Text.upper row.2.2⟩

/-- The transitions of some rows put in, one after the other. -/
def insertRows (a : Automaton) (rows : List (String × String × String)) : Automaton :=
  rows.foldl (fun a row => a.insertTransition (rowTransition row)) a

lemma states_insertRows (a : Automaton) (rows : List (String × String × String)) :
    (a.insertRows rows).states = a.states := by
  induction rows generalizing a with
  | nil => rfl
  | cons row rest ih => exact ih (a.insertTransition (rowTransition row))

/-- **What is asked of a row**: three names whose upper case is declared. -/
structure IsRow (a : Automaton) (row : String × String × String) : Prop where
  symbol : isSymbol row.1 = true
  source : isStateName row.2.1 = true
  target : isStateName row.2.2 = true
  declared : a.Declares (rowTransition row)

lemma addRows_singleton_eq {row : String × String × String} :
    a.addRows [row] = (b, none) ↔ a.IsRow row ∧ b = a.insertTransition (rowTransition row) := by
  obtain ⟨symbol, source, target⟩ := row
  have hrow : a.IsRow (symbol, source, target) ↔
      (isSymbol symbol = true ∧ isStateName source = true ∧ isStateName target = true) ∧
        a.undeclared? (rowTransition (symbol, source, target)) = none := by
    rw [undeclared?_eq_none]
    exact ⟨fun h => ⟨⟨h.symbol, h.source, h.target⟩, h.declared⟩,
      fun h => ⟨h.1.1, h.1.2.1, h.1.2.2, h.2⟩⟩
  rw [addRows, hrow]
  cases hof : Transition.of? symbol source target with
  | error e =>
    have hnot : ¬ (isSymbol symbol = true ∧ isStateName source = true ∧
        isStateName target = true) := by
      rintro ⟨hsymbol, hsource, htarget⟩
      rw [Transition.of?_eq_ok.2 ⟨hsymbol, hsource, htarget, rfl⟩] at hof
      cases hof
    simp [hnot]
  | ok t =>
    obtain ⟨hsymbol, hsource, htarget, rfl⟩ := Transition.of?_eq_ok.1 hof
    dsimp only
    rw [addTransitions]
    cases hundeclared : a.undeclared? ⟨Text.upper symbol, Text.upper source, Text.upper target⟩ <;>
      simp [rowTransition, hsymbol, hsource, htarget, hundeclared, addTransitions, addRows, eq_comm]

end Automaton

namespace Snapshot

open Archive Automaton

variable {entries : List (String × Entry)}

/-- **The symbols that are declared from listed ones** are their letters. -/
lemma mem_symbols_of_listed {symbols : List String} (h : ∀ x ∈ symbols, ∃ ch, IsSpelled [ch] x)
    {s : String} : s ∈ (({} : Automaton).addSymbols symbols).symbols ↔
      ∃ x ∈ symbols, IsSpelled s.toList x := by
  have hupper : ∀ ch, IsCapital ch → ch.toUpper = ch := fun ch hch =>
    Char.toUpper_eq_of_not_isLower (by simp [hch.isLower_eq_false])
  rw [mem_symbols_addSymbols]
  simp only [List.not_mem_nil, false_or]
  constructor
  · rintro ⟨x, hx, d, hd, hletter, rfl⟩
    obtain ⟨ch, hspelled⟩ := h x hx
    obtain rfl : d = ch := by
      rcases hspelled.2 with htext | htext <;> rw [htext] at hd
      · exact List.mem_singleton.1 hd
      · rcases List.mem_append.1 hd with hd | hd
        · exact List.mem_singleton.1 hd
        · rw [List.mem_singleton.1 hd] at hletter
          exact Bool.noConfusion hletter
    rw [hupper d (hspelled.1 d List.mem_cons_self)]
    exact ⟨x, hx, by rwa [String.toList_singleton]⟩
  · rintro ⟨x, hx, hspelled⟩
    obtain ⟨ch, hch⟩ := h x hx
    have hcapital := hch.1 ch List.mem_cons_self
    have hs : s.toList = [ch] := hspelled.eq_singleton hcapital.isAlphanum hch.2
    refine ⟨x, hx, ch, ?_, hcapital.isAlphanum, ?_⟩
    · rcases hch.2 with htext | htext <;> simp [htext]
    · rw [hupper ch hcapital]
      exact String.toList_inj.1 (by rw [hs, String.toList_singleton])

/-! ## Reading, step by step -/

lemma labelsOf_eq_ok {x : NdArray} {labels : List Label} :
    labelsOf x = .ok labels ↔ x.labels.any Label.isBeyond = false ∧ labels = x.labels := by
  rw [labelsOf]
  cases x.labels.any Label.isBeyond <;> simp [eq_comm]

lemma exists_texts {labels : List Label} (h : ∀ l ∈ labels, ∃ text, l = .text text) :
    ∃ texts : List String, labels = texts.map .text := by
  choose! f hf using h
  exact ⟨labels.map f, by
    rw [List.map_map]
    conv_lhs => rw [← List.map_id labels]
    exact List.map_congr_left hf⟩

lemma declared_eq_ok_iff {result : Automaton × Option ModelError} {a : Automaton} :
    declared result = .ok a ↔ result = (a, none) :=
  ⟨declared_eq_ok, fun h => by rw [h]; rfl⟩

lemma rowTexts_eq_ok {symbol source target : Label} {row : String × String × String} :
    rowTexts symbol source target = .ok row ↔ (symbol, source, target) = labelsOfRow row := by
  obtain ⟨first, second, third⟩ := row
  -- a label that is no text is refused, but only behind the rules for the texts in front of it
  have hnever : ∀ (checks : Except SnapshotError Unit) (e : SnapshotError),
      (checks >>= fun _ => (Except.error e : Except SnapshotError (String × String × String)))
        ≠ .ok (first, second, third) := by
    intro checks e h
    obtain ⟨-, -, h⟩ := bind_eq_ok.1 h
    exact nomatch h
  cases symbol with
  | garbled codes => simp [rowTexts, labelsOfRow]
  | text symbol =>
    cases source with
    | garbled codes => simpa [rowTexts, labelsOfRow] using hnever _ _
    | text source =>
      cases target with
      | text target => simp [rowTexts, labelsOfRow]
      | garbled codes =>
        simp only [rowTexts, labelsOfRow, Prod.mk.injEq, reduceCtorEq, and_false, iff_false]
        intro h
        obtain ⟨-, -, h⟩ := bind_eq_ok.1 h
        exact hnever _ _ h

/-- **Rows are declared** when each of them keeps the rules.  Declaring one leaves the symbols and
states alone, so all of them are asked the same. -/
lemma declareRows_eq_ok {a b : Automaton} {labels : List (Label × Label × Label)} :
    declareRows a labels = .ok b ↔
      ∃ rows : List (String × String × String), labels = rows.map labelsOfRow ∧
        (∀ row ∈ rows, a.IsRow row) ∧
        b = a.insertRows rows := by
  induction labels generalizing a with
  | nil =>
    simp only [declareRows, Except.ok.injEq]
    constructor
    · rintro rfl
      exact ⟨[], rfl, by simp, rfl⟩
    · rintro ⟨rows, hrows, -, rfl⟩
      rw [List.map_eq_nil_iff.1 hrows.symm]
      rfl
  | cons label rest ih =>
    obtain ⟨symbol, source, target⟩ := label
    have hkeep : ∀ {row row' : String × String × String},
        (a.insertTransition (rowTransition row)).IsRow row' ↔ a.IsRow row' :=
      ⟨fun h => ⟨h.symbol, h.source, h.target, h.declared⟩,
        fun h => ⟨h.symbol, h.source, h.target, h.declared⟩⟩
    simp only [declareRows, bind_eq_ok, rowTexts_eq_ok, declared_eq_ok_iff, addRows_singleton_eq,
      ih]
    constructor
    · rintro ⟨row, hrow, -, ⟨hfirst, rfl⟩, rows, rfl, hrest, rfl⟩
      refine ⟨row :: rows, by rw [hrow, List.map_cons], ?_, rfl⟩
      exact List.forall_mem_cons.2 ⟨hfirst, fun r hr => hkeep.1 (hrest r hr)⟩
    · rintro ⟨rows, hlabels, hrows, rfl⟩
      have hne : rows ≠ [] := by
        rintro rfl
        simp at hlabels
      obtain ⟨row, rows, rfl⟩ := List.exists_cons_of_ne_nil hne
      rw [List.map_cons, List.cons.injEq] at hlabels
      obtain ⟨hfirst, hrest⟩ := List.forall_mem_cons.1 hrows
      exact ⟨row, hlabels.1, _, ⟨hfirst, rfl⟩, rows, hlabels.2,
        fun r hr => hkeep.2 (hrest r hr), rfl⟩

/-- What declaring from nothing has come to when the rows are declared. -/
lemma exists_rows_of_build {symbols states initial finals : List Label} {table : NdArray}
    {a : Automaton} (h : build symbols states initial finals table = .ok a) :
    table.labels.any Label.isBeyond = false ∧
      ∃ (b : Automaton) (rs : List (String × String × String)),
        b.symbols = (({} : Automaton).addSymbols (symbols.filterMap Label.text?)).symbols ∧
        b.states = a.states ∧ rows table.labels = rs.map labelsOfRow ∧ ∀ r ∈ rs, b.IsRow r := by
  have hlast : ∀ b : Automaton,
      (do let b ← declared (b.addFinalStates (finals.filterMap Label.text?))
          declareRows b (rows (← labelsOf table))) = .ok a →
      table.labels.any Label.isBeyond = false ∧
        ∃ (c : Automaton) (rs : List (String × String × String)), c.symbols = b.symbols ∧
          c.states = a.states ∧ rows table.labels = rs.map labelsOfRow ∧ ∀ r ∈ rs, c.IsRow r := by
    intro b hb
    simp only [bind_eq_ok, declared_eq_ok_iff, labelsOf_eq_ok, declareRows_eq_ok] at hb
    obtain ⟨c, hc, labels, ⟨hbeyond, rfl⟩, rs, hrs, hrows, rfl⟩ := hb
    have hsymbols := symbols_addFinalStates b (finals.filterMap Label.text?)
    rw [hc] at hsymbols
    exact ⟨hbeyond, c, rs, hsymbols, (states_insertRows c rs).symm, hrs, hrows⟩
  have hdeclared : ∀ b : Automaton, Snapshot.declareStates
      (({} : Automaton).addSymbols (symbols.filterMap Label.text?)) states = .ok b →
      b.symbols = (({} : Automaton).addSymbols (symbols.filterMap Label.text?)).symbols := by
    intro b hb
    obtain ⟨c, hc, hb⟩ := bind_eq_ok.1 hb
    have hsymbols := symbols_addStates (({} : Automaton).addSymbols (symbols.filterMap Label.text?))
      ((states.takeWhile (·.text?.isSome)).filterMap Label.text?)
    rw [declared_eq_ok hc] at hsymbols
    split at hb
    · rwa [← Except.ok.inj hb]
    · exact nomatch hb
  simp only [build] at h
  obtain ⟨b, hb, h⟩ := bind_eq_ok.1 h
  split at h
  · rw [← hdeclared b hb]
    exact hlast b h
  · next state _ _ =>
    obtain ⟨c, hc, h⟩ := bind_eq_ok.1 h
    have hsymbols := symbols_setInitialState b state
    rw [declared_eq_ok hc] at hsymbols
    rw [← hdeclared b hb, ← hsymbols]
    exact hlast c h

/-- What is asked of a row comes down to what is listed. -/
lemma isRow_iff {b : Automaton} {c : Listed} (hlisted : ∀ x ∈ c.symbols, ∃ ch, IsSpelled [ch] x)
    (hsymbols : b.symbols = (({} : Automaton).addSymbols c.symbols).symbols)
    (hstates : b.states = c.states) {r : String × String × String} :
    b.IsRow r ↔ isSymbol r.1 = true ∧ isStateName r.2.1 = true ∧ isStateName r.2.2 = true ∧
      (∃ x ∈ c.symbols, IsSpelled (Text.upper r.1).toList x) ∧
      Text.upper r.2.1 ∈ c.states ∧ Text.upper r.2.2 ∈ c.states := by
  rw [← mem_symbols_of_listed hlisted, ← hsymbols, ← hstates]
  exact ⟨fun h => ⟨h.symbol, h.source, h.target, h.declared⟩,
    fun ⟨hsymbol, hsource, htarget, h⟩ => ⟨hsymbol, hsource, htarget, h⟩⟩

/-- **What is accepted lists texts that reading can accept.** -/
lemma exists_isAcceptable {a : Automaton} (h : toAutomaton entries = .ok a) :
    ∃ c, Lists entries c ∧ c.IsAcceptable := by
  have hwf := toAutomaton_wellFormed h
  simp only [toAutomaton, bind_eq_ok, labelsOf_eq_ok] at h
  obtain ⟨-, -, symbols, hsymbols, states, hstates, initial, hinitial, finals, hfinals, table,
    htable, -, ⟨-, rfl⟩, -, ⟨-, rfl⟩, -, ⟨-, rfl⟩, -, ⟨-, rfl⟩, h⟩ := h
  split_ifs at h with hlength hnodup
  split at h
  · cases h
  · next hupper =>
    split at h
    · cases h
    · next hknown =>
      obtain ⟨b, hb, h⟩ := bind_eq_ok.1 h
      split_ifs at h with hsame
      obtain rfl := Except.ok.inj h
      obtain ⟨hbeyond, d, rs, hdsymbols, hdstates, hrs, hrows⟩ := exists_rows_of_build hb
      have hupper : ∀ l ∈ symbols.labels, isUpperSymbol l = true := by
        simpa using List.find?_eq_none.1 hupper
      have hknown : ∀ l ∈ initial.labels ++ finals.labels, ∃ q ∈ b.states, Label.text q = l := by
        intro l hl
        have := List.find?_eq_none.1 hknown l hl
        simpa [← hsame] using this
      obtain ⟨symbols', hsymbols'⟩ := exists_texts fun l hl => by
        cases l with
        | text x => exact ⟨x, rfl⟩
        | garbled codes => exact absurd (hupper _ hl) Bool.false_ne_true
      obtain ⟨initial', hinitial'⟩ := exists_texts fun l hl =>
        (hknown l (List.mem_append_left _ hl)).imp fun q hq => hq.2.symm
      obtain ⟨finals', hfinals'⟩ := exists_texts fun l hl =>
        (hknown l (List.mem_append_right _ hl)).imp fun q hq => hq.2.symm
      have hlisted : ∀ x ∈ symbols', ∃ ch, IsSpelled [ch] x := fun x hx =>
        exists_isSpelled_singleton_iff.2 (hupper _ (hsymbols' ▸ List.mem_map_of_mem hx))
      have hmem : ∀ {q}, .text q ∈ initial.labels ++ finals.labels → q ∈ b.states := by
        intro q hq
        obtain ⟨p, hp, hpq⟩ := hknown _ hq
        exact Label.text.inj hpq ▸ hp
      rw [hsymbols', filterMap_text?] at hdsymbols
      refine ⟨⟨symbols', b.states, initial', finals', rs⟩,
        ⟨⟨symbols, hsymbols, hsymbols'⟩, ⟨states, hstates, hsame.symm⟩,
          ⟨initial, hinitial, hinitial'⟩, ⟨finals, hfinals, hfinals'⟩, table, htable, hbeyond, hrs⟩,
        hlisted, fun q hq => exists_isSpelled_iff.2 (hwf.states_canonical q hq), hwf.states_nodup,
        ?_, ?_, ?_, ?_⟩
      · simpa [hinitial'] using hlength
      · intro q hq
        exact hmem (List.mem_append_left _ (hinitial' ▸ List.mem_map_of_mem hq))
      · intro q hq
        exact hmem (List.mem_append_right _ (hfinals' ▸ List.mem_map_of_mem hq))
      · exact fun r hr => (isRow_iff hlisted hdsymbols hdstates).1 (hrows r hr)

/-! ## What acceptable lists come to -/

/-- Final states and rows are declared over symbols and states. -/
lemma exists_declareFinals_rows {b : Automaton} {c : Listed} {table : NdArray}
    (hc : c.IsAcceptable)
    (hsymbols : b.symbols = (({} : Automaton).addSymbols c.symbols).symbols)
    (hstates : b.states = c.states) (hbeyond : table.labels.any Label.isBeyond = false)
    (hrows : rows table.labels = c.rows.map labelsOfRow) :
    ∃ d, (do let b ← declared (b.addFinalStates c.finals)
             declareRows b (rows (← labelsOf table))) = .ok d ∧ d.states = c.states := by
  have hmem : ∀ q ∈ c.finals, IsCanonicalName q ∧ q ∈ b.states := fun q hq =>
    ⟨exists_isSpelled_iff.1 (hc.states q (hc.finals q hq)), hstates ▸ hc.finals q hq⟩
  obtain ⟨finals, hfinals⟩ := addFinalStates_of_mem hmem
  have hrow : ∀ r ∈ c.rows, ({ b with finals } : Automaton).IsRow r := fun r hr =>
    (isRow_iff (b := { b with finals }) hc.symbols hsymbols hstates).2 (hc.rows r hr)
  refine ⟨({ b with finals } : Automaton).insertRows c.rows, ?_, ?_⟩
  · simp only [bind_eq_ok, declared_eq_ok_iff, labelsOf_eq_ok, declareRows_eq_ok]
    exact ⟨_, hfinals, _, ⟨hbeyond, rfl⟩, c.rows, hrows, hrow, rfl⟩
  · rw [states_insertRows]
    exact hstates

/-- **Everything declared** from acceptable lists. -/
lemma exists_build {c : Listed} {table : NdArray} (hc : c.IsAcceptable)
    (hbeyond : table.labels.any Label.isBeyond = false)
    (hrows : rows table.labels = c.rows.map labelsOfRow) :
    ∃ a, build (c.symbols.map Label.text) (c.states.map Label.text) (c.initial.map Label.text)
      (c.finals.map Label.text) table = .ok a ∧ a.states = c.states := by
  have hcanonical : ∀ q ∈ c.states, IsCanonicalName q :=
    fun q hq => exists_isSpelled_iff.1 (hc.states q hq)
  have hempty : (({} : Automaton).addSymbols c.symbols).states = [] := states_addSymbols _ _
  have hstates :
      ((({} : Automaton).addSymbols c.symbols).withStates c.states).states = c.states := by
    rw [withStates, hempty, List.nil_append]
  simp only [build, filterMap_text?]
  rw [declareStates_labels (a := { states := c.states }) hc.states_nodup hcanonical _ hempty]
  rcases hinitial : c.initial with _ | ⟨q, rest⟩
  · exact exists_declareFinals_rows hc rfl hstates hbeyond hrows
  · have hmem : q ∈ c.states := hc.initial q (hinitial ▸ List.mem_cons_self)
    show ∃ a, (do
      let b ← declared
        (((({} : Automaton).addSymbols c.symbols).withStates c.states).setInitialState q)
      let b ← declared (b.addFinalStates c.finals)
      declareRows b (rows (← labelsOf table))) = .ok a ∧ a.states = c.states
    rw [setInitialState_eq (hcanonical q hmem) (by rwa [hstates])]
    exact exists_declareFinals_rows hc rfl hstates hbeyond hrows

/-- **Acceptable lists are accepted.** -/
lemma exists_toAutomaton_of_isAcceptable {c : Listed} (hformat : checkFormat entries = .ok ())
    (h : Lists entries c) (hc : c.IsAcceptable) : ∃ a, toAutomaton entries = .ok a := by
  obtain ⟨symbols, hsymbols, hsymbols'⟩ := h.symbols
  obtain ⟨states, hstates, hstates'⟩ := h.states
  obtain ⟨initial, hinitial, hinitial'⟩ := h.initial
  obtain ⟨finals, hfinals, hfinals'⟩ := h.finals
  obtain ⟨table, htable, hbeyond, hrows⟩ := h.table
  obtain ⟨a, ha, hsame⟩ := exists_build hc hbeyond hrows
  have hlength : ¬ 1 < (c.initial.map Label.text).length := by
    simpa using hc.initial_le
  have hnodup : (c.states.map Label.text).Nodup := hc.states_nodup.map text_injective
  have hupper : (c.symbols.map Label.text).find? (fun s => !isUpperSymbol s) = none := by
    refine List.find?_eq_none.2 fun l hl => ?_
    obtain ⟨x, hx, rfl⟩ := List.mem_map.1 hl
    simpa using exists_isSpelled_singleton_iff.1 (hc.symbols x hx)
  have hknown : (c.initial.map Label.text ++ c.finals.map Label.text).find?
      (fun q => !(c.states.map Label.text).contains q) = none := by
    rw [← List.map_append]
    refine List.find?_eq_none.2 fun l hl => ?_
    obtain ⟨q, hq, rfl⟩ := List.mem_map.1 hl
    have hmem : q ∈ c.states := (List.mem_append.1 hq).elim (hc.initial q) (hc.finals q)
    simpa using hmem
  refine ⟨a, ?_⟩
  simp only [toAutomaton, bind_eq_ok, labelsOf_eq_ok]
  refine ⟨(), hformat, symbols, hsymbols, states, hstates, initial, hinitial, finals, hfinals,
    table, htable, _, ⟨hsymbols' ▸ any_isBeyond_text _, hsymbols'.symm⟩,
    _, ⟨hstates' ▸ any_isBeyond_text _, hstates'.symm⟩,
    _, ⟨hinitial' ▸ any_isBeyond_text _, hinitial'.symm⟩,
    _, ⟨hfinals' ▸ any_isBeyond_text _, hfinals'.symm⟩, ?_⟩
  rw [if_neg hlength, if_neg (not_not.2 hnodup), hupper]
  dsimp only
  rw [hknown]
  dsimp only
  rw [ha]
  exact if_pos (hsame ▸ rfl)

/-! ## The result -/

/-- **Which snapshots are accepted.**  Let the magic text and the version be right.  The arrays are
accepted exactly when they list texts that are acceptable.  Arrays that list texts keep the rules of
an automaton exactly when they are accepted and keep the three rules that reading does not ask for.
Whatever is not accepted, though every list is there, is refused by naming a rule. -/
theorem accepted_iff (hformat : checkFormat entries = .ok ()) :
    ((∃ a, toAutomaton entries = .ok a) ↔ ∃ c, Lists entries c ∧ c.IsAcceptable) ∧
      (∀ c, Lists entries c →
        (c.IsConsistent ↔ (∃ a, toAutomaton entries = .ok a) ∧ c.IsTidy)) ∧
      (HasLists entries → ∀ e, toAutomaton entries = .error e → IsRefusal e) := by
  have haccepted : (∃ a, toAutomaton entries = .ok a) ↔ ∃ c, Lists entries c ∧ c.IsAcceptable :=
    ⟨fun ⟨_, ha⟩ => exists_isAcceptable ha,
      fun ⟨_, h, hc⟩ => exists_toAutomaton_of_isAcceptable hformat h hc⟩
  refine ⟨haccepted, fun c hc => ?_, onlyRefuses_toAutomaton hformat⟩
  rw [Listed.isConsistent_iff, haccepted]
  constructor
  · rintro ⟨h, htidy⟩
    exact ⟨⟨c, hc, h⟩, htidy⟩
  · rintro ⟨⟨d, hd, h⟩, htidy⟩
    exact ⟨hc.unique hd ▸ h, htidy⟩

/-- Two rows for one symbol and source, a row in lower case and a symbol with a newline behind it
are accepted together; a state in lower case is refused by naming the rule. -/
theorem accepted_iff_of_untidy :
    let c : Listed := ⟨["A\n"], ["Q", "R"], ["Q"], [], [("a", "q", "q"), ("A", "Q", "R")]⟩
    let d : Listed := ⟨["A"], ["Q", "r"], ["Q"], [], []⟩
    (∃ l, Lists c.asEntries l ∧ l.IsAcceptable) ∧ ¬ c.IsConsistent ∧
      toAutomaton d.asEntries = .error .notCanonical ∧ IsRefusal .notCanonical := by
  intro c d
  have hc : checkFormat c.asEntries = .ok () := by decide +kernel
  have hd : checkFormat d.asEntries = .ok () := by decide +kernel
  have haccepted : toAutomaton c.asEntries
      = .ok { symbols := ["A"], states := ["Q", "R"], initial := some "Q",
              transitions := [⟨"A", "Q", "R"⟩] } := by decide +kernel
  have hrefused : toAutomaton d.asEntries = .error .notCanonical := by decide +kernel
  have hlists : HasLists d.asEntries := by
    intro name hname
    fin_cases hname <;> exact ⟨_, rfl, rfl⟩
  refine ⟨(accepted_iff hc).1.1 ⟨_, haccepted⟩, fun h => ?_, hrefused,
    (accepted_iff hd).2.2 hlists _ hrefused⟩
  have htidy := (((accepted_iff hc).2.1 c (lists_asEntries c)).1 h).2
  exact absurd (htidy.names "A\n" (by decide)) (by decide)

/-- **Accepted arrays need not keep the rules of an automaton.**  Here two rows are for one symbol
and source; the automaton has the second. -/
theorem exists_accepted_not_isConsistent :
    ¬ ∀ (entries : List (String × Entry)) (c : Listed) (a : Automaton),
        checkFormat entries = .ok () → toAutomaton entries = .ok a → Lists entries c →
          c.IsConsistent := by
  intro h
  let c : Listed := ⟨["A"], ["Q", "R"], ["Q"], [], [("A", "Q", "Q"), ("A", "Q", "R")]⟩
  have hformat : checkFormat c.asEntries = .ok () := by decide +kernel
  have haccepted : toAutomaton c.asEntries
      = .ok { symbols := ["A"], states := ["Q", "R"], initial := some "Q",
              transitions := [⟨"A", "Q", "R"⟩] } := by decide +kernel
  have hkeys := (h c.asEntries c _ hformat haccepted (lists_asEntries c)).keys
  exact absurd hkeys (by decide)

end Snapshot

end AutomatonShell
