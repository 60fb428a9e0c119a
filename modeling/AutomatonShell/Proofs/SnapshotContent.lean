import AutomatonShell.Proofs.SnapshotRoundTrip

/-!
# What the arrays of a snapshot list

Reading a snapshot ends in an automaton, and an automaton keeps its rules whatever it was read from.
Whether the *arrays* kept them is another question.  It is asked here of the texts that the arrays
list, before anything is declared: what the rules of an automaton come to there, and what reading
asks instead.

Reading asks for less in three places, and no others (`isConsistent_iff`).  A name may have a
newline behind it, a row may name a symbol or a state in another letter case, and rows may share
symbol and source.

* `Listed`, `Lists` — what the arrays of a snapshot list.
* `Listed.IsConsistent` — the rules of an automaton, asked of the lists.
* `Listed.IsAcceptable`, `Listed.IsTidy` — what reading asks of them, and what it does not ask.
* `lists_asEntries` — arrays for everything that can be listed.
* **`isConsistent_iff`** — the rules are those that reading asks for and those that it does not.
-/

namespace AutomatonShell

namespace Snapshot

open Archive Automaton

variable {entries : List (String × Entry)}

/-! ## Lists -/

/-- What the arrays of a snapshot list. -/
structure Listed where
  symbols : List String
  states : List String
  initial : List String
  finals : List String
  rows : List (String × String × String)
  deriving DecidableEq

/-- The labels of a row. -/
def labelsOfRow (row : String × String × String) : Label × Label × Label :=
  (.text row.1, .text row.2.1, .text row.2.2)

/-- The array of a name has one dimension, and its elements are shown as some texts. -/
def RowLists (entries : List (String × Entry)) (name : String) (texts : List String) : Prop :=
  ∃ x, rowOf entries name = .ok x ∧ x.labels = texts.map Label.text

/-- **The arrays list texts**: names in four rows, and the parts of transitions in a table of rows
of three. -/
structure Lists (entries : List (String × Entry)) (c : Listed) : Prop where
  symbols : RowLists entries "symbols" c.symbols
  states : RowLists entries "states" c.states
  initial : RowLists entries "initial_state" c.initial
  finals : RowLists entries "final_states" c.finals
  table : ∃ x, tableOf entries = .ok x ∧ x.labels.any Label.isBeyond = false ∧
    rows x.labels = c.rows.map labelsOfRow

/-- **The rules of an automaton, asked of the lists themselves.**  Symbols are single characters of
`A`–`Z` and `0`–`9`; states are different names over them; there is at most one initial state; it
and the final states are listed; rows name what is listed; and no two of them share symbol and
source. -/
structure Listed.IsConsistent (c : Listed) : Prop where
  symbols : ∀ x ∈ c.symbols, ∃ ch, IsCapital ch ∧ x = String.singleton ch
  states : ∀ q ∈ c.states, IsPlainName q
  states_nodup : c.states.Nodup
  initial_le : c.initial.length ≤ 1
  initial : ∀ q ∈ c.initial, q ∈ c.states
  finals : ∀ q ∈ c.finals, q ∈ c.states
  rows : ∀ r ∈ c.rows, r.1 ∈ c.symbols ∧ r.2.1 ∈ c.states ∧ r.2.2 ∈ c.states
  keys : c.rows.Pairwise fun r r' => (r.1, r.2.1) ≠ (r'.1, r'.2.1)

/-- The letters and digits of `A`–`Z` and `0`–`9` that make up a text, with a newline behind them or
without. -/
def IsSpelled (letters : List Char) (text : String) : Prop :=
  (∀ ch ∈ letters, IsCapital ch) ∧ (text.toList = letters ∨ text.toList = letters ++ ['\n'])

/-- **What reading asks of the lists.**  A listed name may have a newline behind it.  The names of a
row keep the rules for names in any letter case, and their upper case is listed, a symbol perhaps
with a newline behind it. -/
structure Listed.IsAcceptable (c : Listed) : Prop where
  symbols : ∀ x ∈ c.symbols, ∃ ch, IsSpelled [ch] x
  states : ∀ q ∈ c.states, ∃ name, name ≠ [] ∧ IsSpelled name q
  states_nodup : c.states.Nodup
  initial_le : c.initial.length ≤ 1
  initial : ∀ q ∈ c.initial, q ∈ c.states
  finals : ∀ q ∈ c.finals, q ∈ c.states
  rows : ∀ r ∈ c.rows, isSymbol r.1 = true ∧ isStateName r.2.1 = true ∧ isStateName r.2.2 = true ∧
    (∃ x ∈ c.symbols, IsSpelled (Text.upper r.1).toList x) ∧
    Text.upper r.2.1 ∈ c.states ∧ Text.upper r.2.2 ∈ c.states

/-- **What reading does not ask of the lists**, though the rules of an automaton do. -/
structure Listed.IsTidy (c : Listed) : Prop where
  names : ∀ x ∈ c.symbols ++ c.states, '\n' ∉ x.toList
  rows : ∀ r ∈ c.rows, Text.upper r.1 = r.1 ∧ Text.upper r.2.1 = r.2.1 ∧ Text.upper r.2.2 = r.2.2
  keys : c.rows.Pairwise fun r r' => (r.1, r.2.1) ≠ (r'.1, r'.2.1)

lemma any_isBeyond_text (texts : List String) :
    (texts.map Label.text).any Label.isBeyond = false := by
  simp [Label.isBeyond]

/-- The arrays of a snapshot list one thing only. -/
lemma Lists.unique {c d : Listed} (hc : Lists entries c) (hd : Lists entries d) : c = d := by
  have hrow : ∀ {name : String} {texts texts' : List String}, RowLists entries name texts →
      RowLists entries name texts' → texts = texts' := by
    rintro name texts texts' ⟨x, hx, htexts⟩ ⟨y, hy, htexts'⟩
    obtain rfl := Except.ok.inj (hx.symm.trans hy)
    exact text_injective.list_map (htexts.symm.trans htexts')
  have htable : c.rows = d.rows := by
    obtain ⟨x, hx, -, hrows⟩ := hc.table
    obtain ⟨y, hy, -, hrows'⟩ := hd.table
    obtain rfl := Except.ok.inj (hx.symm.trans hy)
    refine Function.Injective.list_map ?_ (hrows.symm.trans hrows')
    rintro ⟨symbol, source, target⟩ ⟨symbol', source', target'⟩ h
    simpa [labelsOfRow] using h
  obtain ⟨symbols, states, initial, finals, rows⟩ := c
  obtain ⟨symbols', states', initial', finals', rows'⟩ := d
  simp only [Listed.mk.injEq]
  exact ⟨hrow hc.symbols hd.symbols, hrow hc.states hd.states, hrow hc.initial hd.initial,
    hrow hc.finals hd.finals, htable⟩

/-- The arrays that list something, in a snapshot of the right format. -/
def Listed.asEntries (c : Listed) : List (String × Entry) :=
  [("magic", .array (.texts [] [magicText])),
    ("format_version", .array ⟨.int64, [], [.int formatVersion]⟩),
    ("symbols", .array (.row c.symbols)),
    ("states", .array (.row c.states)),
    ("initial_state", .array (.row c.initial)),
    ("final_states", .array (.row c.finals)),
    ("transitions",
      .array (.texts [c.rows.length, 3] (c.rows.flatMap fun r => [r.1, r.2.1, r.2.2])))]

/-- **Everything can be listed.** -/
lemma lists_asEntries (c : Listed) : Lists c.asEntries c := by
  have hrows : ∀ rs : List (String × String × String),
      rows ((rs.flatMap fun r => [r.1, r.2.1, r.2.2]).map Label.text) = rs.map labelsOfRow := by
    intro rs
    induction rs with
    | nil => rfl
    | cons r rest ih =>
      rw [List.map_cons, ← ih]
      rfl
  refine ⟨⟨.row c.symbols, rfl, labels_texts _ _⟩, ⟨.row c.states, rfl, labels_texts _ _⟩,
    ⟨.row c.initial, rfl, labels_texts _ _⟩, ⟨.row c.finals, rfl, labels_texts _ _⟩, _, rfl, ?_⟩
  rw [labels_texts]
  exact ⟨any_isBeyond_text _, hrows c.rows⟩

/-! ## Spelling -/

lemma IsSpelled.upper {letters : List Char} {text : String} (h : IsSpelled letters text) :
    Text.upper text = text := by
  obtain ⟨hcapital, htext⟩ := h
  have hchars : ∀ ch ∈ text.toList, ch.toNat < 128 ∧ ch.toUpper = ch := by
    have hletters : ∀ ch ∈ letters, ch.toNat < 128 ∧ ch.toUpper = ch := fun ch hch =>
      ⟨toNat_lt_of_isAlphanum (hcapital ch hch).isAlphanum,
        Char.toUpper_eq_of_not_isLower (by simp [(hcapital ch hch).isLower_eq_false])⟩
    rcases htext with htext | htext <;> rw [htext]
    · exact hletters
    · simpa [or_imp, forall_and] using hletters
  apply String.toList_inj.1
  rw [Text.toList_upper fun ch hch => (hchars ch hch).1]
  conv_rhs => rw [← List.map_id text.toList]
  exact List.map_congr_left fun ch hch => (hchars ch hch).2

lemma exists_isSpelled_iff {q : String} :
    (∃ name, name ≠ [] ∧ IsSpelled name q) ↔ IsCanonicalName q := by
  constructor
  · rintro ⟨name, hne, h⟩
    exact ⟨isStateName_iff.2 ⟨name, hne, fun ch hch => (h.1 ch hch).isAlphanum, h.2⟩, h.upper⟩
  · rintro ⟨hname, hupper⟩
    obtain ⟨name, hne, hcapital, htext⟩ := upper_stateName hname
    rw [hupper] at htext
    exact ⟨name, hne, hcapital, htext⟩

/-- A text of one letter is spelled by this letter only. -/
lemma IsSpelled.eq_singleton {letters : List Char} {text : String} (h : IsSpelled letters text)
    {ch : Char} (hch : ch.isAlphanum = true)
    (htext : text.toList = [ch] ∨ text.toList = [ch, '\n']) : letters = [ch] := by
  obtain ⟨hcapital, h⟩ := h
  have hnewline : ¬ IsCapital '\n' := by decide
  rcases htext with htext | htext <;> rcases h with h | h <;> rw [htext] at h
  · exact h.symm
  · have hlast : '\n' ∈ [ch] := h ▸ List.mem_append_right letters List.mem_cons_self
    rw [← List.mem_singleton.1 hlast] at hch
    exact Bool.noConfusion hch
  · exact absurd (hcapital '\n' (by simp [← h])) hnewline
  · exact List.append_left_injective ['\n'] h.symm

lemma exists_isSpelled_singleton_iff {x : String} :
    (∃ ch, IsSpelled [ch] x) ↔ isUpperSymbol (.text x) = true := by
  simp only [isUpperSymbol, Bool.and_eq_true, beq_iff_eq]
  constructor
  · rintro ⟨ch, h⟩
    exact ⟨isSymbol_iff.2 ⟨ch, (h.1 ch List.mem_cons_self).isAlphanum, h.2⟩, h.upper⟩
  · rintro ⟨hsymbol, hupper⟩
    obtain ⟨name, -, hname⟩ := exists_isSpelled_iff.2 ⟨isStateName_of_isSymbol hsymbol, hupper⟩
    obtain ⟨ch, hch, hx⟩ := isSymbol_iff.1 hsymbol
    exact ⟨ch, hname.eq_singleton hch hx ▸ hname⟩

/-- Names as they are spelled, without a newline behind them. -/
lemma IsSpelled.plain {letters : List Char} {text : String} (h : IsSpelled letters text)
    (hplain : '\n' ∉ text.toList) : text.toList = letters :=
  h.2.resolve_right fun htext => hplain (by simp [htext])

lemma newline_not_mem {letters : List Char} (h : ∀ ch ∈ letters, IsCapital ch) :
    '\n' ∉ letters := fun hmem => absurd (h _ hmem) (by decide)

/-! ## The rules of an automaton -/

namespace Listed

variable {c : Listed}

/-- The names of an automaton are spelled as they stand, so upper case leaves its rows alone. -/
lemma IsConsistent.upper_rows (h : c.IsConsistent) : ∀ r ∈ c.rows,
    Text.upper r.1 = r.1 ∧ Text.upper r.2.1 = r.2.1 ∧ Text.upper r.2.2 = r.2.2 := by
  intro r hr
  obtain ⟨hsymbol, hsource, htarget⟩ := h.rows r hr
  obtain ⟨ch, hch, hsingle⟩ := h.symbols _ hsymbol
  have hspelled : IsSpelled [ch] r.1 := by
    rw [hsingle]
    exact ⟨by simpa using hch, Or.inl (String.toList_singleton ch)⟩
  exact ⟨hspelled.upper, (h.states _ hsource).upper, (h.states _ htarget).upper⟩

/-- What follows the rules of an automaton is accepted. -/
lemma IsConsistent.isAcceptable (h : c.IsConsistent) : c.IsAcceptable := by
  refine ⟨fun x hx => ?_, fun q hq => ?_, h.states_nodup, h.initial_le, h.initial, h.finals,
    fun r hr => ?_⟩
  · obtain ⟨ch, hch, rfl⟩ := h.symbols x hx
    exact ⟨ch, by simpa using hch, Or.inl (String.toList_singleton ch)⟩
  · exact ⟨q.toList, fun hnil => (h.states q hq).1 (String.toList_eq_nil_iff.1 hnil),
      (h.states q hq).2, Or.inl rfl⟩
  · obtain ⟨hsymbol, hsource, htarget⟩ := h.rows r hr
    obtain ⟨hupper, hupper', hupper''⟩ := h.upper_rows r hr
    obtain ⟨ch, hch, hsingle⟩ := h.symbols _ hsymbol
    rw [hupper, hupper', hupper'']
    refine ⟨hsingle ▸ isSymbol_singleton hch, (h.states _ hsource).isStateName,
      (h.states _ htarget).isStateName, ⟨r.1, hsymbol, ?_, Or.inl rfl⟩, hsource, htarget⟩
    simpa [hsingle] using hch

lemma IsConsistent.isTidy (h : c.IsConsistent) : c.IsTidy := by
  refine ⟨fun x hx => ?_, h.upper_rows, h.keys⟩
  rcases List.mem_append.1 hx with hx | hx
  · obtain ⟨ch, hch, rfl⟩ := h.symbols x hx
    exact newline_not_mem (by simpa using hch)
  · exact newline_not_mem (h.states x hx).2

/-- What is accepted and tidy follows the rules of an automaton. -/
lemma IsAcceptable.isConsistent (h : c.IsAcceptable) (htidy : c.IsTidy) : c.IsConsistent := by
  have hplain : ∀ x ∈ c.symbols, '\n' ∉ x.toList :=
    fun x hx => htidy.names x (List.mem_append_left _ hx)
  refine ⟨fun x hx => ?_, fun q hq => ?_, h.states_nodup, h.initial_le, h.initial, h.finals,
    fun r hr => ?_, htidy.keys⟩
  · obtain ⟨ch, hspelled⟩ := h.symbols x hx
    refine ⟨ch, hspelled.1 ch List.mem_cons_self, String.toList_inj.1 ?_⟩
    rw [hspelled.plain (hplain x hx), String.toList_singleton]
  · obtain ⟨name, hne, hspelled⟩ := h.states q hq
    have hname := hspelled.plain (htidy.names q (List.mem_append_right _ hq))
    rw [← hname] at hne hspelled
    exact ⟨fun hempty => hne (String.toList_eq_nil_iff.2 hempty), hspelled.1⟩
  · obtain ⟨-, -, -, ⟨x, hx, hspelled⟩, hsource, htarget⟩ := h.rows r hr
    obtain ⟨hupper, hupper', hupper''⟩ := htidy.rows r hr
    rw [hupper] at hspelled
    rw [hupper'] at hsource
    rw [hupper''] at htarget
    have hsymbol : x = r.1 := String.toList_inj.1 (hspelled.plain (hplain x hx))
    exact ⟨hsymbol ▸ hx, hsource, htarget⟩

/-- **The rules of an automaton are those that reading asks for and those that it does not.** -/
lemma isConsistent_iff : c.IsConsistent ↔ c.IsAcceptable ∧ c.IsTidy :=
  ⟨fun h => ⟨h.isAcceptable, h.isTidy⟩, fun h => h.1.isConsistent h.2⟩

end Listed

end Snapshot

end AutomatonShell
