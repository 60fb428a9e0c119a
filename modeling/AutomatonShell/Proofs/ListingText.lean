import AutomatonShell.Proofs.Overlay

/-!
# The text of a listing

A listing is a script.  Its lines, read back from the contents of a file and cut into commands, are
the commands that were written, letter by letter.  A command in a listing consists of capital
letters, digits, hyphens, spaces and commas, so there is nothing in it that ends a line, a command
or a word in the wrong place; a comment can begin in it only if the marker occurs in it.

* `Automaton.listingCommands` — the commands of a listing.
* **`Automaton.lines_listingText`** — the lines of a listing are read back.
* **`Automaton.feedAll_listing`** — the lines of a listing are cut into its commands.
* `Automaton.not_infix_listing` — which markers occur in no line.
-/

namespace AutomatonShell

/-! ## Characters and entries -/

/-- The characters of the commands in a listing. -/
def IsListed (c : Char) : Prop := IsCapital c ∨ c = '-' ∨ c = ' ' ∨ c = ','

instance : DecidablePred IsListed := fun c =>
  inferInstanceAs (Decidable (IsCapital c ∨ c = '-' ∨ c = ' ' ∨ c = ','))

lemma IsListed.ne_separator {c : Char} (h : IsListed c) : c ≠ separator := by
  rintro rfl
  exact absurd h (by decide)

lemma IsListed.not_isLineBoundary {c : Char} (h : IsListed c) : Text.isLineBoundary c = false := by
  rcases h with h | rfl | rfl | rfl
  · have hblank := h.not_isBlank
    simp only [Text.isBlank, Bool.or_eq_false_iff, Bool.and_eq_false_iff, decide_eq_false_iff_not,
      beq_eq_false_iff_ne] at hblank
    simp only [Text.isLineBoundary, Bool.or_eq_false_iff, Bool.and_eq_false_iff,
      decide_eq_false_iff_not, beq_eq_false_iff_ne]
    omega
  · rfl
  · rfl
  · rfl

lemma isListed_of_mem_name {keyword : Keyword} : ∀ c ∈ keyword.name.toList, IsListed c := by
  have hall : (keyword.name.toList.all fun c => decide (IsListed c)) = true := by
    cases keyword <;> rfl
  intro c hc
  exact of_decide_eq_true (List.all_eq_true.1 hall c hc)

lemma isWord_name (keyword : Keyword) : Text.IsWord keyword.name.toList := by
  have hne : keyword.name.toList.isEmpty = false := by cases keyword <;> rfl
  have hblank : (keyword.name.toList.all fun c => !Text.isBlank c) = true := by
    cases keyword <;> rfl
  refine ⟨List.isEmpty_eq_false_iff.1 hne, fun c hc => ?_⟩
  simpa using List.all_eq_true.1 hblank c hc

/-- What an entry of a listing looks like. -/
def IsEntry (text : String) : Prop := Text.IsTrimmed text.toList ∧ ∀ c ∈ text.toList, IsListed c

lemma IsPlainName.isEntry {text : String} (h : IsPlainName text) : IsEntry text :=
  ⟨h.isWord.isTrimmed, fun c hc => Or.inl (h.2 c hc)⟩

lemma Transition.IsPlain.isEntry {t : Transition} (h : t.IsPlain) : IsEntry t.text := by
  refine ⟨?_, ?_⟩
  · rw [Transition.toList_text]
    exact Text.IsTrimmed.intercalate (by simp [Transition.words])
      fun w hw => (h.isWord w hw).isTrimmed
  · intro c hc
    simp only [Transition.text, String.toList_append, List.mem_append] at hc
    rcases hc with (((hc | hc) | hc) | hc) | hc
    · exact Or.inl (h.symbol_isPlainName.2 c hc)
    · exact Or.inr (Or.inr (Or.inl (by simpa using hc)))
    · exact Or.inl (h.source.2 c hc)
    · exact Or.inr (Or.inr (Or.inl (by simpa using hc)))
    · exact Or.inl (h.target.2 c hc)

lemma mem_intercalate {between : List Char} {texts : List (List Char)} {c : Char}
    (h : c ∈ between.intercalate texts) : c ∈ between ∨ ∃ t ∈ texts, c ∈ t := by
  induction texts with
  | nil => exact absurd h (by simp)
  | cons t rest ih =>
    cases rest with
    | nil =>
      rw [List.intercalate_singleton] at h
      exact Or.inr ⟨t, List.mem_cons_self, h⟩
    | cons u rest =>
      rw [List.intercalate_cons_cons, List.mem_append, List.mem_append] at h
      rcases h with (h | h) | h
      · exact Or.inr ⟨t, List.mem_cons_self, h⟩
      · exact Or.inl h
      · rcases ih h with h | ⟨v, hv, h⟩
        · exact Or.inl h
        · exact Or.inr ⟨v, List.mem_cons_of_mem t hv, h⟩

/-- Entries with something listed between them. -/
lemma isEntry_intercalate {between : List Char} {entries : List String}
    (hbetween : ∀ c ∈ between, IsListed c) (hne : entries ≠ []) (h : ∀ e ∈ entries, IsEntry e) :
    Text.IsTrimmed (between.intercalate (entries.map String.toList)) ∧
      ∀ c ∈ between.intercalate (entries.map String.toList), IsListed c := by
  refine ⟨Text.IsTrimmed.intercalate (by simpa using hne) fun w hw => ?_, fun c hc => ?_⟩
  · obtain ⟨e, he, rfl⟩ := List.mem_map.1 hw
    exact (h e he).1
  · rcases mem_intercalate hc with hc | ⟨w, hw, hc⟩
    · exact hbetween c hc
    · obtain ⟨e, he, rfl⟩ := List.mem_map.1 hw
      exact (h e he).2 c hc

lemma isListed_space : ∀ c ∈ [' '], IsListed c := by
  intro c hc
  rw [List.mem_singleton] at hc
  exact Or.inr (Or.inr (Or.inl hc))

lemma isListed_comma : ∀ c ∈ [',', ' '], IsListed c := by
  intro c hc
  rcases List.mem_cons.1 hc with hc | hc
  · exact Or.inr (Or.inr (Or.inr hc))
  · exact isListed_space c hc

/-! ## Commands and lines -/

/-- A keyword with a body behind it. -/
def commandText (keyword : Keyword) (body : List Char) : List Char :=
  keyword.name.toList ++ ' ' :: body

namespace Automaton

/-- The command of one section of a listing, unless the section is empty. -/
def sectionCommands (keyword : Keyword) (between : List Char) (entries : List String) :
    List (List Char) :=
  if entries.isEmpty then []
  else [commandText keyword (between.intercalate (entries.map String.toList))]

/-- **The commands of a listing**, one for every section that is not empty. -/
def listingCommands (a : Automaton) : List (List Char) :=
  sectionCommands .symbols [' '] (sorted a.symbols)
    ++ (sectionCommands .states [' '] (sorted a.states)
    ++ (sectionCommands .initialState [' '] a.initial.toList
    ++ (sectionCommands .finalStates [' '] (sorted a.finals)
    ++ sectionCommands .transitions [',', ' '] (a.sortedTransitions.map Transition.text))))

/-- Whether a listing writes plain names only. -/
structure PlainNames (a : Automaton) : Prop where
  symbols : ∀ x ∈ sorted a.symbols, IsPlainName x
  states : ∀ q ∈ sorted a.states, IsPlainName q
  initial : ∀ q ∈ a.initial.toList, IsPlainName q
  finals : ∀ q ∈ sorted a.finals, IsPlainName q
  transitions : ∀ t ∈ a.sortedTransitions, t.IsPlain

variable {a : Automaton}

lemma WellFormed.plainNames (h : a.WellFormed) (hplain : ∀ q ∈ a.states, IsPlainName q) :
    a.PlainNames where
  symbols x hx := by
    obtain ⟨c, hc, rfl⟩ := h.symbols_plain x (mem_sorted.1 hx)
    exact isPlainName_singleton hc
  states q hq := hplain q (mem_sorted.1 hq)
  initial q hq := hplain q (h.initial_mem q (Option.mem_toList.1 hq))
  finals q hq := hplain q (h.finals_subset q (mem_sorted.1 hq))
  transitions := h.isPlain hplain

lemma PlainNames.isEntry_transitions (h : a.PlainNames) :
    ∀ e ∈ a.sortedTransitions.map Transition.text, IsEntry e := by
  intro e he
  obtain ⟨t, ht, rfl⟩ := List.mem_map.1 he
  exact (h.transitions t ht).isEntry

lemma clause_eq (keyword : Keyword) (between : String) (entries : List String) :
    clause keyword.name between entries
      = (sectionCommands keyword between.toList entries).map
          fun t => String.ofList (t ++ [separator]) := by
  rw [clause, sectionCommands]
  split_ifs
  · rfl
  · rw [List.map_singleton, commandText]
    congr 1
    apply String.toList_inj.1
    simp [String.toList_intercalate, separator]

/-- A line of a listing is a command with a semicolon behind it. -/
lemma listing_eq (a : Automaton) :
    a.listing = a.listingCommands.map fun t => String.ofList (t ++ [separator]) := by
  show clause Keyword.symbols.name " " (sorted a.symbols)
      ++ clause Keyword.states.name " " (sorted a.states)
      ++ clause Keyword.initialState.name " " a.initial.toList
      ++ clause Keyword.finalStates.name " " (sorted a.finals)
      ++ clause Keyword.transitions.name ", " (a.sortedTransitions.map Transition.text) = _
  simp only [clause_eq, listingCommands, List.map_append, List.append_assoc]
  rfl

lemma isTrimmed_of_mem_sectionCommands {keyword : Keyword} {between : List Char}
    {entries : List String} (hbetween : ∀ c ∈ between, IsListed c) (h : ∀ e ∈ entries, IsEntry e)
    {t : List Char} (ht : t ∈ sectionCommands keyword between entries) :
    Text.IsTrimmed t ∧ ∀ c ∈ t, IsListed c := by
  rw [sectionCommands] at ht
  split_ifs at ht with hempty
  · exact absurd ht (by simp)
  · rw [List.mem_singleton] at ht
    subst ht
    obtain ⟨hbody, hlisted⟩ :=
      isEntry_intercalate hbetween (fun he => hempty (List.isEmpty_iff.2 he)) h
    refine ⟨?_, ?_⟩
    · have := (isWord_name keyword).isTrimmed.append hbody [' ']
      rwa [List.append_assoc, List.singleton_append] at this
    · intro c hc
      rcases List.mem_append.1 hc with hc | hc
      · exact isListed_of_mem_name c hc
      · rcases List.mem_cons.1 hc with rfl | hc
        · exact Or.inr (Or.inr (Or.inl rfl))
        · exact hlisted c hc

/-- What the commands of a listing look like: no blanks at their ends, and no characters that would
end a line or a command. -/
lemma PlainNames.isTrimmed_of_mem (h : a.PlainNames) {t : List Char} (ht : t ∈ a.listingCommands) :
    Text.IsTrimmed t ∧ ∀ c ∈ t, IsListed c := by
  simp only [listingCommands, List.mem_append] at ht
  rcases ht with ht | ht | ht | ht | ht
  · exact isTrimmed_of_mem_sectionCommands isListed_space (fun e he => (h.symbols e he).isEntry) ht
  · exact isTrimmed_of_mem_sectionCommands isListed_space (fun e he => (h.states e he).isEntry) ht
  · exact isTrimmed_of_mem_sectionCommands isListed_space (fun e he => (h.initial e he).isEntry) ht
  · exact isTrimmed_of_mem_sectionCommands isListed_space (fun e he => (h.finals e he).isEntry) ht
  · exact isTrimmed_of_mem_sectionCommands isListed_comma h.isEntry_transitions ht

/-- The text of a listing. -/
lemma flatten_listingText (a : Automaton) :
    (a.listingText.map String.toList).flatten
      = (a.listing.map String.toList).flatMap fun l => l ++ ['\n'] := by
  simp [listingText, List.flatMap, Function.comp_def]

/-- **The lines of a listing are read back** from the contents of its file. -/
theorem lines_listingText (h : a.PlainNames) :
    (Text.lines (Text.unifyNewlines (a.listingText.map String.toList).flatten)).map String.ofList
      = a.listing := by
  have hboundary : ∀ l ∈ a.listing.map String.toList, ∀ c ∈ l, Text.isLineBoundary c = false := by
    intro l hl c hc
    rw [listing_eq, List.map_map, List.mem_map] at hl
    obtain ⟨t, ht, rfl⟩ := hl
    rw [Function.comp_apply, String.toList_ofList, List.mem_append, List.mem_singleton] at hc
    rcases hc with hc | rfl
    · exact ((h.isTrimmed_of_mem ht).2 c hc).not_isLineBoundary
    · rfl
  rw [flatten_listingText, Text.lines_flatMap hboundary, List.map_map]
  simp

/-- **The lines of a listing are cut into its commands**, and nothing is left unfinished. -/
theorem feedAll_listing (h : a.PlainNames) {marker : String}
    (hmarker : ∀ line ∈ a.listing, ¬ marker.toList <:+: line.toList) (start : Int) :
    ∃ commands, ({ commentPrefix := marker } : Assembler).feedAll start a.listing
        = .ok (commands, { commentPrefix := marker }) ∧
      commands.map Prod.snd = a.listingCommands.map String.ofList := by
  rw [listing_eq] at hmarker ⊢
  refine Assembler.feedAll_commands ?_ ?_ ?_ start
  · exact fun t ht => (h.isTrimmed_of_mem ht).1
  · intro t ht hsep
    exact ((h.isTrimmed_of_mem ht).2 _ hsep).ne_separator rfl
  · intro t ht
    simpa using hmarker _ (List.mem_map_of_mem ht)

/-- A marker with a character that no listing holds occurs in no line, whatever else it consists
of. -/
theorem not_infix_listing (h : a.PlainNames) {marker : String} {c : Char} (hc : c ∈ marker.toList)
    (hlisted : ¬ IsListed c) (hsep : c ≠ separator) :
    ∀ line ∈ a.listing, ¬ marker.toList <:+: line.toList := by
  intro line hline hinfix
  rw [listing_eq, List.mem_map] at hline
  obtain ⟨t, ht, rfl⟩ := hline
  have hmem := hinfix.subset hc
  rw [String.toList_ofList, List.mem_append, List.mem_singleton] at hmem
  rcases hmem with hmem | hmem
  · exact hlisted ((h.isTrimmed_of_mem ht).2 c hmem)
  · exact hsep hmem

end Automaton

end AutomatonShell
