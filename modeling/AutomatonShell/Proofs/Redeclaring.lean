import AutomatonShell.Proofs.CommandText
import AutomatonShell.Proofs.Declaring

/-!
# Declaration commands with nothing to refuse

What the declaration commands leave and say when their words are plain names, each of them once, and
refer to what is declared.  What is not declared yet is put behind what is, and what is declared
already is named in a warning.

Symbols, states and final states are one argument, `Outcome.forEach_collect`.  Transitions are
staged in a batch first.  As they have different keys, none of them replaces another one in the
batch, so only the automaton below can be overridden.

* `declareSymbols_eq`, `declareStates_eq`, `declareInitial_eq`, `declareFinals_eq`,
  `declareTransitions_eq` — the five commands.
* **`Transition.words_body`** — transitions written between commas are read back.
-/

namespace AutomatonShell

/-! ## Words of a command -/

lemma IsCapital.not_isBlank {c : Char} (h : IsCapital c) : Text.isBlank c = false := by
  have hupper := toNat_lt_of_isAlphanum h.isAlphanum
  have hlower : 48 ≤ c.toNat := by
    simp only [IsCapital, Char.isUpper, Char.isDigit, Bool.and_eq_true, decide_eq_true_eq,
      UInt32.le_iff_toNat_le, Char.reduceVal, UInt32.reduceToNat, Char.toNat_val] at h
    omega
  simp only [Text.isBlank, Bool.or_eq_false_iff, Bool.and_eq_false_iff, decide_eq_false_iff_not,
    beq_eq_false_iff_ne]
  omega

lemma IsCapital.not_isPunctuation {c : Char} (h : IsCapital c) :
    (c == ';' || c == ',') = false := by
  have hne : ∀ d : Char, d.isAlphanum = false → (c == d) = false := by
    intro d hd
    refine beq_eq_false_iff_ne.2 fun he => ?_
    rw [← he, h.isAlphanum] at hd
    exact Bool.noConfusion hd
  rw [hne ';' rfl, hne ',' rfl]
  rfl

/-- Nothing is taken off a plain name. -/
lemma IsPlainName.stripPunctuation {word : String} (h : IsPlainName word) :
    stripPunctuation word = word := by
  rw [AutomatonShell.stripPunctuation, Text.dropEndWhile, List.dropWhile_eq_self_iff.2,
    List.reverse_reverse, String.ofList_toList]
  intro hlen
  rw [IsCapital.not_isPunctuation]
  · simp
  · exact h.2 _ (List.mem_reverse.1 (List.getElem_mem hlen))

lemma IsPlainName.isWord {text : String} (h : IsPlainName text) : Text.IsWord text.toList :=
  ⟨fun he => h.1 (String.toList_eq_nil_iff.1 he), fun c hc => (h.2 c hc).not_isBlank⟩

lemma isPlainName_singleton {c : Char} (h : IsCapital c) : IsPlainName (String.singleton c) := by
  refine ⟨by simp [← String.toList_eq_nil_iff], fun d hd => ?_⟩
  rw [String.toList_singleton, List.mem_singleton] at hd
  rwa [hd]

namespace Automaton

variable {a : Automaton}

/-! ## Symbols, states and final states -/

/-- **SYMBOLS**, given symbols in upper case, each of them once. -/
theorem declareSymbols_eq {words : List String} (hnodup : words.Nodup)
    (hplain : ∀ w ∈ words, ∃ c, IsCapital c ∧ w = String.singleton c) :
    a.declareSymbols words
      = { state := { a with symbols := a.symbols ++ words.filter fun w => w ∉ a.symbols }
          output := (words.filter fun w => w ∈ a.symbols).map .symbolDeclared } := by
  have hword : ∀ w ∈ words, stripPunctuation w = w ∧ isSymbolWord w = true ∧ Text.upper w = w := by
    intro w hw
    obtain ⟨c, hc, rfl⟩ := hplain w hw
    have hname := isPlainName_singleton hc
    refine ⟨hname.stripPunctuation, ?_, hname.upper⟩
    rw [isSymbolWord, hname.stripPunctuation, isSymbol_singleton hc]
  have hinvalid : (words.filter fun w => !isSymbolWord w) = [] := by
    refine List.filter_eq_nil_iff.2 fun w hw => ?_
    simp [(hword w hw).2.1]
  rw [declareSymbols, Outcome.forEach_collect (I := fun _ => True) symbols
    (fun b ws => { b with symbols := b.symbols ++ ws }) .symbolDeclared hnodup,
    Outcome.andThen_of_failure_eq_none rfl]
  · simp [hinvalid, Outcome.done]
  · intro b _ w hw hnew
    obtain ⟨hstrip, hsymbol, hupper⟩ := hword w hw
    obtain ⟨c, hc, rfl⟩ := hplain w hw
    simp [declareSymbol, hstrip, hsymbol, hasSymbol, hupper, hnew, addSymbols_singleton hc hnew]
  · intro b _ w hw hold
    obtain ⟨hstrip, hsymbol, hupper⟩ := hword w hw
    simp [declareSymbol, hstrip, hsymbol, hasSymbol, hupper, hold, say]
  · exact fun b w => rfl
  · exact fun b => by simp
  · exact fun b w ws => by simp
  · exact fun b w _ => trivial
  · trivial

/-- **STATES**, given plain names, each of them once. -/
theorem declareStates_eq {words : List String} (hnodup : words.Nodup)
    (hplain : ∀ w ∈ words, IsPlainName w) :
    a.declareStates words
      = { state := a.withStates (words.filter fun w => w ∉ a.states)
          output := (words.filter fun w => w ∈ a.states).map .stateDeclared } := by
  rw [declareStates, Outcome.forEach_collect (I := fun _ => True) states
    withStates .stateDeclared hnodup]
  · intro b _ w hw hnew
    have hname := hplain w hw
    simp [declareState, hname.stripPunctuation, hname.isStateName, hasState, hname.upper, hnew,
      addStates_singleton ⟨hname.isStateName, hname.upper⟩, ensureState_of_not_mem hnew, settle,
      withStates, Outcome.done]
  · intro b _ w hw hold
    have hname := hplain w hw
    simp [declareState, hname.stripPunctuation, hname.isStateName, hasState, hname.upper, hold, say]
  · exact fun b w => rfl
  · exact fun b => withStates_nil b
  · exact fun b w ws => withStates_cons b w ws
  · exact fun b w _ => trivial
  · trivial

/-- **INITIAL-STATE**, given a declared state. -/
theorem declareInitial_eq {q : String} (hplain : IsPlainName q) (hmem : q ∈ a.states) :
    a.declareInitial q = .done { a with initial := some q } := by
  have hset := setInitialState_eq ⟨hplain.isStateName, hplain.upper⟩ hmem
  simp [declareInitial, hplain.stripPunctuation, hplain.isStateName, hasState, hplain.upper, hmem,
    Outcome.andThen, hset, settle, Outcome.done]

/-- **FINAL-STATES**, given declared states, each of them once. -/
theorem declareFinals_eq {words : List String} (hnodup : words.Nodup)
    (hplain : ∀ w ∈ words, IsPlainName w) (hmem : ∀ w ∈ words, w ∈ a.states) :
    a.declareFinals words
      = { state := { a with finals := a.finals ++ words.filter fun w => w ∉ a.finals }
          output := (words.filter fun w => w ∈ a.finals).map .alreadyFinal } := by
  rw [declareFinals, Outcome.forEach_collect (I := fun b => b.states = a.states) finals
    (fun b ws => { b with finals := b.finals ++ ws }) .alreadyFinal hnodup]
  · intro b hb w hw hnew
    have hname := hplain w hw
    have hdeclared : w ∈ b.states := hb ▸ hmem w hw
    simp [declareFinal, hname.stripPunctuation, hname.isStateName, hasState, isFinal, hname.upper,
      hdeclared, hnew, addFinalStates_singleton ⟨hname.isStateName, hname.upper⟩,
      ensureFinal_of_not_mem hdeclared hnew, settle, Outcome.done]
  · intro b hb w hw hold
    have hname := hplain w hw
    have hdeclared : w ∈ b.states := hb ▸ hmem w hw
    simp [declareFinal, hname.stripPunctuation, hname.isStateName, hasState, isFinal, hname.upper,
      hdeclared, hold, say]
  · exact fun b w => rfl
  · exact fun b => by simp
  · exact fun b w ws => by simp
  · exact fun b w hb => hb
  · rfl

end Automaton

/-! ## Transitions -/

namespace Transition

/-- The three words of a transition. -/
def words (t : Transition) : List (List Char) :=
  [t.symbol.toList, t.source.toList, t.target.toList]

/-- Whether the names of a transition are plain. -/
structure IsPlain (t : Transition) : Prop where
  symbol : ∃ c, IsCapital c ∧ t.symbol = String.singleton c
  source : IsPlainName t.source
  target : IsPlainName t.target

variable {t : Transition}

lemma toList_text (t : Transition) : t.text.toList = [' '].intercalate t.words := by
  simp [text, words, List.intercalate_cons_cons]

lemma IsPlain.symbol_isPlainName (h : t.IsPlain) : IsPlainName t.symbol := by
  obtain ⟨c, hc, hsymbol⟩ := h.symbol
  rw [hsymbol]
  exact isPlainName_singleton hc

lemma IsPlain.isWord (h : t.IsPlain) : ∀ w ∈ t.words, Text.IsWord w := by
  intro w hw
  rw [words, List.mem_cons, List.mem_cons, List.mem_singleton] at hw
  rcases hw with rfl | rfl | rfl
  · exact h.symbol_isPlainName.isWord
  · exact h.source.isWord
  · exact h.target.isWord

lemma IsPlain.comma_not_mem (h : t.IsPlain) : ',' ∉ t.text.toList := by
  intro hmem
  have hcapital : ¬ IsCapital ',' := by decide
  simp only [text, String.toList_append, List.mem_append] at hmem
  rcases hmem with (((hmem | hmem) | hmem) | hmem) | hmem
  · exact hcapital (h.symbol_isPlainName.2 _ hmem)
  · simp at hmem
  · exact hcapital (h.source.2 _ hmem)
  · simp at hmem
  · exact hcapital (h.target.2 _ hmem)

/-- Transitions in writing, as they stand in the body of a command. -/
def body (ts : List Transition) : List Char :=
  [',', ' '].intercalate (ts.map fun t => t.text.toList)

/-- **The groups of a body** hold the words of the transitions, one transition each. -/
theorem words_body {ts : List Transition} (hne : ts ≠ []) (h : ∀ t ∈ ts, t.IsPlain) :
    ((body ts).splitOn ',').map Text.words = ts.map words := by
  induction ts with
  | nil => contradiction
  | cons t rest ih =>
    have ht := h t List.mem_cons_self
    have hword : Text.words t.text.toList = t.words := by
      rw [toList_text, Text.words_intercalate ht.isWord]
    cases rest with
    | nil =>
      rw [body, List.map_singleton, List.intercalate_singleton,
        List.splitOn_eq_singleton ht.comma_not_mem, List.map_singleton, hword]
      rfl
    | cons u rest =>
      have hbody : body (t :: u :: rest) = t.text.toList ++ ',' :: ' ' :: body (u :: rest) := by
        simp [body, List.intercalate_cons_cons]
      -- the space behind the comma begins the next group, and no word of it
      have hspace : ∀ text : List Char,
          ((' ' :: text).splitOn ',').map Text.words = (text.splitOn ',').map Text.words := by
        intro text
        rw [List.splitOn_cons_eq_if_modifyHead, if_neg (by simp)]
        cases text.splitOn ',' with
        | nil => rfl
        | cons first more =>
          rw [List.modifyHead_cons, List.map_cons, Text.words_cons_blank Text.isBlank_space]
          rfl
      rw [hbody, List.splitOn_append_cons_self_of_not_mem ht.comma_not_mem, List.map_cons, hword,
        hspace, ih (by simp) fun v hv => h v (List.mem_cons_of_mem t hv)]
      rfl

end Transition

namespace Automaton

variable {a : Automaton}

lemma stageGroup_eq {batch : List Transition} {group : List Char} {t : Transition}
    (hwords : Text.words group = t.words) (hplain : t.IsPlain) (ht : a.Declares t) :
    a.stageGroup batch group = a.stage batch t := by
  obtain ⟨hsymbol, hsource, htarget⟩ := ht
  obtain ⟨c, hc, hsingle⟩ := hplain.symbol
  have hname := hplain.symbol_isPlainName
  have hsymbolRule : isSymbol t.symbol = true := by rw [hsingle, isSymbol_singleton hc]
  have hof : Transition.of? t.symbol t.source t.target = .ok t :=
    Transition.of?_self hsymbolRule hname.upper ⟨hplain.source.isStateName, hplain.source.upper⟩
      ⟨hplain.target.isStateName, hplain.target.upper⟩
  have hundeclared : a.undeclaredStates t.source t.target = [] := by
    simp [undeclaredStates, hplain.source.isStateName, hplain.target.isStateName, hasState,
      hplain.source.upper, hplain.target.upper, hsource, htarget]
  rw [stageGroup, hwords, Transition.words]
  simp only [List.map_cons, List.map_nil, String.ofList_toList, hname.stripPunctuation,
    hplain.source.stripPunctuation, hplain.target.stripPunctuation, hsymbolRule, hasSymbol,
    hname.upper, List.contains_eq_mem, hsymbol, decide_true, Bool.not_true, Bool.or_self,
    Bool.false_eq_true, if_false, hundeclared, hof]

/-- What there is to say when transitions are declared over an automaton. -/
def replacements (a : Automaton) (ts : List Transition) : List Diagnostic :=
  ts.flatMap fun t => ((a.transitionFor t.symbol t.source).map (replacement t)).toList

/-- Transitions with different keys are staged in their order, and only those of the automaton are
ever replaced. -/
lemma forEach_stageGroup {groups : List (List Char)} {batch ts : List Transition}
    (hwords : groups.map Text.words = ts.map Transition.words)
    (hplain : ∀ t ∈ ts, t.IsPlain) (h : ∀ t ∈ ts, a.Declares t)
    (hkeys : ((batch ++ ts).map Transition.key).Nodup) :
    Outcome.forEach a.stageGroup batch groups
      = { state := batch ++ ts, output := a.replacements ts } := by
  induction ts generalizing groups batch with
  | nil =>
    obtain rfl : groups = [] := by simpa using hwords
    simp [Outcome.forEach, Outcome.done, replacements]
  | cons t rest ih =>
    obtain ⟨group, groups, rfl⟩ : ∃ group more, groups = group :: more := by
      cases groups with
      | nil => simp at hwords
      | cons group more => exact ⟨group, more, rfl⟩
    simp only [List.map_cons, List.cons.injEq] at hwords
    obtain ⟨hgroup, hwords⟩ := hwords
    have hfresh : ∀ u ∈ batch, u.key ≠ t.key := by
      intro u hu he
      rw [List.map_append, List.nodup_append] at hkeys
      exact hkeys.2.2 _ (List.mem_map_of_mem hu) _ (List.mem_map_of_mem List.mem_cons_self) he
    have hstage : a.stage batch t
        = { state := batch ++ [t]
            output := ((a.transitionFor t.symbol t.source).map (replacement t)).toList } := by
      have hfilter : (batch.filter fun u => u.key != t.key) = batch :=
        List.filter_eq_self.2 fun u hu => by simpa using hfresh u hu
      have hfind : (batch.find? fun u => u.key == t.key) = none :=
        List.find?_eq_none.2 fun u hu => by simpa using hfresh u hu
      rw [stage, existing?, hfilter, hfind]
      rfl
    rw [Outcome.forEach,
      stageGroup_eq hgroup (hplain t List.mem_cons_self) (h t List.mem_cons_self), hstage,
      Outcome.andThen_of_failure_eq_none rfl]
    have hkeys' : ((batch ++ [t] ++ rest).map Transition.key).Nodup := by
      rwa [List.append_assoc, List.singleton_append]
    dsimp only
    rw [ih hwords (fun u hu => hplain u (List.mem_cons_of_mem t hu))
      (fun u hu => h u (List.mem_cons_of_mem t hu)) hkeys']
    simp [replacements]

/-- **TRANSITIONS**, given plain transitions between declared states, each key once. -/
theorem declareTransitions_eq {ts : List Transition} (hplain : ∀ t ∈ ts, t.IsPlain)
    (h : ∀ t ∈ ts, a.Declares t) (hkeys : (ts.map Transition.key).Nodup) :
    a.declareTransitions (Transition.body ts)
      = { state := { a with
            transitions := (a.transitions.filter fun t => t.key ∉ ts.map Transition.key) ++ ts }
          output := a.replacements ts } := by
  have hstaged : Outcome.forEach a.stageGroup [] ((Transition.body ts).splitOn ',')
      = { state := ts, output := a.replacements ts } := by
    by_cases hne : ts = []
    · -- an empty body has one group, which holds no words
      subst hne
      rfl
    · have hkeys' : (([] ++ ts).map Transition.key).Nodup := hkeys
      rw [forEach_stageGroup (Transition.words_body hne hplain) hplain h hkeys', List.nil_append]
  rw [declareTransitions, hstaged]
  dsimp only
  rw [addTransitions_eq hkeys h]

end Automaton

end AutomatonShell
