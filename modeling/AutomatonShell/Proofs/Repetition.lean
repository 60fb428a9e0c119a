import AutomatonShell.Proofs.DefinedSessions

/-!
# Definition commands given twice

A definition command that is given a second time, right behind the first, changes nothing.  What it
was told is there already, so each of its valid parts is answered by one warning, and the others are
answered as before.

For words this is one argument (`TakesInOnce`): a word is taken in for good, and one that was taken
in is only named.  Transitions need another one, since a group takes the place of an earlier group
with its key: the batch is staged alike both times, whatever transitions there are, and it stands
behind all others already when it is inserted again (`withBatch_withBatch`).

* `Outcome.answers` — what is said to each of several items.
* **`Outcome.WarnsAgain`** — what is said the second time, against the first.
* `Outcome.TakesInOnce.forEach_again`, `takesInOnce_of_ensure` — words.
* `withBatch_withBatch`, `declareTransitions_again` — transitions.
* **`define_again`**, **`Session.process_again`** — the commands on an automaton and from their
  text.
-/

namespace AutomatonShell

namespace Outcome

variable {σ μ φ α : Type}

/-! ## Going through items again -/

/-- What is said to each item, one after the other. -/
def answers (step : σ → α → Outcome σ μ φ) : σ → List α → List (List μ)
  | _, [] => []
  | s, x :: rest => (step s x).output :: answers step (step s x).state rest

/-- What is said on the way through a list is what is said to its items. -/
lemma output_forEach {step : σ → α → Outcome σ μ φ} (hstep : ∀ s x, (step s x).failure = none)
    (s : σ) (xs : List α) : (forEach step s xs).output = (answers step s xs).flatten := by
  induction xs generalizing s with
  | nil => rfl
  | cons x rest ih =>
    rw [forEach, andThen_of_failure_eq_none (hstep s x), answers, List.flatten_cons, ih]

lemma state_forEach_cons {step : σ → α → Outcome σ μ φ} (hstep : ∀ s x, (step s x).failure = none)
    (s : σ) (x : α) (rest : List α) :
    (forEach step s (x :: rest)).state = (forEach step (step s x).state rest).state := by
  rw [forEach, andThen_of_failure_eq_none (hstep s x)]

/-- **Items answered again.**  A valid item is answered by one warning, whatever was said to it the
first time, and any other item is answered as it was the first time. -/
def AnsweredAgain (valid : α → Prop) (warning : α → μ → Prop) (items : List α)
    (first second : List (List μ)) : Prop :=
  List.Forall₂ (fun item again =>
    (valid item.1 ∧ ∃ d, warning item.1 d ∧ again = [d]) ∨ (¬ valid item.1 ∧ again = item.2))
    (items.zip first) second

/-- **What is said to some items the second time**, in the state `t`, against what was said to them
the first time, in the state `s`; `closing` is said behind it both times. -/
structure WarnsAgain (step step' : σ → α → Outcome σ μ φ) (s t : σ) (valid : α → Prop)
    (warning : α → μ → Prop) (items : List α) (closing first second : List μ) : Prop where
  first_eq : first = (answers step s items).flatten ++ closing
  second_eq : second = (answers step' t items).flatten ++ closing
  answered : AnsweredAgain valid warning items (answers step s items) (answers step' t items)

/-- **Steps that take items in for good.**  A valid item is held from then on.  `Proper` is what is
asked of items. -/
structure TakesIn (step : σ → α → Outcome σ μ φ) (Proper valid : α → Prop) (held : σ → α → Prop) :
    Prop where
  failure : ∀ s x, (step s x).failure = none
  takesIn : ∀ s x, Proper x → valid x → held (step s x).state x
  keeps : ∀ s x y, held s x → held (step s y).state x

/-- What was gone through is held. -/
lemma TakesIn.held_forEach {step : σ → α → Outcome σ μ φ} {Proper valid : α → Prop}
    {held : σ → α → Prop} (h : TakesIn step Proper valid held) {xs : List α}
    (hproper : ∀ x ∈ xs, Proper x) (s : σ) :
    ∀ x ∈ xs, valid x → held (forEach step s xs).state x := by
  induction xs generalizing s with
  | nil => simp
  | cons x rest ih =>
    rw [state_forEach_cons h.failure, List.forall_mem_cons]
    refine ⟨fun hvalid => ?_, ih (fun y hy => hproper y (List.mem_cons_of_mem x hy)) _⟩
    exact forEach_keeps (I := (held · x)) (fun s y _ hs => h.keeps s x y hs)
      (h.takesIn s x (hproper x List.mem_cons_self) hvalid)

/-- **Steps that take an item in once and for all.**  Items that are not valid are answered and
change nothing, and an item that is held is named and changes nothing. -/
structure TakesInOnce (step : σ → α → Outcome σ μ φ) (Proper valid : α → Prop)
    (held : σ → α → Prop) (named : α → μ) : Prop extends TakesIn step Proper valid held where
  refused : ∀ x, ¬ valid x → ∃ ds, ∀ s, step s x = { state := s, output := ds }
  names : ∀ s x, valid x → held s x → step s x = { state := s, output := [named x] }

namespace TakesInOnce

variable {step : σ → α → Outcome σ μ φ} {Proper valid : α → Prop} {held : σ → α → Prop}
  {named : α → μ}

/-- An item that is held, or refused, changes nothing. -/
lemma state_step (h : TakesInOnce step Proper valid held named) {t : σ} {x : α}
    (hheld : valid x → held t x) : (step t x).state = t := by
  by_cases hvalid : valid x
  · rw [h.names t x hvalid (hheld hvalid)]
  · obtain ⟨ds, hds⟩ := h.refused x hvalid
    rw [hds]

lemma answeredAgain (h : TakesInOnce step Proper valid held named) {t : σ} {xs : List α}
    (hheld : ∀ x ∈ xs, valid x → held t x) (s : σ) :
    (forEach step t xs).state = t ∧
      AnsweredAgain valid (fun x d => d = named x) xs (answers step s xs) (answers step t xs) := by
  induction xs generalizing s with
  | nil => exact ⟨rfl, .nil⟩
  | cons x rest ih =>
    rw [List.forall_mem_cons] at hheld
    have hstate := h.state_step hheld.1
    obtain ⟨hrest, hanswers⟩ := ih hheld.2 (step s x).state
    rw [state_forEach_cons h.failure, answers, answers, hstate]
    refine ⟨hrest, .cons ?_ hanswers⟩
    by_cases hvalid : valid x
    · exact Or.inl ⟨hvalid, named x, rfl, by rw [h.names t x hvalid (hheld.1 hvalid)]⟩
    · obtain ⟨ds, hds⟩ := h.refused x hvalid
      exact Or.inr ⟨hvalid, by rw [hds, hds]⟩

/-- **Going through the same items again** changes nothing, and names the valid ones. -/
theorem forEach_again (h : TakesInOnce step Proper valid held named) {xs : List α}
    (hproper : ∀ x ∈ xs, Proper x) (s : σ) (closing : List μ) :
    let t := (forEach step s xs).state
    (forEach step t xs).state = t ∧
      WarnsAgain step step s t valid (fun x d => d = named x) xs closing
        ((forEach step s xs).output ++ closing) ((forEach step t xs).output ++ closing) := by
  intro t
  obtain ⟨hstate, hanswers⟩ := h.answeredAgain (h.toTakesIn.held_forEach hproper s) s
  exact ⟨hstate, by rw [output_forEach h.failure], by rw [output_forEach h.failure], hanswers⟩

end TakesInOnce

end Outcome

/-! ## Words -/

/-- Texts without blanks, as words of commands are. -/
def IsUnblank (word : String) : Prop := ∀ c ∈ word.toList, Text.isBlank c = false

/-- A word that is a symbol without the punctuation behind it is a letter or digit. -/
lemma IsUnblank.exists_symbol {word : String} (h : IsUnblank word)
    (hsymbol : Automaton.isSymbolWord word = true) :
    ∃ c : Char, c.isAlphanum = true ∧ stripPunctuation word = String.singleton c := by
  obtain ⟨c, hc, hsingle | hnewline⟩ := isSymbol_iff_singleton.1 hsymbol
  · exact ⟨c, hc, hsingle⟩
  · have hmem : '\n' ∈ (stripPunctuation word).toList := by simp [hnewline]
    exact absurd (h '\n' (mem_of_mem_stripPunctuation hmem)) (by decide)

lemma upper_singleton {c : Char} (h : c.isAlphanum = true) :
    Text.upper (String.singleton c) = String.singleton c.toUpper := by
  rw [← String.toList_inj, Text.toList_upper (by simpa using toNat_lt_of_isAlphanum h)]
  simp

namespace Automaton

variable {a : Automaton}

/-- **SYMBOLS takes its words in once.** -/
lemma takesInOnce_declareSymbol :
    Outcome.TakesInOnce declareSymbol IsUnblank (fun word => isSymbolWord word = true)
      (fun a word => a.hasSymbol (stripPunctuation word) = true)
      (fun word => .symbolDeclared (Text.upper (stripPunctuation word))) := by
  refine ⟨⟨?failure, ?takesIn, ?keeps⟩, ?refused, ?names⟩
  case failure =>
    intro a word
    rw [declareSymbol]
    split_ifs <;> rfl
  case refused => exact fun word h => ⟨[], fun a => by simp [declareSymbol, h, Outcome.done]⟩
  case takesIn =>
    intro a word hword hsymbol
    obtain ⟨c, hc, hsingle⟩ := hword.exists_symbol hsymbol
    by_cases hold : a.hasSymbol (stripPunctuation word) = true
    · simp [declareSymbol, hsymbol, hold, say]
    · have hadded : (declareSymbol a word).state = a.addSymbols [String.singleton c] := by
        rw [declareSymbol, hsymbol, if_neg hold, hsingle]
        rfl
      rw [hadded, hsingle, hasSymbol, upper_singleton hc, List.contains_iff_mem,
        mem_symbols_addSymbols]
      exact Or.inr ⟨String.singleton c, by simp, c, by simp, hc, rfl⟩
  case keeps =>
    intro a word other hold
    rw [declareSymbol]
    split_ifs
    · exact hold
    · exact hold
    · rw [hasSymbol, List.contains_iff_mem] at hold ⊢
      exact mem_symbols_addSymbols.2 (Or.inl hold)
  case names => exact fun a word hsymbol hold => by simp [declareSymbol, hsymbol, hold, say]

/-- **One argument for states and final states.**  A step that makes sure of the name in a word
takes words in once: `Listed` is what it makes sure of, and `ensure` how. -/
lemma takesInOnce_of_ensure {step : Automaton → String → Declaration}
    {ensure : Automaton → String → Automaton} (Listed : Automaton → String → Prop)
    (named : String → Diagnostic) (hfailure : ∀ a word, (step a word).failure = none)
    (hrefused : ∀ word, ¬ isStateName (stripPunctuation word) = true →
      ∀ a, step a word = { state := a, output := [.invalidStateName word] })
    (hstate : ∀ word, isStateName (stripPunctuation word) = true →
      ∀ a, (step a word).state = ensure a (Text.upper (stripPunctuation word)))
    (hlisted : ∀ a p q, Listed (ensure a p) q ↔ Listed a q ∨ q = p)
    (hnames : ∀ a word, isStateName (stripPunctuation word) = true →
      Listed a (Text.upper (stripPunctuation word)) → step a word
        = { state := a, output := [named (Text.upper (stripPunctuation word))] }) :
    Outcome.TakesInOnce step IsUnblank (fun word => isStateName (stripPunctuation word) = true)
      (fun a word => Listed a (Text.upper (stripPunctuation word)))
      (fun word => named (Text.upper (stripPunctuation word))) := by
  refine ⟨⟨hfailure, ?takesIn, ?keeps⟩, fun word h => ⟨_, hrefused word h⟩, hnames⟩
  case takesIn =>
    intro a word _ hname
    rw [hstate word hname, hlisted]
    exact Or.inr rfl
  case keeps =>
    intro a word other hold
    by_cases hother : isStateName (stripPunctuation other) = true
    · rw [hstate other hother, hlisted]
      exact Or.inl hold
    · rwa [hrefused other hother]

/-- **STATES takes its words in once.** -/
lemma takesInOnce_declareState :
    Outcome.TakesInOnce declareState IsUnblank
      (fun word => isStateName (stripPunctuation word) = true)
      (fun a word => Text.upper (stripPunctuation word) ∈ a.states)
      (fun word => .stateDeclared (Text.upper (stripPunctuation word))) := by
  refine takesInOnce_of_ensure (fun a q => q ∈ a.states) .stateDeclared declareState_failure
    (fun word h a => ?_) (fun _ h => state_declareState h)
    (fun _ _ _ => mem_states_ensureState_iff) fun a word hname hold => ?_
  · simp [declareState, h, say]
  · simp [declareState, hname, hasState, hold, say]

/-- **FINAL-STATES takes its words in once.** -/
lemma takesInOnce_declareFinal :
    Outcome.TakesInOnce declareFinal IsUnblank
      (fun word => isStateName (stripPunctuation word) = true)
      (fun a word => Text.upper (stripPunctuation word) ∈ a.states ∧
        Text.upper (stripPunctuation word) ∈ a.finals)
      (fun word => .alreadyFinal (Text.upper (stripPunctuation word))) := by
  refine takesInOnce_of_ensure (fun a q => q ∈ a.states ∧ q ∈ a.finals) .alreadyFinal
    declareFinal_failure (fun word h a => ?_) (fun _ h => state_declareFinal h) (fun a p q => ?_)
    fun a word hname hold => ?_
  · simp [declareFinal, h, say]
  · rw [mem_states_ensureFinal_iff, mem_finals_ensureFinal_iff, ← and_or_right]
  · simp [declareFinal, hname, hasState, isFinal, hold.1, hold.2, say]

/-- Words that are named together at the end of SYMBOLS. -/
def notSymbols (words : List String) : List Diagnostic :=
  let invalid := words.filter fun word => !isSymbolWord word
  if invalid.isEmpty then [] else [.invalidSymbols invalid]

lemma declareSymbols_eq_forEach (a : Automaton) (words : List String) :
    a.declareSymbols words
      = { state := (Outcome.forEach declareSymbol a words).state
          output := (Outcome.forEach declareSymbol a words).output ++ notSymbols words } := by
  have hfailure := Outcome.forEach_failure_eq_none takesInOnce_declareSymbol.failure a words
  rw [declareSymbols, Outcome.andThen_of_failure_eq_none hfailure]
  simp only [notSymbols]
  split_ifs <;> rfl

/-- **INITIAL-STATE given again** has nothing to say, unless its word is invalid. -/
lemma declareInitial_again (a : Automaton) (word : String) :
    let b := (a.declareInitial word).state
    b.declareInitial word
      = { state := b
          output := if isStateName (stripPunctuation word) then []
            else (a.declareInitial word).output } := by
  intro b
  by_cases hname : isStateName (stripPunctuation word) = true
  · have hstate := state_declareInitial hname a
    have hmem : Text.upper (stripPunctuation word) ∈ b.states := by
      simp only [b, hstate]
      exact mem_states_ensureState a _
    have hinitial : b.initial = some (Text.upper (stripPunctuation word)) := by
      simp only [b, hstate]
    have hset : b.setInitialState (stripPunctuation word) = (b, none) := by
      rw [setInitialState, canonicalName_of_isStateName hname]
      dsimp only
      rw [ensureState_of_mem hmem, ← hinitial]
    simp [declareInitial, hname, hasState, hmem, hset, settle, Outcome.done_andThen]
  · have hrefused : ∀ c : Automaton, c.declareInitial word
        = { state := c, output := [.invalidStateName word] } :=
      fun c => by simp [declareInitial, hname, say]
    simp [b, hrefused, hname]

/-! ## Transitions -/

/-- **A batch inserted twice is inserted once.** -/
lemma withBatch_withBatch {batch : List Transition} (h : a.IsStaged batch) :
    (a.withBatch batch).withBatch batch = a.withBatch batch := by
  have hagain : (a.withBatch batch).IsStaged batch := by
    refine ⟨h.keys_nodup, fun t ht => ?_⟩
    rw [withBatch_eq h]
    exact h.declares t ht
  have hnone : (batch.filter fun t => t.key ∉ batch.map Transition.key) = [] :=
    List.filter_eq_nil_iff.2 fun t ht => by simpa using ⟨t, ht, rfl⟩
  rw [withBatch_eq hagain, withBatch_eq h]
  simp only [List.filter_append, List.filter_filter, Bool.and_self, hnone, List.append_nil]

/-- Groups are staged for good, as far as their keys go. -/
lemma takesIn_stageGroup (a : Automaton) :
    Outcome.TakesIn a.stageGroup (fun _ => True) (fun group => (a.described? group).isSome)
      (fun batch group => ∀ t ∈ a.described? group, t.key ∈ batch.map Transition.key) := by
  have hkeys : ∀ (batch : List Transition) (t u : Transition), u.key = t.key ∨
      u.key ∈ batch.map Transition.key → u.key ∈ (a.stage batch t).state.map Transition.key := by
    intro batch t u h
    by_cases he : u.key = t.key
    · simp [stage, he]
    · obtain ⟨v, hv, hkey⟩ := List.mem_map.1 (h.resolve_left he)
      exact List.mem_map.2 ⟨v, by simp [stage, hv, hkey, he], hkey⟩
  refine ⟨a.stageGroup_failure, ?takesIn, ?keeps⟩
  case takesIn =>
    intro batch group _ hvalid
    rcases a.stageGroup_described group with ⟨hnone, -⟩ | ⟨t, hsome, -, -, hgroup⟩
    · simp [hnone] at hvalid
    · rw [hgroup a rfl rfl, hsome]
      rintro u ⟨rfl⟩
      exact hkeys batch t t (Or.inl rfl)
  case keeps =>
    intro batch group other hold u hu
    rcases a.stageGroup_described other with ⟨-, ds, hgroup⟩ | ⟨t, -, -, -, hgroup⟩
    · rw [hgroup a rfl rfl]
      exact hold u hu
    · rw [hgroup a rfl rfl]
      exact hkeys batch t u (Or.inr (hold u hu))

/-- **What is said of a group that takes the place of another one**: that its transition was there
already, or that it overrides one with another target. -/
def Replaces (a : Automaton) (group : List Char) (d : Diagnostic) : Prop :=
  ∃ t old, a.described? group = some t ∧ old.key = t.key ∧ d = replacement t old

/-- A key that the automaton knows is found, whatever the batch is. -/
lemma exists_existing? (batch : List Transition) {t : Transition}
    (hkey : (Text.upper t.symbol, Text.upper t.source) = t.key)
    (h : t.key ∈ a.transitions.map Transition.key) :
    ∃ old, a.existing? batch t = some old ∧ old.key = t.key := by
  have hfind : ∀ {ts : List Transition} {old : Transition},
      ts.find? (fun u => u.key == t.key) = some old → old.key = t.key := by
    intro ts old hold
    simpa using List.find?_some hold
  obtain ⟨u, hu, hukey⟩ := List.mem_map.1 h
  obtain ⟨v, hv⟩ : ∃ v, a.transitions.find? (fun u => u.key == t.key) = some v :=
    Option.isSome_iff_exists.1 (List.find?_isSome.2 ⟨u, hu, by simpa using hukey⟩)
  rw [existing?, transitionFor, hkey, hv]
  cases hbatch : batch.find? (fun u => u.key == t.key) with
  | none => exact ⟨v, rfl, hfind hv⟩
  | some old => exact ⟨old, rfl, hfind hbatch⟩

/-- Groups staged again, over an automaton that has a transition for each of their keys. -/
lemma stageGroup_again {b : Automaton} (hsymbols : b.symbols = a.symbols)
    (hstates : b.states = a.states) {groups : List (List Char)}
    (hkeys : ∀ g ∈ groups, ∀ t ∈ a.described? g, t.key ∈ b.transitions.map Transition.key)
    (batch : List Transition) :
    (Outcome.forEach b.stageGroup batch groups).state
        = (Outcome.forEach a.stageGroup batch groups).state ∧
      Outcome.AnsweredAgain (fun g => (a.described? g).isSome) a.Replaces groups
        (Outcome.answers a.stageGroup batch groups)
        (Outcome.answers b.stageGroup batch groups) := by
  induction groups generalizing batch with
  | nil => exact ⟨rfl, .nil⟩
  | cons g rest ih =>
    rw [List.forall_mem_cons] at hkeys
    obtain ⟨hstate, hanswers⟩ := ih hkeys.2 (a.stageGroup batch g).state
    have hsame : (b.stageGroup batch g).state = (a.stageGroup batch g).state := by
      rcases a.stageGroup_described g with ⟨-, ds, hgroup⟩ | ⟨t, -, -, -, hgroup⟩
      · rw [hgroup b hsymbols hstates, hgroup a rfl rfl]
      · rw [hgroup b hsymbols hstates, hgroup a rfl rfl]
        rfl
    rw [Outcome.state_forEach_cons b.stageGroup_failure,
      Outcome.state_forEach_cons a.stageGroup_failure, Outcome.answers, Outcome.answers, hsame]
    refine ⟨hstate, .cons ?_ hanswers⟩
    rcases a.stageGroup_described g with ⟨hnone, ds, hgroup⟩ | ⟨t, hsome, -, hkey, hgroup⟩
    · refine Or.inr ⟨by simp [hnone], ?_⟩
      rw [hgroup b hsymbols hstates, hgroup a rfl rfl]
    · obtain ⟨old, hold, hsamekey⟩ := exists_existing? batch hkey (hkeys.1 t hsome)
      refine Or.inl ⟨by simp [hsome], replacement t old, ⟨t, old, hsome, hsamekey, rfl⟩, ?_⟩
      rw [hgroup b hsymbols hstates, stage, hold]
      rfl

/-- **TRANSITIONS given again** leaves what it left, and names every transition that is described to
it. -/
theorem declareTransitions_again (a : Automaton) (body : List Char) :
    let b := (a.declareTransitions body).state
    (b.declareTransitions body).state = b ∧
      Outcome.WarnsAgain a.stageGroup b.stageGroup [] [] (fun g => (a.described? g).isSome)
        a.Replaces (body.splitOn ',') [] (a.declareTransitions body).output
        (b.declareTransitions body).output := by
  intro b
  obtain ⟨hstaged, hfirst⟩ := a.declareTransitions_eq_withBatch body
  obtain ⟨-, hsecond⟩ := b.declareTransitions_eq_withBatch body
  have hb : b = a.withBatch (Outcome.forEach a.stageGroup [] (body.splitOn ',')).state := by
    simp only [b, hfirst]
  have hbatch := hb.trans (withBatch_eq hstaged)
  have hkeys : ∀ g ∈ body.splitOn ',', ∀ t ∈ a.described? g,
      t.key ∈ b.transitions.map Transition.key := by
    intro g hg t ht
    have hheld := (takesIn_stageGroup a).held_forEach (fun _ _ => trivial) [] g hg
      (Option.isSome_iff_exists.2 ⟨t, ht⟩) t ht
    rw [hbatch, List.map_append]
    exact List.mem_append_right _ hheld
  obtain ⟨hstate, hanswers⟩ :=
    stageGroup_again (b := b) (by rw [hbatch]) (by rw [hbatch]) hkeys []
  rw [hsecond, hfirst, hstate]
  refine ⟨?_, ?_, ?_, hanswers⟩
  · dsimp only
    rw [hb, withBatch_withBatch hstaged]
  · rw [List.append_nil, Outcome.output_forEach a.stageGroup_failure]
  · rw [List.append_nil, Outcome.output_forEach b.stageGroup_failure]

/-! ## Commands given twice -/

/-- **What a definition command says the second time**, over the automaton that it has left, against
what it said the first time.  Valid words and groups are answered by one warning each and the others
as before; INITIAL-STATE has nothing to say if its word is valid; and what is about the whole
command is said again. -/
def SaysAgain (a b : Automaton) (keyword : Keyword) (words : List String) (body : List Char)
    (first second : List Diagnostic) : Prop :=
  match keyword, words with
  | .symbols, word :: rest =>
    Outcome.WarnsAgain declareSymbol declareSymbol a b (fun word => isSymbolWord word = true)
      (fun word d => d = .symbolDeclared (Text.upper (stripPunctuation word)))
      (word :: rest) (notSymbols (word :: rest)) first second
  | .states, word :: rest =>
    Outcome.WarnsAgain declareState declareState a b
      (fun word => isStateName (stripPunctuation word) = true)
      (fun word d => d = .stateDeclared (Text.upper (stripPunctuation word)))
      (word :: rest) [] first second
  | .initialState, [word] =>
    second = if isStateName (stripPunctuation word) then [] else first
  | .finalStates, word :: rest =>
    Outcome.WarnsAgain declareFinal declareFinal a b
      (fun word => isStateName (stripPunctuation word) = true)
      (fun word d => d = .alreadyFinal (Text.upper (stripPunctuation word)))
      (word :: rest) [] first second
  | .transitions, _ =>
    Outcome.WarnsAgain a.stageGroup b.stageGroup [] [] (fun g => (a.described? g).isSome)
      a.Replaces (body.splitOn ',') [] first second
  | _, _ => second = first

/-- **A definition command given twice** leaves what it leaves once. -/
theorem define_again (a : Automaton) (keyword : Keyword) {words : List String}
    (hwords : ∀ word ∈ words, IsUnblank word) (body : List Char) :
    let b := (a.define keyword words body).state
    (b.define keyword words body).state = b ∧
      a.SaysAgain b keyword words body (a.define keyword words body).output
        (b.define keyword words body).output := by
  intro b
  cases keyword with
  | symbols =>
    cases words with
    | nil => exact ⟨rfl, rfl⟩
    | cons word rest =>
      simp only [b, define, SaysAgain, declareSymbols_eq_forEach]
      exact takesInOnce_declareSymbol.forEach_again hwords a _
  | states =>
    cases words with
    | nil => exact ⟨rfl, rfl⟩
    | cons word rest =>
      have hagain := takesInOnce_declareState.forEach_again hwords a []
      simpa only [b, define, SaysAgain, declareStates, List.append_nil] using hagain
  | initialState =>
    rcases words with _ | ⟨word, _ | ⟨_, _⟩⟩
    · exact ⟨rfl, rfl⟩
    · have hagain := a.declareInitial_again word
      simp only [b, define, SaysAgain, hagain, and_self]
    · exact ⟨rfl, rfl⟩
  | finalStates =>
    cases words with
    | nil => exact ⟨rfl, rfl⟩
    | cons word rest =>
      have hagain := takesInOnce_declareFinal.forEach_again hwords a []
      simpa only [b, define, SaysAgain, declareFinals, List.append_nil] using hagain
  | transitions => exact a.declareTransitions_again body
  | clear => cases words <;> exact ⟨rfl, rfl⟩
  | print | execute | compile | load | log | exit => exact ⟨rfl, rfl⟩

end Automaton

namespace Session

/-- **A definition command processed twice** leaves the automaton that it leaves once; and the
second time it names what is declared already, and says of the rest what it said of it the first
time. -/
theorem process_again {s : Session} (hs : s.finished = false) {text : String} {command : Command}
    {keyword : Keyword} (hcommand : Command.ofText? (trimCommand text.toList) = some command)
    (hkeyword : Keyword.ofName? command.first = some keyword)
    (hmem : keyword ∈ Keyword.definitions) (line line' : Option Int) :
    let once := s.process text line
    let twice := once.state.process text line'
    once.failure = none ∧ twice.failure = none ∧
      twice.state.automaton = once.state.automaton ∧
      ∃ first second, once.output = first.map (·.message line) ∧
        twice.output = second.map (·.message line') ∧
        s.automaton.SaysAgain once.state.automaton keyword command.words command.body first
          second := by
  intro once twice
  obtain ⟨hfailure, hfinished, hautomaton, houtput⟩ :=
    process_definition hs hcommand hkeyword hmem line
  obtain ⟨hfailure', -, hautomaton', houtput'⟩ :=
    process_definition hfinished hcommand hkeyword hmem line'
  obtain ⟨hagain, hsays⟩ :=
    s.automaton.define_again keyword (not_isBlank_of_ofText? hcommand) command.body
  rw [hautomaton] at hautomaton' houtput'
  refine ⟨hfailure, hfailure', ?_, _, _, houtput, houtput', ?_⟩
  · rw [hautomaton', hagain, ← hautomaton]
  · rwa [hautomaton]

/-- A command with a group that is repeated, two that compete for a key, one that is there already
and one with a state that is not declared: four warnings and one error the second time. -/
theorem process_again_of_groups :
    let a : Automaton :=
      { symbols := ["0"], states := ["A", "B"], initial := some "A",
        transitions := [⟨"0", "A", "A"⟩, ⟨"0", "B", "A"⟩] }
    let s := { Session.start Config.standard { home := [] } with automaton := a }
    let text := "TRANSITIONS 0 a b, 0 A\ta, 0 b a, 0 b x, 0 a a"
    let once := s.process text (some 7)
    let twice := once.state.process text (some 8)
    s.finished = false ∧ twice.state.automaton = once.state.automaton ∧
      once.state.automaton.transitions = [⟨"0", "B", "A"⟩, ⟨"0", "A", "A"⟩] ∧
      twice.output.map Message.severity = [.warning, .warning, .warning, .error, .warning] := by
  intro a s text once twice
  have hcommand : Command.ofText? (trimCommand text.toList) = some ⟨"TRANSITIONS",
      ["0", "a", "b,", "0", "A", "a,", "0", "b", "a,", "0", "b", "x,", "0", "a", "a"],
      "0 a b, 0 A\ta, 0 b a, 0 b x, 0 a a".toList⟩ := by decide +kernel
  have hkeyword : Keyword.ofName? "TRANSITIONS" = some .transitions := by decide +kernel
  obtain ⟨-, -, hautomaton, -⟩ :=
    process_again (s := s) rfl hcommand hkeyword (by decide) (some 7) (some 8)
  exact ⟨rfl, hautomaton, by decide +kernel, by decide +kernel⟩

end Session

end AutomatonShell
