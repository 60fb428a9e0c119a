import AutomatonShell.Proofs.Repetition

/-!
# Every word accounted for

A declaration takes its words in one at a time, and each of them is looked at in the automaton that
the words in front of it have left.  What becomes of a word can be said without these automata in
between: it is **refused** if it is no name, **repeated** if the name was there before the command
or an earlier word of the command brought it, and **added** otherwise.

The proof is one induction over the words.  A step does to the automaton and says what the fate of
its word demands (`Collection.step_eq`), and the words behind it have the fates in the grown
collection that they had behind it in the old one (`fatesOf_cons`).

* `Fate`, `fateOf`, `fatesOf` — what becomes of the words of a command.
* `Collection` — where words are declared: symbols, states or final states.
* `Collection.joined`, `Collection.reply`, `Collection.closing` — what added names do to an
  automaton, and what is said about a word and about all of them.
* `Collection.forEach_step` — the words of a command, one after the other.
* **`Session.process_accounts`** — every word of a declaration is accounted for once.
-/

namespace AutomatonShell

/-! ## Fates -/

/-- **What becomes of a word** of a declaration. -/
inductive Fate where
  /-- It is no name; kept as it was written. -/
  | refused (word : String)
  /-- Its name is declared already. -/
  | repeated (name : String)
  /-- Its name is new. -/
  | added (name : String)
  deriving Repr, DecidableEq

/-- The name that a word brought in. -/
def Fate.added? : Fate → Option String
  | .added name => some name
  | _ => none

/-- The word that was refused. -/
def Fate.refused? : Fate → Option String
  | .refused word => some word
  | _ => none

/-- The name that a word is declared by. -/
def declaredName (word : String) : String := Text.upper (stripPunctuation word)

/-- **What becomes of one word** behind some others, by the names that were there before the
command. -/
def fateOf (isName : String → Bool) (held earlier : List String) (word : String) : Fate :=
  if isName word = false then .refused word
  else if declaredName word ∈ held ∨
      ∃ other ∈ earlier, isName other = true ∧ declaredName word = declaredName other then
    .repeated (declaredName word)
  else .added (declaredName word)

/-- What becomes of the words of a command. -/
def fatesOf (isName : String → Bool) (held words : List String) : List Fate :=
  words.mapIdx fun i word => fateOf isName held (words.take i) word

section

variable {isName : String → Bool} {held : List String}

lemma fateOf_of_refused {word : String} (h : isName word = false) (earlier : List String) :
    fateOf isName held earlier word = .refused word := if_pos h

lemma fateOf_nil_of_mem {word : String} (h : isName word = true)
    (hold : declaredName word ∈ held) :
    fateOf isName held [] word = .repeated (declaredName word) := by
  simp [fateOf, h, hold]

lemma fateOf_nil_of_not_mem {word : String} (h : isName word = true)
    (hnew : declaredName word ∉ held) :
    fateOf isName held [] word = .added (declaredName word) := by
  simp [fateOf, h, hnew]

/-- What a word in front has done counts like what was there before. -/
lemma fateOf_cons (first : String) (earlier : List String) (word : String) :
    fateOf isName held (first :: earlier) word
      = fateOf isName (held ++ (fateOf isName held [] first).added?.toList) earlier word := by
  cases hfirst : isName first with
  | false =>
    rw [fateOf_of_refused hfirst]
    simp [fateOf, Fate.added?, hfirst]
  | true =>
    by_cases hheld : declaredName first ∈ held
    · have hsame : declaredName word = declaredName first → declaredName word ∈ held := by
        intro h
        rwa [h]
      rw [fateOf_nil_of_mem hfirst hheld]
      simp only [fateOf, Fate.added?, Option.toList_none, List.append_nil,
        List.exists_mem_cons_iff, hfirst, true_and, ← or_assoc, or_iff_left_of_imp hsame]
    · rw [fateOf_nil_of_not_mem hfirst hheld]
      simp only [fateOf, Fate.added?, Option.toList_some, List.mem_append, List.mem_singleton,
        List.exists_mem_cons_iff, hfirst, true_and, or_assoc]

/-- **The words behind the first** have the fates that they have behind what it added. -/
lemma fatesOf_cons (first : String) (rest : List String) :
    fatesOf isName held (first :: rest)
      = fateOf isName held [] first
        :: fatesOf isName (held ++ (fateOf isName held [] first).added?.toList) rest := by
  simp only [fatesOf, List.mapIdx_cons, List.take_zero, List.take_succ_cons, fateOf_cons]

/-- Names that were there are not added. -/
lemma not_mem_held_of_added {words : List String} {name : String}
    (h : .added name ∈ fatesOf isName held words) : name ∉ held := by
  obtain ⟨i, hi, hfate⟩ := List.mem_iff_getElem.1 h
  simp only [fatesOf, List.getElem_mapIdx, fateOf] at hfate
  split_ifs at hfate with hname hold
  rw [← Fate.added.inj hfate]
  exact fun hmem => hold (Or.inl hmem)

/-- The refused words are those that are no names. -/
lemma filterMap_refused (held words : List String) :
    (fatesOf isName held words).filterMap Fate.refused?
      = words.filter fun word => !isName word := by
  induction words generalizing held with
  | nil => rfl
  | cons word rest ih =>
    rw [fatesOf_cons]
    cases hname : isName word with
    | false =>
      have hsome : (Fate.refused word).refused? = some word := rfl
      rw [fateOf_of_refused hname, List.filterMap_cons_some hsome, ih,
        List.filter_cons_of_pos (by simp [hname])]
    | true =>
      have hkept : (fateOf isName held [] word).refused? = none := by
        by_cases hold : declaredName word ∈ held
        · rw [fateOf_nil_of_mem hname hold]
          rfl
        · rw [fateOf_nil_of_not_mem hname hold]
          rfl
      rw [List.filterMap_cons_none hkept, ih, List.filter_cons_of_neg (by simp [hname])]

/-- A word is added, repeated or refused. -/
lemma length_eq_added_add (isName : String → Bool) (held words : List String) :
    words.length = ((fatesOf isName held words).filterMap Fate.added?).length
      + (fatesOf isName held words).countP (·.added?.isNone) := by
  have hlength : (fatesOf isName held words).length = words.length := by simp [fatesOf]
  rw [List.length_filterMap_eq_countP, ← hlength,
    List.length_eq_countP_add_countP (fun fate : Fate => fate.added?.isSome)]
  congr 1
  exact List.countP_congr fun fate _ => by simp

end

/-! ## Collections -/

/-- **Where the words of a command are declared.** -/
inductive Collection where
  | symbols
  | states
  | finals
  deriving Repr, DecidableEq

namespace Collection

/-- The keyword that declares into a collection. -/
def keyword : Collection → Keyword
  | symbols => .symbols
  | states => .states
  | finals => .finalStates

/-- Whether a word, without the punctuation behind it, is a name for a collection. -/
def isName : Collection → String → Bool
  | symbols, word => isSymbol (stripPunctuation word)
  | states, word => isStateName (stripPunctuation word)
  | finals, word => isStateName (stripPunctuation word)

/-- The names in a collection. -/
def names (a : Automaton) : Collection → List String
  | symbols => a.symbols
  | states => a.states
  | finals => a.finals

/-- **An automaton with names added to a collection.**  New final states are declared if they were
not, and the first state of all becomes the initial one. -/
def joined (a : Automaton) : Collection → List String → Automaton
  | symbols, added => { a with symbols := a.symbols ++ added }
  | states, added => { a with
      states := a.states ++ added
      initial := a.initial <|> added.head? }
  | finals, added =>
    let implied := added.filter (· ∉ a.states)
    { a with
      states := a.states ++ implied
      initial := a.initial <|> implied.head?
      finals := a.finals ++ added }

/-- **What is said about a word**, by its fate. -/
def reply (a : Automaton) (line : Option Int) : Collection → Fate → List Message
  | symbols, .refused _ => []
  | symbols, .repeated name => [.warning ("symbol " ++ name ++ " was already declared") line]
  | symbols, .added _ => []
  | states, .refused word => [.error ("invalid state name " ++ word) line]
  | states, .repeated name => [.warning ("state " ++ name ++ " was already declared") line]
  | states, .added _ => []
  | finals, .refused word => [.error ("invalid state name " ++ word) line]
  | finals, .repeated name =>
    [.warning ("state " ++ name ++ " was already declared as a final state") line]
  | finals, .added name =>
    if name ∈ a.states then []
    else [.warning ("state " ++ name ++ " was not previously declared") line]

/-- What is said at the end: SYMBOLS names the refused words together. -/
def closing (line : Option Int) : Collection → List String → List Message
  | symbols, word :: rest =>
    [.warning ("invalid symbols: " ++ String.intercalate ", " (word :: rest)) line]
  | _, _ => []

/-- One word of a command. -/
def step : Collection → Automaton → String → Declaration
  | symbols => Automaton.declareSymbol
  | states => Automaton.declareState
  | finals => Automaton.declareFinal

variable {a : Automaton}

/-! ## One word -/

lemma joined_nil (a : Automaton) (c : Collection) : c.joined a [] = a := by
  cases c <;> simp [joined]

@[simp] lemma names_joined (a : Automaton) (c : Collection) (added : List String) :
    c.names (c.joined a added) = c.names a ++ added := by
  cases c <;> rfl

/-- New names are added one after the other. -/
lemma joined_cons {c : Collection} {name : String} {rest : List String} (h : name ∉ rest) :
    c.joined (c.joined a [name]) rest = c.joined a (name :: rest) := by
  cases c with
  | symbols => simp [joined]
  | states => simp [joined]
  | finals =>
    have hrest : rest.filter (· ∉ a.states ++ [name]) = rest.filter (· ∉ a.states) := by
      refine List.filter_congr fun q hq => ?_
      have hne : q ≠ name := fun heq => h (heq ▸ hq)
      simp [hne]
    by_cases hname : name ∈ a.states
    · simp [joined, hname]
    · simp only [joined, hname, not_false_eq_true, decide_true, List.filter_cons_of_pos,
        List.filter_nil, hrest, List.head?_cons, List.append_assoc, List.singleton_append]
      simp

/-- Final states stay states. -/
lemma finals_subset_joined (h : ∀ q ∈ a.finals, q ∈ a.states) (c : Collection)
    (added : List String) :
    ∀ q ∈ (c.joined a added).finals, q ∈ (c.joined a added).states := by
  intro q hq
  cases c with
  | symbols => exact h q hq
  | states => exact List.mem_append_left _ (h q hq)
  | finals =>
    by_cases hold : q ∈ a.states
    · exact List.mem_append_left _ hold
    · have hadded : q ∈ added := (List.mem_append.1 hq).resolve_left fun hf => hold (h q hf)
      exact List.mem_append_right _ (List.mem_filter.2 ⟨hadded, by simpa using hold⟩)

/-- What is said about a word does not depend on other names that were added. -/
lemma reply_joined {c : Collection} {name : String} {fate : Fate} (h : fate ≠ .added name)
    (line : Option Int) : c.reply (c.joined a [name]) line fate = c.reply a line fate := by
  cases c with
  | symbols => cases fate <;> rfl
  | states => cases fate <;> rfl
  | finals =>
    cases fate with
    | refused word => rfl
    | repeated other => rfl
    | added other =>
      have hne : other ≠ name := fun heq => h (heq ▸ rfl)
      by_cases hname : name ∈ a.states <;> simp [reply, joined, hname, hne]

/-- **A word is answered as a fate demands**: the automaton changes, something is said, and the
command goes on. -/
structure IsAnswered (c : Collection) (a : Automaton) (line : Option Int) (word : String)
    (fate : Fate) : Prop where
  state : (c.step a word).state = c.joined a fate.added?.toList
  output : (c.step a word).output.map (·.message line) = c.reply a line fate
  failure : (c.step a word).failure = none

section

variable {c : Collection} {line : Option Int} {word : String} {fate : Fate}

lemma isAnswered_of_say {d : Diagnostic} (hstep : c.step a word = { state := a, output := [d] })
    (hfate : fate.added? = none) (hreply : [d.message line] = c.reply a line fate) :
    c.IsAnswered a line word fate where
  state := by simp [hstep, hfate, joined_nil]
  output := by rw [hstep, ← hreply, List.map_singleton]
  failure := by rw [hstep]

lemma isAnswered_of_quiet (hstep : c.step a word = .done (c.joined a fate.added?.toList))
    (hreply : c.reply a line fate = []) : c.IsAnswered a line word fate where
  state := by rw [hstep, Outcome.done]
  output := by rw [hstep, hreply, Outcome.done, List.map_nil]
  failure := by rw [hstep, Outcome.done]

/-- The three fates of a word, one at a time. -/
lemma isAnswered_of_cases
    (hrefused : c.isName word = false → c.IsAnswered a line word (.refused word))
    (hrepeated : c.isName word = true → declaredName word ∈ c.names a →
      c.IsAnswered a line word (.repeated (declaredName word)))
    (hadded : c.isName word = true → declaredName word ∉ c.names a →
      c.IsAnswered a line word (.added (declaredName word))) :
    c.IsAnswered a line word (fateOf c.isName (c.names a) [] word) := by
  cases hname : c.isName word with
  | false =>
    rw [fateOf_of_refused hname]
    exact hrefused hname
  | true =>
    by_cases hold : declaredName word ∈ c.names a
    · rw [fateOf_nil_of_mem hname hold]
      exact hrepeated hname hold
    · rw [fateOf_nil_of_not_mem hname hold]
      exact hadded hname hold

/-- A word of SYMBOLS. -/
lemma isAnswered_symbols (hword : IsUnblank word) (a : Automaton) (line : Option Int) :
    symbols.IsAnswered a line word (fateOf symbols.isName (symbols.names a) [] word) := by
  refine isAnswered_of_cases (fun hname => ?refused) (fun hname hold => ?repeated)
    fun hname hnew => ?added
  case refused =>
    have hinvalid : (!Automaton.isSymbolWord word) = true := by
      rw [Bool.not_eq_true']
      exact hname
    refine isAnswered_of_quiet ?_ rfl
    exact (if_pos hinvalid).trans (congrArg Outcome.done (joined_nil a symbols).symm)
  case repeated =>
    exact isAnswered_of_say
      (Automaton.takesInOnce_declareSymbol.names a word hname (List.contains_iff_mem.2 hold))
      rfl rfl
  case added =>
    refine isAnswered_of_quiet ?_ rfl
    have hsymbol : Automaton.isSymbolWord word = true := hname
    have hfresh : ¬ a.hasSymbol (stripPunctuation word) = true :=
      fun h => hnew (List.contains_iff_mem.1 h)
    obtain ⟨x, hx, hsingle⟩ := hword.exists_symbol hname
    have hupper : declaredName word = String.singleton x.toUpper := by
      rw [declaredName, hsingle, upper_singleton hx]
    have hadd : a.addSymbols [String.singleton x] = symbols.joined a [declaredName word] := by
      rw [hupper] at hnew ⊢
      simp only [Automaton.addSymbols, List.flatMap_singleton, String.toList_singleton,
        List.foldl_cons, List.foldl_nil, Automaton.addSymbolChar, hx, if_true]
      exact if_neg fun h => hnew (List.contains_iff_mem.1 h)
    rw [step, Automaton.declareSymbol, hsymbol, if_neg hfresh, hsingle, hadd]
    rfl

/-- A word of STATES. -/
lemma isAnswered_states (a : Automaton) (line : Option Int) :
    states.IsAnswered a line word (fateOf states.isName (states.names a) [] word) := by
  refine isAnswered_of_cases (fun hname => ?refused) (fun hname hold => ?repeated)
    fun hname hnew => ?added
  case refused =>
    have hinvalid : isStateName (stripPunctuation word) = false := hname
    refine isAnswered_of_say (d := .invalidStateName word) ?_ rfl rfl
    simp [step, Automaton.declareState, Automaton.say, hinvalid]
  case repeated =>
    exact isAnswered_of_say (Automaton.takesInOnce_declareState.names a word hname hold) rfl rfl
  case added =>
    have hvalid : isStateName (stripPunctuation word) = true := hname
    have hfresh : ¬ a.hasState (stripPunctuation word) = true :=
      fun h => hnew (List.contains_iff_mem.1 h)
    have hadd : Automaton.settle (a.addStates [stripPunctuation word])
        = .done (a.ensureState (declaredName word)) := by
      rw [Automaton.addStates, canonicalName_of_isStateName hvalid]
      rfl
    refine isAnswered_of_quiet ?_ rfl
    rw [step, Automaton.declareState, hvalid, if_neg hfresh, hadd,
      Automaton.ensureState_of_not_mem hnew]
    rfl

/-- A word of FINAL-STATES. -/
lemma isAnswered_finals (hfinals : ∀ q ∈ a.finals, q ∈ a.states) (line : Option Int) :
    finals.IsAnswered a line word (fateOf finals.isName (finals.names a) [] word) := by
  refine isAnswered_of_cases (fun hname => ?refused) (fun hname hold => ?repeated)
    fun hname hnew => ?added
  case refused =>
    have hinvalid : isStateName (stripPunctuation word) = false := hname
    refine isAnswered_of_say (d := .invalidStateName word) ?_ rfl rfl
    simp [step, Automaton.declareFinal, Automaton.say, hinvalid]
  case repeated =>
    exact isAnswered_of_say
      (Automaton.takesInOnce_declareFinal.names a word hname ⟨hfinals _ hold, hold⟩) rfl rfl
  case added =>
    have hvalid : isStateName (stripPunctuation word) = true := hname
    have hadd : ∀ b : Automaton, Automaton.settle (b.addFinalStates [stripPunctuation word])
        = .done (b.ensureFinal (declaredName word)) := by
      intro b
      rw [Automaton.addFinalStates, canonicalName_of_isStateName hvalid]
      rfl
    by_cases hdeclared : declaredName word ∈ a.states
    · have hstate : a.hasState (stripPunctuation word) = true := List.contains_iff_mem.2 hdeclared
      have hfresh : ¬ a.isFinal (stripPunctuation word) = true :=
        fun h => hnew (List.contains_iff_mem.1 h)
      refine isAnswered_of_quiet ?_ (if_pos hdeclared)
      rw [step, Automaton.declareFinal, hvalid, hstate, if_neg hfresh, hadd,
        Automaton.ensureFinal_of_not_mem hdeclared hnew]
      simp [joined, Fate.added?, hdeclared]
    · have hstate : a.hasState (stripPunctuation word) = false := by
        simpa [Automaton.hasState, declaredName] using hdeclared
      have hstep : a.declareFinal word
          = { state := a.ensureFinal (declaredName word)
              output := [.stateImplied (declaredName word)] } := by
        rw [Automaton.declareFinal, hvalid, hstate, Outcome.andThen_of_failure_eq_none rfl]
        simp [Automaton.say, hadd, Outcome.done, declaredName]
      have hensure : a.ensureFinal (declaredName word)
          = finals.joined a [declaredName word] := by
        rw [Automaton.ensureFinal, Automaton.ensureState_of_not_mem hdeclared]
        simp only [List.contains_iff_mem]
        exact (if_neg hnew).trans (by simp [joined, hdeclared])
      constructor <;> rw [step, hstep]
      · exact hensure
      · exact (if_neg hdeclared).symm

/-- **One word of a command** changes the automaton, and is answered, as its fate demands. -/
lemma isAnswered_step (hfinals : ∀ q ∈ a.finals, q ∈ a.states) (hword : IsUnblank word)
    (c : Collection) (line : Option Int) :
    c.IsAnswered a line word (fateOf c.isName (c.names a) [] word) := by
  cases c with
  | symbols => exact isAnswered_symbols hword a line
  | states => exact isAnswered_states a line
  | finals => exact isAnswered_finals hfinals line

/-! ## All words -/

/-- What the words behind one add comes behind what it added. -/
lemma joined_fates (held words : List String)
    (hheld : ∀ q ∈ fate.added?, q ∈ held) :
    c.joined (c.joined a fate.added?.toList)
        ((fatesOf c.isName held words).filterMap Fate.added?)
      = c.joined a ((fate :: fatesOf c.isName held words).filterMap Fate.added?) := by
  cases hname : fate.added? with
  | none => rw [List.filterMap_cons_none hname, Option.toList_none, joined_nil]
  | some name =>
    rw [List.filterMap_cons_some hname, Option.toList_some, joined_cons]
    intro hmem
    obtain ⟨other, hother, hadded⟩ := List.mem_filterMap.1 hmem
    have hsame : other = .added name := by
      cases other with
      | refused word => cases hadded
      | repeated old => cases hadded
      | added new => rw [Option.some.inj hadded]
    exact not_mem_held_of_added (hsame ▸ hother) (hheld name hname)

/-- What is said about words does not depend on a name that was added in front of them. -/
lemma reply_fates (held words : List String) (hheld : ∀ q ∈ fate.added?, q ∈ held) :
    (fatesOf c.isName held words).flatMap (c.reply (c.joined a fate.added?.toList) line)
      = (fatesOf c.isName held words).flatMap (c.reply a line) := by
  cases hname : fate.added? with
  | none => rw [Option.toList_none, joined_nil]
  | some name =>
    refine List.flatMap_congr fun other hother => reply_joined ?_ line
    rintro rfl
    exact not_mem_held_of_added hother (hheld name hname)

end

/-- **The words of a command**, one after the other, from the automaton in front of them. -/
theorem forEach_step (hfinals : ∀ q ∈ a.finals, q ∈ a.states) {words : List String}
    (hwords : ∀ word ∈ words, IsUnblank word) (c : Collection) (line : Option Int) :
    let fates := fatesOf c.isName (c.names a) words
    let said := Outcome.forEach c.step a words
    said.state = c.joined a (fates.filterMap Fate.added?) ∧
      said.output.map (·.message line) = fates.flatMap (c.reply a line) ∧
      said.failure = none := by
  intro fates said
  induction words generalizing a with
  | nil => exact ⟨(joined_nil a c).symm, rfl, rfl⟩
  | cons word rest ih =>
    rw [List.forall_mem_cons] at hwords
    obtain ⟨hstate, houtput, hfailure⟩ := isAnswered_step hfinals hwords.1 c line
    -- the words behind it go on from the automaton that it leaves
    obtain ⟨ihstate, ihoutput, ihfailure⟩ :=
      ih (finals_subset_joined hfinals c _) hwords.2
    rw [← hstate] at ihstate ihoutput ihfailure
    have hheld : ∀ q ∈ (fateOf c.isName (c.names a) [] word).added?,
        q ∈ c.names a ++ (fateOf c.isName (c.names a) [] word).added?.toList := by
      intro q hq
      exact List.mem_append_right _ (Option.mem_toList.2 hq)
    simp only [said, fates, Outcome.forEach, Outcome.andThen_of_failure_eq_none hfailure,
      fatesOf_cons]
    refine ⟨?_, ?_, ihfailure⟩
    · rw [ihstate, hstate, names_joined, joined_fates _ _ hheld]
    · rw [List.map_append, houtput, ihoutput, hstate, names_joined, reply_fates _ _ hheld,
        List.flatMap_cons]

/-- SYMBOLS names the refused words at the end. -/
lemma closing_symbols (held words : List String) (line : Option Int) :
    (Automaton.notSymbols words).map (·.message line)
      = symbols.closing line ((fatesOf symbols.isName held words).filterMap Fate.refused?) := by
  have hrefused : (fatesOf symbols.isName held words).filterMap Fate.refused?
      = words.filter fun word => !Automaton.isSymbolWord word := filterMap_refused held words
  rw [hrefused, Automaton.notSymbols]
  cases words.filter fun word => !Automaton.isSymbolWord word <;> rfl

/-- **A declaration on an automaton**: its words one after the other, and what is said at the
end. -/
lemma define_eq (hfinals : ∀ q ∈ a.finals, q ∈ a.states) {words : List String} (hne : words ≠ [])
    (hwords : ∀ word ∈ words, IsUnblank word) (c : Collection) (body : List Char)
    (line : Option Int) :
    let fates := fatesOf c.isName (c.names a) words
    let defined := a.define c.keyword words body
    defined.state = c.joined a (fates.filterMap Fate.added?) ∧
      defined.output.map (·.message line)
        = fates.flatMap (c.reply a line) ++ c.closing line (fates.filterMap Fate.refused?) := by
  intro fates defined
  obtain ⟨hstate, houtput, -⟩ := forEach_step hfinals hwords c line
  obtain ⟨word, rest, rfl⟩ := List.exists_cons_of_ne_nil hne
  cases c with
  | symbols =>
    have hdefined : defined = _ := a.declareSymbols_eq_forEach (word :: rest)
    rw [hdefined]
    refine ⟨hstate, ?_⟩
    rw [List.map_append, closing_symbols a.symbols]
    exact congrArg (· ++ _) houtput
  | states => exact ⟨hstate, houtput.trans (List.append_nil _).symm⟩
  | finals => exact ⟨hstate, houtput.trans (List.append_nil _).symm⟩

end Collection

namespace Session

/-- **Every word of a declaration is accounted for once.**  From left to right, each word of
SYMBOLS, STATES or FINAL-STATES is refused, repeated or added, by what was declared before the
command and by the words in front of it.  The added names are put behind the others of their
collection in their order, and nothing else changes but what FINAL-STATES implies and an initial
state that was not set; each word is answered by what its fate calls for, in order; and there are as
many words as there are new names, refused words and repeated ones. -/
theorem process_accounts {s : Session} (hs : s.Reachable) (hopen : s.finished = false)
    {text : String} {command : Command} {c : Collection}
    (hcommand : Command.ofText? (trimCommand text.toList) = some command)
    (hkeyword : Keyword.ofName? command.first = some c.keyword) (hwords : command.words ≠ [])
    (line : Option Int) :
    let a := s.automaton
    let fates := fatesOf c.isName (c.names a) command.words
    let done := s.process text line
    done.failure = none ∧ done.state.finished = false ∧
      done.state.automaton = c.joined a (fates.filterMap Fate.added?) ∧
      done.output
        = fates.flatMap (c.reply a line) ++ c.closing line (fates.filterMap Fate.refused?) ∧
      command.words.length + (c.names a).length
        = (c.names done.state.automaton).length + fates.countP (·.added?.isNone) := by
  intro a fates done
  have hmem : c.keyword ∈ Keyword.definitions := by cases c <;> decide
  obtain ⟨hfailure, hfinished, hautomaton, houtput⟩ :=
    process_definition hopen hcommand hkeyword hmem line
  obtain ⟨hstate, hsaid⟩ := Collection.define_eq hs.wellFormed.finals_subset hwords
    (not_isBlank_of_ofText? hcommand) c command.body line
  have hjoined := hautomaton.trans hstate
  have hlength : command.words.length
      = (fates.filterMap Fate.added?).length + fates.countP (·.added?.isNone) :=
    length_eq_added_add c.isName (c.names a) command.words
  refine ⟨hfailure, hfinished, hjoined, houtput.trans hsaid, ?_⟩
  rw [hjoined, Collection.names_joined, List.length_append, hlength, Nat.add_comm, ← Nat.add_assoc]

/-- A command with a final state that it declares, one that was declared, one that was final, one
that is no name, and two that it has named already. -/
theorem process_accounts_of_finals :
    let begun := (Session.start Config.standard { home := [] }).process "STATES a b" none
    let s := (begun.state.process "FINAL-STATES b" none).state
    let text := "final-states c;, b, x-1; A a; C"
    let done := s.process text (some 4)
    s.finished = false ∧
      fatesOf Collection.finals.isName s.automaton.finals ["c;,", "b,", "x-1;", "A", "a;", "C"]
        = [.added "C", .repeated "B", .refused "x-1;", .added "A", .repeated "A", .repeated "C"] ∧
      done.state.automaton = Collection.finals.joined s.automaton ["C", "A"] ∧
      done.state.automaton.states = ["A", "B", "C"] ∧
      done.state.automaton.finals = ["B", "C", "A"] ∧
      done.output.map Message.severity = [.warning, .warning, .error, .warning, .warning] := by
  intro begun s text done
  have hs : s.Reachable := .process (.process (.start validate_standard _) _ _) _ _
  have hopen : s.finished = false := by decide +kernel
  have hcommand : Command.ofText? (trimCommand text.toList) = some ⟨"final-states",
      ["c;,", "b,", "x-1;", "A", "a;", "C"], "c;, b, x-1; A a; C".toList⟩ := by decide +kernel
  have hkeyword : Keyword.ofName? "final-states" = some Collection.finals.keyword := by
    decide +kernel
  obtain ⟨-, -, hautomaton, -, -⟩ :=
    process_accounts hs hopen hcommand hkeyword (by decide) (some 4)
  have hfates : fatesOf Collection.finals.isName s.automaton.finals
        ["c;,", "b,", "x-1;", "A", "a;", "C"]
      = [.added "C", .repeated "B", .refused "x-1;", .added "A", .repeated "A", .repeated "C"] := by
    decide +kernel
  rw [show Collection.finals.names s.automaton = s.automaton.finals from rfl, hfates] at hautomaton
  exact ⟨hopen, hfates, hautomaton, by decide +kernel, by decide +kernel, by decide +kernel⟩

end Session

end AutomatonShell
