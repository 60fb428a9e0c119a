import AutomatonShell.Proofs.DefinedSessions

/-!
# Texts on one line

What a diagnostic says is a fixed wording around parts that it is given: words, names of states, a
name of a file, a group of words, a line of a listing, or the wording of an error.  The wording
itself has no newline, so a message is on one line just when its parts are (`isLine_message_iff`).

Of the parts that the commands on an automaton give, words are cut at blanks, and the names that are
stored are made of words.  Only a group of TRANSITIONS is shown as it was written, and it is shown
just when it has not three words (`IsBroken`).

* `IsLine` — a text on one line.
* `Diagnostic.parts`, **`isLine_message_iff`** — what a message is put together from.
* `Outcome.Says`, `Outcome.Says.forEach` — what is said on the way through a list.
* `Automaton.says_stageGroup`, `malformed_mem_declareTransitions` — groups.
* **`Automaton.says_define`** — what the commands on an automaton say.
-/

namespace AutomatonShell

/-- **A text on one line.** -/
def IsLine (text : String) : Prop := '\n' ∉ text.toList

instance (text : String) : Decidable (IsLine text) := inferInstanceAs (Decidable (_ ∉ _))

section

variable {first second text : String} {texts : List String}

@[simp] lemma isLine_append : IsLine (first ++ second) ↔ IsLine first ∧ IsLine second := by
  simp [IsLine, not_or]

lemma isLine_ofList {chars : List Char} : IsLine (String.ofList chars) ↔ '\n' ∉ chars := by
  rw [IsLine, String.toList_ofList]

/-- A part with a wording in front of it. -/
lemma isLine_behind {front : List Char} (hfront : '\n' ∉ front) :
    IsLine (String.ofList front ++ text) ↔ IsLine text := by
  rw [isLine_append, isLine_ofList, and_iff_right hfront]

/-- A part with a wording around it. -/
lemma isLine_between {front back : List Char} (hfront : '\n' ∉ front) (hback : '\n' ∉ back) :
    IsLine (String.ofList front ++ text ++ String.ofList back) ↔ IsLine text := by
  rw [isLine_append, isLine_behind hfront, isLine_ofList, and_iff_left hback]

/-- Texts on one line, with such a text between them. -/
lemma isLine_intercalate {sep : String} (hsep : IsLine sep) :
    IsLine (String.intercalate sep texts) ↔ ∀ t ∈ texts, IsLine t := by
  simp only [IsLine, String.toList_intercalate] at hsep ⊢
  induction texts with
  | nil => simp
  | cons t rest ih =>
    cases rest with
    | nil => simp
    | cons u rest =>
      rw [List.map_cons, List.map_cons, List.intercalate_cons_cons, ← List.map_cons,
        List.forall_mem_cons, ← ih]
      simp [hsep, not_or]

/-- A text without blanks is on one line. -/
lemma isLine_of_not_isBlank (h : ∀ c ∈ text.toList, Text.isBlank c = false) : IsLine text :=
  fun hmem => absurd (h '\n' hmem) (by decide)

lemma IsLine.stripPunctuation (h : IsLine text) : IsLine (stripPunctuation text) :=
  fun hmem => h (mem_of_mem_stripPunctuation hmem)

lemma IsPlainName.isLine (h : IsPlainName text) : IsLine text :=
  fun hmem => absurd (h.2 '\n' hmem) (by decide)

lemma isLine_repr (n : Int) : IsLine n.repr := by
  have hdigits : ∀ m : Nat, IsLine (Nat.repr m) := by
    intro m hmem
    rw [Nat.repr, String.toList_ofList] at hmem
    exact absurd (Nat.isDigit_of_mem_toDigits (by decide) (by decide) hmem) (by decide)
  cases n with
  | ofNat m => exact hdigits m
  | negSucc m => exact isLine_append.2 ⟨by decide, hdigits (m + 1)⟩

end

/-! ## Messages -/

lemma Message.isLine_render_iff {m : Message} : IsLine m.render ↔ IsLine m.text := by
  obtain ⟨severity, text, line⟩ := m
  have hlabel : ∀ severity, IsLine (label severity) := by
    intro severity
    cases severity <;> exact isLine_ofList.2 (by decide)
  have hcolon : IsLine ": " := isLine_ofList.2 (by decide)
  have hopen : IsLine " (line " := isLine_ofList.2 (by decide)
  have hclose : IsLine "): " := isLine_ofList.2 (by decide)
  cases severity with
  | info => cases line <;> rfl
  | warning | error => cases line <;> simp [render, hlabel, hcolon, hopen, hclose, isLine_repr]

lemma Keyword.isLine_name (keyword : Keyword) : IsLine keyword.name := by
  cases keyword <;> exact isLine_ofList.2 (by decide)

lemma Arity.isLine_message (rule : Arity) : IsLine rule.message := by
  cases rule <;> exact isLine_ofList.2 (by decide)

namespace Diagnostic

/-- **The parts of a diagnostic** that its wording is put around. -/
def parts : Diagnostic → List String
  | unknownCommand word | invalidStateName word => [word]
  | declared _ names => names
  | symbolDeclared symbol | undeclaredSymbol symbol => [symbol]
  | invalidSymbols words => words
  | stateDeclared state | stateImplied state | alreadyFinal state | undeclaredState state => [state]
  | malformedTransition group => [group]
  | sameTransition t => [t.symbol, t.source, t.target]
  | overridden t oldTarget => [t.symbol, t.source, oldTarget, t.target]
  | listed line => [line]
  | written file | cannotWrite file | invalidTarget file | compiled file | cannotCreate file
  | cannotOpen file | cannotRead file | loaded file | recursiveLoad file | cannotLog file => [file]
  | ran run => [run.text]
  | runStopped error => [error.message]
  | cannotLoad file error => [file, error.message]
  | unterminated file pending => [file, pending]
  | arity .. | nothingDeclared | nowhereToStart | logStopped | logNotEnabled | terminated => []

/-- **A diagnostic on one line**: its parts are. -/
def OnLine (d : Diagnostic) : Prop := ∀ part ∈ d.parts, IsLine part

section

variable {d : Diagnostic} {front back : List Char} {part : String}

lemma isLine_text_of_none (hparts : d.parts = []) (htext : d.text = String.ofList front)
    (hfront : '\n' ∉ front) : IsLine d.text ↔ d.OnLine := by
  rw [OnLine, hparts, htext, isLine_ofList]
  exact iff_of_true hfront (List.forall_mem_nil _)

lemma isLine_text_of_behind (hparts : d.parts = [part])
    (htext : d.text = String.ofList front ++ part) (hfront : '\n' ∉ front) :
    IsLine d.text ↔ d.OnLine := by
  rw [OnLine, hparts, htext, isLine_behind hfront, List.forall_mem_singleton]

lemma isLine_text_of_between (hparts : d.parts = [part])
    (htext : d.text = String.ofList front ++ part ++ String.ofList back) (hfront : '\n' ∉ front)
    (hback : '\n' ∉ back) : IsLine d.text ↔ d.OnLine := by
  rw [OnLine, hparts, htext, isLine_between hfront hback, List.forall_mem_singleton]

end

lemma isLine_text_iff {d : Diagnostic} : IsLine d.text ↔ d.OnLine := by
  cases d with
  | unknownCommand | symbolDeclared | stateDeclared | stateImplied | alreadyFinal
  | malformedTransition | undeclaredSymbol | undeclaredState | invalidTarget =>
    exact isLine_text_of_between rfl rfl (by decide) (by decide)
  | invalidStateName | written | cannotWrite | compiled | cannotCreate | cannotOpen | cannotRead
  | loaded | recursiveLoad | cannotLog =>
    exact isLine_text_of_behind rfl rfl (by decide)
  | nothingDeclared | nowhereToStart | logStopped | logNotEnabled | terminated =>
    exact isLine_text_of_none rfl rfl (by decide)
  | listed | ran | runStopped => exact List.forall_mem_singleton.symm
  | arity keyword rule =>
    have hspace : IsLine " " := isLine_ofList.2 (by decide)
    exact iff_of_true (isLine_append.2 ⟨isLine_append.2 ⟨keyword.isLine_name, hspace⟩,
      rule.isLine_message⟩) (List.forall_mem_nil _)
  | declared keyword names =>
    have hspace : IsLine " " := isLine_ofList.2 (by decide)
    refine (isLine_intercalate hspace).trans ?_
    rw [List.forall_mem_cons, and_iff_right keyword.isLine_name]
    rfl
  | invalidSymbols words =>
    have hcomma : IsLine ", " := isLine_ofList.2 (by decide)
    have hwords : IsLine (text (invalidSymbols words)) ↔ IsLine (String.intercalate ", " words) :=
      isLine_behind (by decide)
    exact hwords.trans (isLine_intercalate hcomma)
  | sameTransition t =>
    have hspace : IsLine " " := isLine_ofList.2 (by decide)
    have htext : IsLine (text (sameTransition t)) ↔ IsLine t.text :=
      isLine_between (by decide) (by decide)
    rw [htext, Transition.text, isLine_append, isLine_append, isLine_append, isLine_append,
      and_iff_left hspace, and_iff_left hspace, and_assoc]
    simp [OnLine, parts]
  | overridden t oldTarget =>
    have hfront : IsLine "transition " := isLine_ofList.2 (by decide)
    have hspace : IsLine " " := isLine_ofList.2 (by decide)
    have hmiddle : IsLine " overridden: " := isLine_ofList.2 (by decide)
    have harrow : IsLine " -> " := isLine_ofList.2 (by decide)
    have htext : text (overridden t oldTarget) = "transition " ++ t.symbol ++ " " ++ t.source
        ++ " overridden: " ++ oldTarget ++ " -> " ++ t.target := rfl
    simp only [htext, isLine_append, hfront, hspace, hmiddle, harrow, true_and, and_true]
    simp [OnLine, parts, and_assoc]
  | cannotLoad file error =>
    have hcolon : IsLine ": " := isLine_ofList.2 (by decide)
    have hfile : IsLine ("cannot load " ++ file) ↔ IsLine file := isLine_behind (by decide)
    have htext : text (cannotLoad file error) = "cannot load " ++ file ++ ": " ++ error.message :=
      rfl
    rw [htext, isLine_append, isLine_append, hfile, and_iff_left hcolon]
    simp [OnLine, parts]
  | unterminated file pending =>
    have hfile : IsLine ("unterminated command at end of " ++ file) ↔ IsLine file :=
      isLine_behind (by decide)
    have hopen : IsLine ": \"" := isLine_ofList.2 (by decide)
    have hclose : IsLine "\"" := isLine_ofList.2 (by decide)
    have htext : text (unterminated file pending)
        = "unterminated command at end of " ++ file ++ ": \"" ++ pending ++ "\"" := rfl
    rw [htext, isLine_append, isLine_append, isLine_append, hfile, and_iff_left hclose,
      and_iff_left hopen]
    simp [OnLine, parts]

/-- **A message is on one line just when its diagnostic is.** -/
theorem isLine_message_iff {d : Diagnostic} {line : Option Int} :
    IsLine (d.message line).render ↔ d.OnLine :=
  Message.isLine_render_iff.trans isLine_text_iff

end Diagnostic

/-! ## What is said on the way through a list -/

namespace Outcome

variable {σ μ φ α : Type} {first : Outcome σ μ φ} {next : σ → Outcome σ μ φ}
  {step : σ → α → Outcome σ μ φ} {I : σ → Prop} {P : μ → Prop} {xs : List α} {s : σ}

lemma forall_mem_andThen (hfirst : ∀ m ∈ first.output, P m)
    (hnext : ∀ m ∈ (next first.state).output, P m) : ∀ m ∈ (first.andThen next).output, P m := by
  cases h : first.failure with
  | some reason => rwa [andThen_of_failure_eq_some h]
  | none =>
    rw [andThen_of_failure_eq_none h]
    exact List.forall_mem_append.2 ⟨hfirst, hnext⟩

/-- **All that is said on the way through a list**, where `I` is what a step finds and leaves
behind. -/
lemma forall_mem_forEach
    (hstep : ∀ s, ∀ x ∈ xs, I s → I (step s x).state ∧ ∀ m ∈ (step s x).output, P m) (h : I s) :
    ∀ m ∈ (forEach step s xs).output, P m := by
  induction xs generalizing s with
  | nil => exact List.forall_mem_nil P
  | cons x rest ih =>
    obtain ⟨hstate, hsaid⟩ := hstep s x List.mem_cons_self h
    exact forall_mem_andThen hsaid (ih (fun s y hy => hstep s y (List.mem_cons_of_mem x hy)) hstate)

/-- What a step says is not lost if no step stops. -/
lemma mem_forEach {x : α} {m : μ} (hfailure : ∀ s x, (step s x).failure = none) (hx : x ∈ xs)
    (hm : ∀ s, m ∈ (step s x).output) (s : σ) : m ∈ (forEach step s xs).output := by
  induction xs generalizing s with
  | nil => cases hx
  | cons y rest ih =>
    rw [forEach, andThen_of_failure_eq_none (hfailure s y)]
    rcases List.mem_cons.1 hx with rfl | hx
    · exact List.mem_append_left _ (hm s)
    · exact List.mem_append_right _ (ih hx _)

end Outcome

/-! ## What the commands on an automaton say -/

/-- **A group that is shown on several lines**: it has not three words, and a newline stands
between some of them. -/
def IsBroken (group : List Char) : Prop :=
  (Text.words group).length ≠ 3 ∧ '\n' ∈ Text.strip group

instance (group : List Char) : Decidable (IsBroken group) :=
  inferInstanceAs (Decidable (_ ∧ _))

namespace Automaton

/-- **An automaton whose names are on one line.** -/
structure HasLineNames (a : Automaton) : Prop where
  wellFormed : a.WellFormed
  plain : a.HasPlainStates

variable {a : Automaton} {word : String} {words : List String} {group : List Char}

lemma HasLineNames.isLine_symbol (h : a.HasLineNames) {symbol : String}
    (hmem : symbol ∈ a.symbols) : IsLine symbol := by
  obtain ⟨c, hc, rfl⟩ := h.wellFormed.symbols_plain symbol hmem
  exact (isPlainName_singleton hc).isLine

lemma HasLineNames.isLine_state (h : a.HasLineNames) {state : String} (hmem : state ∈ a.states) :
    IsLine state := (h.plain state hmem).isLine

/-- A state whose name is on one line has a plain one. -/
lemma HasLineNames.of_isLine (h : a.WellFormed) (hline : ∀ q ∈ a.states, IsLine q) :
    a.HasLineNames := by
  refine ⟨h, fun q hq => ?_⟩
  obtain ⟨hname, hupper⟩ := h.states_canonical q hq
  rw [← hupper]
  rcases isStateName_iff_isName.1 hname with hname | ⟨name, -, heq⟩
  · exact hname.isPlainName_upper
  · exact absurd (hline q hq) (by simp [heq, IsLine])

lemma onLine_declareSymbol (hblank : ∀ c ∈ word.toList, Text.isBlank c = false) (a : Automaton) :
    ∀ d ∈ (a.declareSymbol word).output, d.OnLine := by
  rw [declareSymbol]
  split_ifs with hsymbol
  · exact List.forall_mem_nil _
  · have hname : isStateName (stripPunctuation word) = true :=
      isStateName_of_isSymbol (by simpa [isSymbolWord] using hsymbol)
    exact List.forall_mem_singleton.2
      (List.forall_mem_singleton.2 (isPlainName_of_word hblank hname).isLine)
  · exact List.forall_mem_nil _

lemma onLine_declareSymbols (hwords : ∀ word ∈ words, ∀ c ∈ word.toList, Text.isBlank c = false)
    (a : Automaton) : ∀ d ∈ (a.declareSymbols words).output, d.OnLine := by
  refine Outcome.forall_mem_andThen ?_ ?_
  · exact Outcome.forall_mem_forEach (I := fun _ => True)
      (fun b word hword _ => ⟨trivial, onLine_declareSymbol (hwords word hword) b⟩) trivial
  · dsimp only
    split_ifs
    · exact List.forall_mem_nil _
    · refine List.forall_mem_singleton.2 fun word hword => ?_
      exact isLine_of_not_isBlank (hwords word (List.mem_filter.1 hword).1)

section

variable (hblank : ∀ c ∈ word.toList, Text.isBlank c = false)

include hblank

/-- A word that is no state name is shown as it was written, and one that is a state name under the
name that it gives. -/
lemma onLine_of_word : Diagnostic.OnLine (.invalidStateName word) ∧
    (isStateName (stripPunctuation word) = true →
      IsLine (Text.upper (stripPunctuation word))) :=
  ⟨List.forall_mem_singleton.2 (isLine_of_not_isBlank hblank),
    fun hname => (isPlainName_of_word hblank hname).isLine⟩

lemma onLine_declareState (a : Automaton) : ∀ d ∈ (a.declareState word).output, d.OnLine := by
  obtain ⟨hrefused, hnamed⟩ := onLine_of_word hblank
  rw [declareState]
  split_ifs with hname hold
  · exact List.forall_mem_singleton.2 hrefused
  · exact List.forall_mem_singleton.2 (List.forall_mem_singleton.2 (hnamed (by simpa using hname)))
  · exact List.forall_mem_nil _

lemma onLine_declareInitial (a : Automaton) : ∀ d ∈ (a.declareInitial word).output, d.OnLine := by
  obtain ⟨hrefused, hnamed⟩ := onLine_of_word hblank
  rw [declareInitial]
  split_ifs with hname hold
  · exact List.forall_mem_singleton.2 hrefused
  · exact List.forall_mem_nil _
  · exact List.forall_mem_singleton.2 (List.forall_mem_singleton.2 (hnamed (by simpa using hname)))

lemma onLine_declareFinal (a : Automaton) : ∀ d ∈ (a.declareFinal word).output, d.OnLine := by
  obtain ⟨hrefused, hnamed⟩ := onLine_of_word hblank
  rw [declareFinal]
  split_ifs with hname hnew hold
  · exact List.forall_mem_singleton.2 hrefused
  · exact List.forall_mem_singleton.2 (List.forall_mem_singleton.2 (hnamed (by simpa using hname)))
  · exact List.forall_mem_singleton.2 (List.forall_mem_singleton.2 (hnamed (by simpa using hname)))
  · exact List.forall_mem_nil _

end

/-! ### Groups -/

lemma output_declareTransitions (a : Automaton) (body : List Char) :
    (a.declareTransitions body).output
      = (Outcome.forEach a.stageGroup [] (body.splitOn ',')).output := by
  rw [declareTransitions]
  dsimp only
  split <;> rfl

/-- A transition between declared states, staged in an empty batch. -/
lemma HasLineNames.onLine_stage (h : a.HasLineNames) {t : Transition}
    (hsymbol : t.symbol ∈ a.symbols) (hsource : t.source ∈ a.states)
    (htarget : t.target ∈ a.states) : ∀ d ∈ (a.stage [] t).output, d.OnLine := by
  intro d hd
  obtain ⟨old, hold, rfl⟩ := Option.map_eq_some_iff.1 (Option.mem_toList.1 hd)
  have hfound : a.transitionFor t.symbol t.source = some old := by
    simpa [existing?] using hold
  have hmem : old ∈ a.transitions := List.mem_of_find?_eq_some hfound
  have hsymbol := h.isLine_symbol hsymbol
  have hsource := h.isLine_state hsource
  have htarget := h.isLine_state htarget
  have hold := h.isLine_state (h.wellFormed.transitions_declared old hmem).2.2
  rw [replacement]
  split_ifs
  · simp [Diagnostic.OnLine, Diagnostic.parts, hsymbol, hsource, htarget]
  · simp [Diagnostic.OnLine, Diagnostic.parts, hsymbol, hsource, htarget, hold]

/-- A group that is not broken, staged in an empty batch. -/
lemma HasLineNames.onLine_stageGroup (h : a.HasLineNames) (hgroup : ¬ IsBroken group) :
    ∀ d ∈ (a.stageGroup [] group).output, d.OnLine := by
  have hword : ∀ name ∈ (Text.words group).map fun word => stripPunctuation (String.ofList word),
      IsLine name := by
    intro name hname
    obtain ⟨letters, hletters, rfl⟩ := List.mem_map.1 hname
    refine (isLine_of_not_isBlank ?_).stripPunctuation
    rw [String.toList_ofList]
    exact not_isBlank_of_mem_words hletters
  have hlength : ((Text.words group).map fun word => stripPunctuation (String.ofList word)).length
      = (Text.words group).length := List.length_map _
  rw [stageGroup]
  generalize (Text.words group).map (fun word => stripPunctuation (String.ofList word)) = names
    at hword hlength ⊢
  have hshown : names.length ≠ 3 →
      ∀ d ∈ [Diagnostic.malformedTransition (String.ofList (Text.strip group))], d.OnLine := by
    intro hne
    refine List.forall_mem_singleton.2 (List.forall_mem_singleton.2 (isLine_ofList.2 ?_))
    exact fun hmem => hgroup ⟨hlength ▸ hne, hmem⟩
  -- by the number of words
  rcases names with _ | ⟨symbol, _ | ⟨source, _ | ⟨target, _ | ⟨extra, rest⟩⟩⟩⟩
  · exact List.forall_mem_nil _
  · exact hshown (by simp)
  · exact hshown (by simp)
  · dsimp only
    split_ifs with hsymbol
    · exact List.forall_mem_singleton.2
        (List.forall_mem_singleton.2 (hword symbol List.mem_cons_self))
    · cases hstates : a.undeclaredStates source target with
      | cons name rest =>
        refine List.forall_mem_map.2 fun other hother => List.forall_mem_singleton.2 ?_
        rw [← hstates] at hother
        exact hword other (List.mem_cons_of_mem symbol (List.mem_filter.1 hother).1)
      | nil =>
        simp only [Bool.or_eq_true, Bool.not_eq_true', not_or, Bool.not_eq_false] at hsymbol
        obtain ⟨t, hof, ⟨htsymbol, htsource, httarget⟩, -⟩ :=
          of?_of_checks hsymbol.1 hsymbol.2 hstates
        dsimp only
        rw [hof]
        exact h.onLine_stage htsymbol htsource httarget
  · exact hshown (by simp)

lemma HasLineNames.declareTransitions (h : a.HasLineNames) (body : List Char) :
    (a.declareTransitions body).state.HasLineNames :=
  ⟨h.wellFormed.declareTransitions body, by
    rw [HasPlainStates, states_declareTransitions]
    exact h.plain⟩

/-- **Groups that are not broken** are declared one at a time, in automata whose names are on one
line. -/
lemma HasLineNames.onLine_declareTransitions (h : a.HasLineNames) {body : List Char}
    (hbody : ∀ group ∈ body.splitOn ',', ¬ IsBroken group) :
    ∀ d ∈ (a.declareTransitions body).output, d.OnLine := by
  have hcomma : ∀ group ∈ body.splitOn ',', ',' ∉ group := fun _ => not_mem_of_mem_splitOn
  have hwhole := (a.declareTransitions_intercalate hcomma).1
  rw [List.intercalate_splitOn] at hwhole
  rw [hwhole]
  refine Outcome.forall_mem_forEach (I := HasLineNames) (fun b group hgroup hb => ?_) h
  have hsingle : Outcome.forEach b.stageGroup [] [group] = b.stageGroup [] group :=
    Outcome.andThen_done _
  refine ⟨hb.declareTransitions group, ?_⟩
  rw [output_declareTransitions, List.splitOn_eq_singleton (hcomma group hgroup), hsingle]
  exact hb.onLine_stageGroup (hbody group hgroup)

/-- **A broken group is shown** as it was written. -/
lemma malformed_mem_declareTransitions (a : Automaton) {body : List Char}
    (hgroup : group ∈ body.splitOn ',') (hbroken : IsBroken group) :
    .malformedTransition (String.ofList (Text.strip group))
      ∈ (a.declareTransitions body).output := by
  obtain ⟨hlength, hnewline⟩ := hbroken
  have hne : (Text.words group).length ≠ 0 := by
    intro hzero
    have hblank := Text.words_eq_nil_iff.1 (List.length_eq_zero_iff.1 hzero)
    rw [Text.strip_eq_nil_iff.2 hblank] at hnewline
    cases hnewline
  rw [output_declareTransitions]
  refine Outcome.mem_forEach a.stageGroup_failure hgroup (fun batch => ?_) []
  rw [stageGroup]
  generalize Text.words group = found at hlength hne ⊢
  -- by the number of words
  rcases found with _ | ⟨symbol, _ | ⟨source, _ | ⟨target, _ | ⟨extra, rest⟩⟩⟩⟩
  · exact absurd rfl hne
  · exact List.mem_singleton_self _
  · exact List.mem_singleton_self _
  · exact absurd rfl hlength
  · exact List.mem_singleton_self _

/-- **What a definition command says** is on one line, if it has no broken group. -/
theorem HasLineNames.onLine_define (h : a.HasLineNames)
    (hwords : ∀ word ∈ words, ∀ c ∈ word.toList, Text.isBlank c = false) (keyword : Keyword)
    {body : List Char}
    (hbody : keyword = .transitions → ∀ group ∈ body.splitOn ',', ¬ IsBroken group) :
    ∀ d ∈ (a.define keyword words body).output, d.OnLine := by
  have harity : ∀ keyword rule, ∀ d ∈ (a.say (.arity keyword rule)).output, d.OnLine :=
    fun keyword rule => List.forall_mem_singleton.2 (List.forall_mem_nil _)
  unfold define
  split
  · exact List.forall_mem_singleton.2 fun symbol => h.isLine_symbol
  · exact onLine_declareSymbols hwords a
  · exact List.forall_mem_singleton.2 fun state => h.isLine_state
  · exact Outcome.forall_mem_forEach (I := fun _ => True)
      (fun b word hword _ => ⟨trivial, onLine_declareState (hwords word hword) b⟩) trivial
  · exact harity _ _
  · exact onLine_declareInitial (hwords _ List.mem_cons_self) a
  · exact harity _ _
  · exact harity _ _
  · exact Outcome.forall_mem_forEach (I := fun _ => True)
      (fun b word hword _ => ⟨trivial, onLine_declareFinal (hwords word hword) b⟩) trivial
  · exact h.onLine_declareTransitions (hbody rfl)
  · exact List.forall_mem_nil _
  · exact harity _ _
  · exact List.forall_mem_nil _

/-- **Definition commands keep names on one line.** -/
lemma HasLineNames.define (h : a.HasLineNames)
    (hwords : ∀ word ∈ words, ∀ c ∈ word.toList, Text.isBlank c = false) (keyword : Keyword)
    (body : List Char) : (a.define keyword words body).state.HasLineNames := by
  refine ⟨?_, h.plain.define hwords keyword body⟩
  unfold Automaton.define
  split
  · exact h.wellFormed
  · exact h.wellFormed.declareSymbols words
  · exact h.wellFormed
  · exact h.wellFormed.declareStates words
  · exact h.wellFormed
  · exact h.wellFormed.declareInitial _
  · exact h.wellFormed
  · exact h.wellFormed
  · exact h.wellFormed.declareFinals words
  · exact h.wellFormed.declareTransitions body
  · exact wellFormed_empty
  · exact h.wellFormed
  · exact h.wellFormed

end Automaton

end AutomatonShell
