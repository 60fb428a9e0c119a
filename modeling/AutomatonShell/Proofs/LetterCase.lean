import AutomatonShell.Proofs.Acceptance
import AutomatonShell.Proofs.SideBySide
import AutomatonShell.Proofs.TaskFaults

/-!
# Texts that differ in letter case

What the commands do with a text, done with two texts that differ in nothing but the case of ASCII
letters.  Nothing that cuts a text up looks at letters, so the two are cut alike; the rules for
names let both through or none; and whatever is looked up or kept is brought to upper case first,
where the two are equal.  So every declaration leaves the same automaton.  What is said may quote
the text, but only in a warning or an error.

* `SameLetters` — texts that differ in letter case.
* `SameLetters.words`, `SameLetters.strip` and their siblings — cutting.
* `upper_eq`, `isSymbol_eq`, `isStateName_eq` — names.
* `SameKind` — things said that differ in their wording at most.
* **`declareTransitions_agree`** and its siblings — the declaration commands.
* `walkFrom_same` — execution.
-/

namespace AutomatonShell

/-! ## Characters -/

/-- Characters that differ in letter case. -/
def SameLetter (c d : Char) : Prop := c.toLower = d.toLower

lemma SameLetter.toUpper_eq {c d : Char} (h : SameLetter c d) : c.toUpper = d.toUpper := by
  rw [← Char.toUpper_toLower_eq_toUpper c, h, Char.toUpper_toLower_eq_toUpper]

/-- Only letters have a case. -/
lemma SameLetter.eq_or_isAlpha {c d : Char} (h : SameLetter c d) :
    c = d ∨ c.isAlpha = true ∧ d.isAlpha = true := by
  have halpha : c.isAlpha = d.isAlpha := by
    rw [← Char.isUpper_toUpper_eq_isAlpha, h.toUpper_eq, Char.isUpper_toUpper_eq_isAlpha]
  by_cases hc : c.isAlpha = true
  · exact Or.inr ⟨hc, halpha ▸ hc⟩
  · have hlower : ∀ e : Char, ¬ e.isAlpha = true → e.toLower = e := fun e he =>
      Char.toLower_eq_of_not_isUpper fun hupper => he (by simp [Char.isAlpha, hupper])
    rw [SameLetter, hlower c hc, hlower d (halpha ▸ hc)] at h
    exact Or.inl h

/-- A class of characters that holds all letters, or none, does not look at their case. -/
lemma SameLetter.congr {p : Char → Bool} {b : Bool} (hp : ∀ c, c.isAlpha = true → p c = b)
    {c d : Char} (h : SameLetter c d) : p c = p d := by
  rcases h.eq_or_isAlpha with rfl | ⟨hc, hd⟩
  · rfl
  · rw [hp c hc, hp d hd]

lemma isAlphanum_of_isAlpha {c : Char} (h : c.isAlpha = true) : c.isAlphanum = true := by
  simp [Char.isAlphanum, h]

lemma isBlank_of_isAlpha {c : Char} (h : c.isAlpha = true) : Text.isBlank c = false := by
  have hbounds : 65 ≤ c.toNat ∧ c.toNat < 128 := by
    refine ⟨?_, toNat_lt_of_isAlphanum (isAlphanum_of_isAlpha h)⟩
    simp only [Char.isAlpha, Char.isUpper, Char.isLower, Bool.or_eq_true, Bool.and_eq_true,
      decide_eq_true_eq, ge_iff_le, UInt32.le_iff_toNat_le, Char.reduceVal, UInt32.reduceToNat,
      Char.toNat_val] at h
    omega
  simp only [Text.isBlank, Bool.or_eq_false_iff, Bool.and_eq_false_iff, decide_eq_false_iff_not,
    beq_eq_false_iff_ne]
  omega

lemma beq_of_isAlpha {mark : Char} (hmark : mark.isAlpha = false) {c : Char}
    (h : c.isAlpha = true) : (c == mark) = false := by
  refine beq_eq_false_iff_ne.2 ?_
  rintro rfl
  rw [hmark] at h
  cases h

lemma SameLetter.upperChar_eq {c d : Char} (h : SameLetter c d) :
    Text.upperChar c = Text.upperChar d := by
  rcases h.eq_or_isAlpha with rfl | ⟨hc, hd⟩
  · rfl
  · rw [Text.upperChar_of_lt (toNat_lt_of_isAlphanum (isAlphanum_of_isAlpha hc)),
      Text.upperChar_of_lt (toNat_lt_of_isAlphanum (isAlphanum_of_isAlpha hd)), h.toUpper_eq]

/-! ## Cutting texts up -/

/-- **Texts that differ in letter case.** -/
def SameLetters (xs ys : List Char) : Prop := List.Forall₂ SameLetter xs ys

lemma sameLetters_iff {xs ys : List Char} :
    SameLetters xs ys ↔ xs.map Char.toLower = ys.map Char.toLower := by
  rw [← List.forall₂_eq_eq_eq, List.forall₂_map_left_iff, List.forall₂_map_right_iff]
  rfl

namespace SameLetters

variable {xs ys : List Char} {p : Char → Bool} {b : Bool}

lemma reverse (h : SameLetters xs ys) : SameLetters xs.reverse ys.reverse :=
  List.forall₂_reverse_iff.2 h

lemma dropWhile (hp : ∀ c, c.isAlpha = true → p c = b) (h : SameLetters xs ys) :
    SameLetters (xs.dropWhile p) (ys.dropWhile p) := by
  induction h with
  | nil => exact .nil
  | cons hc hrest ih =>
    rw [List.dropWhile_cons, List.dropWhile_cons, hc.congr hp]
    split_ifs
    · exact ih
    · exact .cons hc hrest

lemma dropEndWhile (hp : ∀ c, c.isAlpha = true → p c = b) (h : SameLetters xs ys) :
    SameLetters (Text.dropEndWhile p xs) (Text.dropEndWhile p ys) :=
  (h.reverse.dropWhile hp).reverse

lemma strip (h : SameLetters xs ys) : SameLetters (Text.strip xs) (Text.strip ys) :=
  (h.dropWhile fun _ => isBlank_of_isAlpha).dropEndWhile fun _ => isBlank_of_isAlpha

lemma getLast? (h : SameLetters xs ys) (mark : Char) (hmark : mark.isAlpha = false) :
    xs.getLast? = some mark ↔ ys.getLast? = some mark := by
  rw [List.getLast?_eq_head?_reverse, List.getLast?_eq_head?_reverse]
  have hreverse := h.reverse
  generalize xs.reverse = xs at hreverse ⊢
  generalize ys.reverse = ys at hreverse ⊢
  cases hreverse with
  | nil => rfl
  | cons hc _ =>
    have hsame := hc.congr fun c => beq_of_isAlpha hmark
    simpa using congrArg (· = true) hsame

lemma dropLast (h : SameLetters xs ys) : SameLetters xs.dropLast ys.dropLast := by
  rw [← List.reverse_reverse xs, ← List.reverse_reverse ys, List.dropLast_reverse,
    List.dropLast_reverse]
  refine reverse ?_
  have hreverse := h.reverse
  generalize xs.reverse = xs at hreverse ⊢
  generalize ys.reverse = ys at hreverse ⊢
  cases hreverse with
  | nil => exact .nil
  | cons _ hrest => exact hrest

lemma splitOnP (hp : ∀ c, c.isAlpha = true → p c = b) (h : SameLetters xs ys) :
    List.Forall₂ SameLetters (xs.splitOnP p) (ys.splitOnP p) := by
  induction h with
  | nil => exact .cons .nil .nil
  | @cons _ _ xs ys hc _ ih =>
    rw [List.splitOnP_cons_eq_if_modifyHead, List.splitOnP_cons_eq_if_modifyHead, hc.congr hp]
    generalize xs.splitOnP p = parts at ih ⊢
    generalize ys.splitOnP p = parts' at ih ⊢
    split_ifs
    · exact .cons .nil ih
    · cases ih with
      | nil => exact .nil
      | cons hpart hrest => exact .cons (.cons hc hpart) hrest

lemma words (h : SameLetters xs ys) :
    List.Forall₂ SameLetters (Text.words xs) (Text.words ys) := by
  refine List.rel_filter ?_ (h.splitOnP fun _ => isBlank_of_isAlpha)
  intro word word' hword
  cases hword <;> simp

lemma withoutFinalNewline (h : SameLetters xs ys) :
    SameLetters (Text.withoutFinalNewline xs) (Text.withoutFinalNewline ys) := by
  rw [Text.withoutFinalNewline, Text.withoutFinalNewline]
  simp only [h.getLast? '\n' rfl]
  split_ifs
  · exact h.dropLast
  · exact h

lemma trimCommand (h : SameLetters xs ys) :
    SameLetters (trimCommand xs) (AutomatonShell.trimCommand ys) := by
  rw [AutomatonShell.trimCommand, AutomatonShell.trimCommand]
  simp only [h.strip.getLast? ';' rfl]
  split_ifs
  · exact h.strip.dropLast.dropEndWhile fun _ => isBlank_of_isAlpha
  · exact h.strip

end SameLetters

/-! ## Names -/

/-- Names that differ in letter case. -/
def SameName (x y : String) : Prop := SameLetters x.toList y.toList

lemma sameName_ofList {xs ys : List Char} (h : SameLetters xs ys) :
    SameName (String.ofList xs) (String.ofList ys) := by
  rwa [SameName, String.toList_ofList, String.toList_ofList]

section

variable {x y : String} {a : Automaton}

lemma upper_eq (h : SameName x y) : Text.upper x = Text.upper y := by
  rw [SameName] at h
  rw [Text.upper, Text.upper]
  generalize x.toList = xs at h ⊢
  generalize y.toList = ys at h ⊢
  refine congrArg String.ofList ?_
  induction h with
  | nil => rfl
  | cons hc _ ih => rw [List.flatMap_cons, List.flatMap_cons, hc.upperChar_eq, ih]

lemma stripPunctuation_same (h : SameName x y) :
    SameName (stripPunctuation x) (stripPunctuation y) := by
  refine sameName_ofList (SameLetters.dropEndWhile (b := false) (fun c hc => ?_) h)
  rw [beq_of_isAlpha rfl hc, beq_of_isAlpha rfl hc]
  rfl

lemma isSymbol_eq (h : SameName x y) : isSymbol x = isSymbol y := by
  rw [isSymbol, isSymbol]
  have hname := SameLetters.withoutFinalNewline h
  generalize Text.withoutFinalNewline x.toList = xs at hname ⊢
  generalize Text.withoutFinalNewline y.toList = ys at hname ⊢
  rcases hname with _ | ⟨hc, _ | _⟩
  · rfl
  · exact hc.congr fun _ => isAlphanum_of_isAlpha
  · rfl

lemma all_isAlphanum_eq {xs ys : List Char} (h : SameLetters xs ys) :
    xs.all Char.isAlphanum = ys.all Char.isAlphanum := by
  induction h with
  | nil => rfl
  | cons hc _ ih => rw [List.all_cons, List.all_cons, hc.congr fun _ => isAlphanum_of_isAlpha, ih]

lemma isStateName_eq (h : SameName x y) : isStateName x = isStateName y := by
  have hname := SameLetters.withoutFinalNewline h
  rw [isStateName, isStateName, all_isAlphanum_eq hname]
  generalize Text.withoutFinalNewline x.toList = xs at hname ⊢
  generalize Text.withoutFinalNewline y.toList = ys at hname ⊢
  cases hname <;> rfl

lemma hasSymbol_eq (h : SameName x y) : a.hasSymbol x = a.hasSymbol y := by
  rw [Automaton.hasSymbol, Automaton.hasSymbol, upper_eq h]

lemma hasState_eq (h : SameName x y) : a.hasState x = a.hasState y := by
  rw [Automaton.hasState, Automaton.hasState, upper_eq h]

lemma isFinal_eq (h : SameName x y) : a.isFinal x = a.isFinal y := by
  rw [Automaton.isFinal, Automaton.isFinal, upper_eq h]

lemma addSymbols_eq_of_same (h : SameName x y) : a.addSymbols [x] = a.addSymbols [y] := by
  simp only [Automaton.addSymbols, List.flatMap_singleton]
  rw [SameName] at h
  generalize x.toList = xs at h ⊢
  generalize y.toList = ys at h ⊢
  induction h generalizing a with
  | nil => rfl
  | cons hc _ ih =>
    rw [List.foldl_cons, List.foldl_cons, Automaton.addSymbolChar, Automaton.addSymbolChar,
      hc.congr fun _ => isAlphanum_of_isAlpha, hc.toUpper_eq]
    exact ih

lemma canonicalName_eq (h : SameName x y) (hname : isStateName y = true) :
    canonicalName x = canonicalName y := by
  rw [canonicalName_of_isStateName hname,
    canonicalName_of_isStateName ((isStateName_eq h).trans hname), upper_eq h]

end

/-! ## Declarations -/

/-- Things said that differ in their wording at most, and not even there if they are plain
information. -/
def SameKind (d e : Diagnostic) : Prop :=
  d.severity = e.severity ∧ (d.severity = .info → d = e)

lemma sameKind_refl (d : Diagnostic) : SameKind d d := ⟨rfl, fun _ => rfl⟩

lemma sameKind_of_severity {d e : Diagnostic} (severity : Severity) (h : severity ≠ .info)
    (hd : d.severity = severity) (he : e.severity = severity) : SameKind d e :=
  ⟨hd.trans he.symm, fun hinfo => absurd (hd.symm.trans hinfo) h⟩

/-- Errors, whatever their wording. -/
lemma sameKind_of_error {d e : Diagnostic} (hd : d.severity = .error) (he : e.severity = .error) :
    SameKind d e := sameKind_of_severity .error (by decide) hd he

namespace Automaton

open Outcome

variable {a : Automaton}

lemma agree_refl {σ φ : Type} {r : Outcome σ Diagnostic φ} (h : r.failure = none) :
    Agree Eq SameKind r r :=
  ⟨rfl, List.forall₂_same.2 fun _ _ => sameKind_refl _, h, h⟩

lemma agree_say {d e : Diagnostic} (h : SameKind d e) :
    Agree Eq SameKind (a.say d) (a.say e) :=
  ⟨rfl, .cons h .nil, rfl, rfl⟩

lemma declareSymbol_agree {word word' : String} (h : SameName word word') :
    Agree Eq SameKind (a.declareSymbol word) (a.declareSymbol word') := by
  have hname := stripPunctuation_same h
  rw [declareSymbol, declareSymbol, isSymbolWord, isSymbolWord]
  rw [isSymbol_eq hname, hasSymbol_eq hname, upper_eq hname, addSymbols_eq_of_same hname]
  split_ifs <;> exact agree_refl rfl

lemma declareState_agree {word word' : String} (h : SameName word word') :
    Agree Eq SameKind (a.declareState word) (a.declareState word') := by
  have hname := stripPunctuation_same h
  have hfailure := a.declareState_failure word'
  rw [declareState] at hfailure ⊢
  rw [declareState]
  rw [isStateName_eq hname, hasState_eq hname, upper_eq hname]
  split_ifs at hfailure ⊢ with hstate
  · exact agree_say (sameKind_of_error rfl rfl)
  · exact agree_refl rfl
  · rw [Bool.not_eq_true, Bool.not_eq_false'] at hstate
    rw [addStates, canonicalName_eq hname hstate, ← addStates]
    exact agree_refl hfailure

lemma declareInitial_agree {word word' : String} (h : SameName word word') :
    Agree Eq SameKind (a.declareInitial word) (a.declareInitial word') := by
  have hname := stripPunctuation_same h
  have hfailure := a.declareInitial_failure word'
  rw [declareInitial] at hfailure ⊢
  rw [declareInitial]
  rw [isStateName_eq hname, hasState_eq hname, upper_eq hname]
  by_cases hstate : isStateName (stripPunctuation word') = true
  · simp only [hstate, Bool.not_true, Bool.false_eq_true, if_false, setInitialState,
      canonicalName_eq hname hstate] at hfailure ⊢
    exact agree_refl hfailure
  · simp only [hstate, Bool.not_false, if_true]
    exact agree_say (sameKind_of_error rfl rfl)

lemma declareFinal_agree {word word' : String} (h : SameName word word') :
    Agree Eq SameKind (a.declareFinal word) (a.declareFinal word') := by
  have hname := stripPunctuation_same h
  have hfailure := a.declareFinal_failure word'
  rw [declareFinal] at hfailure ⊢
  rw [declareFinal]
  rw [isStateName_eq hname, hasState_eq hname, isFinal_eq hname, upper_eq hname]
  by_cases hstate : isStateName (stripPunctuation word') = true
  · simp only [hstate, Bool.not_true, Bool.false_eq_true, if_false, addFinalStates,
      canonicalName_eq hname hstate] at hfailure ⊢
    exact agree_refl hfailure
  · simp only [hstate, Bool.not_false, if_true]
    exact agree_say (sameKind_of_error rfl rfl)

/-- **Words that differ in letter case declare the same**, one after the other. -/
lemma agree_forEach (step : Automaton → String → Declaration)
    (hstep : ∀ a word word', SameName word word' →
      Agree Eq SameKind (step a word) (step a word'))
    {words words' : List String} (h : List.Forall₂ SameName words words') :
    Agree Eq SameKind (Outcome.forEach step a words) (Outcome.forEach step a words') :=
  Agree.forEach (R := Eq) (fun _ _ _ _ ha hword => ha ▸ hstep _ _ _ hword) rfl h

lemma declareSymbols_agree {words words' : List String} (h : List.Forall₂ SameName words words') :
    Agree Eq SameKind (a.declareSymbols words) (a.declareSymbols words') := by
  rw [declareSymbols, declareSymbols]
  refine (agree_forEach declareSymbol (fun _ _ _ => declareSymbol_agree) h).andThen fun hstate => ?_
  rw [hstate]
  have hinvalid : List.Forall₂ SameName (words.filter fun word => !isSymbolWord word)
      (words'.filter fun word => !isSymbolWord word) := by
    refine List.rel_filter (fun word word' hword => ?_) h
    simp only [isSymbolWord, isSymbol_eq (stripPunctuation_same hword)]
  dsimp only
  generalize (words.filter fun word => !isSymbolWord word) = invalid at hinvalid ⊢
  generalize (words'.filter fun word => !isSymbolWord word) = invalid' at hinvalid ⊢
  cases hinvalid with
  | nil => exact agree_done rfl
  | cons _ _ => exact agree_say (sameKind_of_severity .warning (by decide) rfl rfl)

lemma declareStates_agree {words words' : List String} (h : List.Forall₂ SameName words words') :
    Agree Eq SameKind (a.declareStates words) (a.declareStates words') :=
  agree_forEach declareState (fun _ _ _ => declareState_agree) h

lemma declareFinals_agree {words words' : List String} (h : List.Forall₂ SameName words words') :
    Agree Eq SameKind (a.declareFinals words) (a.declareFinals words') :=
  agree_forEach declareFinal (fun _ _ _ => declareFinal_agree) h

/-! ## Transitions -/

lemma undeclaredStates_same {source source' target target' : String}
    (hsource : SameName source source') (htarget : SameName target target') :
    List.Forall₂ SameName (a.undeclaredStates source target)
      (a.undeclaredStates source' target') := by
  refine List.rel_filter (fun name name' hname => ?_) (.cons hsource (.cons htarget .nil))
  simp only [isStateName_eq hname, hasState_eq hname]

/-- A group whose names are all declared describes a transition. -/
lemma of?_of_undeclaredStates {symbol source target : String} (hsymbol : isSymbol symbol = true)
    (h : a.undeclaredStates source target = []) :
    Transition.of? symbol source target
      = .ok ⟨Text.upper symbol, Text.upper source, Text.upper target⟩ := by
  have hnames := List.filter_eq_nil_iff.1 h
  have hsource := hnames source (by simp)
  have htarget := hnames target (by simp)
  simp only [Bool.or_eq_true, Bool.not_eq_true', not_or, Bool.not_eq_false] at hsource htarget
  exact Transition.of?_eq_ok.2 ⟨hsymbol, hsource.1, htarget.1, rfl⟩

lemma stageGroup_agree {batch : List Transition} {group group' : List Char}
    (h : SameLetters group group') :
    Agree Eq SameKind (a.stageGroup batch group) (a.stageGroup batch group') := by
  have hwords : List.Forall₂ SameName
      ((Text.words group).map fun word => stripPunctuation (String.ofList word))
      ((Text.words group').map fun word => stripPunctuation (String.ofList word)) :=
    List.rel_map (fun _ _ hword => stripPunctuation_same (sameName_ofList hword)) h.words
  rw [stageGroup, stageGroup]
  generalize ((Text.words group).map fun word => stripPunctuation (String.ofList word)) = parts
    at hwords ⊢
  generalize ((Text.words group').map fun word => stripPunctuation (String.ofList word)) = parts'
    at hwords ⊢
  have hmalformed : ∀ {group group' : String}, Agree Eq SameKind
      ({ state := batch, output := [.malformedTransition group] } :
        Outcome (List Transition) Diagnostic ModelError)
      ({ state := batch, output := [.malformedTransition group'] } :
        Outcome (List Transition) Diagnostic ModelError) :=
    ⟨rfl, .cons (sameKind_of_error rfl rfl) .nil, rfl, rfl⟩
  rcases hwords with
    _ | ⟨hsymbol, _ | @⟨source, _, _, _, hsource, _ | @⟨target, _, _, _, htarget, _ | _⟩⟩⟩
  · exact agree_done rfl
  · exact hmalformed
  · exact hmalformed
  · dsimp only
    rw [isSymbol_eq hsymbol, hasSymbol_eq hsymbol]
    split_ifs with hundeclared
    · exact ⟨rfl, .cons (sameKind_of_error rfl rfl) .nil, rfl, rfl⟩
    · simp only [Bool.or_eq_true, Bool.not_eq_true', not_or, Bool.not_eq_false] at hundeclared
      have hvalid := hundeclared.1
      have hnames := undeclaredStates_same (a := a) hsource htarget
      cases hnone : a.undeclaredStates source target with
      | nil =>
        rw [hnone] at hnames
        rw [List.forall₂_nil_left_iff.1 hnames,
          of?_of_undeclaredStates ((isSymbol_eq hsymbol).trans hvalid) hnone,
          of?_of_undeclaredStates hvalid (List.forall₂_nil_left_iff.1 hnames), upper_eq hsymbol,
          upper_eq hsource, upper_eq htarget]
        exact agree_refl rfl
      | cons name names =>
        rw [hnone] at hnames
        obtain ⟨name', names', -, hrest, hsome⟩ := List.forall₂_cons_left_iff.1 hnames
        rw [hsome]
        exact ⟨rfl, .cons (sameKind_of_error rfl rfl)
          (List.rel_map (fun _ _ _ => sameKind_of_error rfl rfl) hrest), rfl, rfl⟩
  · exact hmalformed

/-- **Groups that differ in letter case** declare the same transitions. -/
lemma declareTransitions_agree {body body' : List Char} (h : SameLetters body body') :
    Agree Eq SameKind (a.declareTransitions body) (a.declareTransitions body') := by
  have hgroups : List.Forall₂ SameLetters (body.splitOn ',') (body'.splitOn ',') :=
    h.splitOnP fun _ => beq_of_isAlpha rfl
  have hstaged : Agree Eq SameKind (Outcome.forEach a.stageGroup [] (body.splitOn ','))
      (Outcome.forEach a.stageGroup [] (body'.splitOn ',')) :=
    Agree.forEach (R := Eq) (fun _ _ _ _ hbatch hgroup => hbatch ▸ stageGroup_agree hgroup) rfl
      hgroups
  have hfailure := a.declareTransitions_failure body
  simp only [declareTransitions, hstaged.completed, hstaged.completed', hstaged.state]
    at hfailure ⊢
  exact ⟨rfl, hstaged.output, hfailure, hfailure⟩

/-! ## Execution -/

lemma upper_singleton_eq {c d : Char} (h : SameLetter c d) :
    Text.upper (String.singleton c) = Text.upper (String.singleton d) :=
  upper_eq (by rw [SameName, String.toList_singleton, String.toList_singleton]; exact .cons h .nil)

/-- Characters that differ in letter case lead to the same state, or both nowhere. -/
lemma next_same {c d : Char} (h : SameLetter c d) (q : String) :
    a.next q c = a.next q d ∨ ∃ e e', a.next q c = .error e ∧ a.next q d = .error e' := by
  rw [next, next, hasSymbol, hasSymbol, transitionFor, transitionFor, upper_singleton_eq h]
  split_ifs
  · exact Or.inr ⟨_, _, rfl, rfl⟩
  · split
    · exact Or.inr ⟨_, _, rfl, rfl⟩
    · exact Or.inl rfl

lemma visits_same {text text' : List Char} (h : SameLetters text text') (q : String) :
    a.visits q text = a.visits q text' ∨
      ∃ e e', a.visits q text = .error e ∧ a.visits q text' = .error e' := by
  induction h generalizing q with
  | nil => exact Or.inl rfl
  | cons hc _ ih =>
    rw [visits, visits]
    rcases next_same hc q with hnext | ⟨e, e', hnext, hnext'⟩
    · rw [hnext]
      split
      · exact Or.inl rfl
      · next reached _ =>
        rcases ih reached with hrest | ⟨e, e', hrest, hrest'⟩
        · exact Or.inl (by rw [hrest])
        · exact Or.inr ⟨e, e', by rw [hrest]; rfl, by rw [hrest']; rfl⟩
    · rw [hnext, hnext']
      exact Or.inr ⟨e, e', rfl, rfl⟩

/-- **Runs on texts that differ in letter case** end alike. -/
lemma walkFrom_same {text text' : List Char} (h : SameLetters text text') (q : String) :
    SameKind (a.walkFrom q text).diagnostic (a.walkFrom q text').diagnostic := by
  rw [walkFrom, walkFrom]
  rcases visits_same (a := a) h q with hvisits | ⟨e, e', hvisits, hvisits'⟩
  · rw [hvisits]
    exact sameKind_refl _
  · rw [hvisits, hvisits']
    exact sameKind_of_error rfl rfl

end Automaton

end AutomatonShell
