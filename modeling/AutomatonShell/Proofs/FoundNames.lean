import AutomatonShell.Proofs.CompletedRuns
import AutomatonShell.Proofs.GivenNames
import AutomatonShell.Proofs.LetterCase

/-!
# The names that are found

Names are declared by the rules for ASCII letters and digits, but looked up by their upper case, and
upper case turns some characters beyond ASCII into letters.  These look-alikes are all that sets the
two apart: a text is found if it is found with its look-alikes spelled out (`upper_spelledOut`), and
what is found is a name once they are spelled out (`IsFoundName`).

* `lookAlikes`, `spelledOut` — the characters, and texts without them.
* `toList_upper_eq` — **upper case is ASCII upper case behind spelling out**, for every text.
* `IsFoundName` — what a text that is found looks like.
* **`found_names`** — what symbols, states and transitions are found under, and what is read.
* `exists_found_undeclarable` — texts that are found although they cannot be declared.
-/

namespace AutomatonShell

/-! ## Look-alikes -/

/-- The characters beyond ASCII whose upper case consists of ASCII letters. -/
def lookAlikes : List Char := ['ß', 'ı', 'ſ', 'ﬀ', 'ﬁ', 'ﬂ', 'ﬃ', 'ﬄ', 'ﬅ', 'ﬆ']

/-- A character spelled out, if it is a look-alike. -/
def spell (c : Char) : List Char := if c ∈ lookAlikes then Text.upperChar c else [c]

/-- A text with its look-alikes spelled out in capital letters, and all else as it was. -/
def spelledOut (text : String) : String := String.ofList (text.toList.flatMap spell)

lemma toList_spelledOut (text : String) :
    (spelledOut text).toList = text.toList.flatMap spell := by
  rw [spelledOut, String.toList_ofList]

lemma spell_of_mem {c : Char} (h : c ∈ lookAlikes) : spell c = Text.upperChar c := if_pos h

lemma spell_of_not_mem {c : Char} (h : c ∉ lookAlikes) : spell c = [c] := if_neg h

/-- A look-alike is spelled with capital letters. -/
lemma isCapital_of_mem_lookAlikes :
    ∀ c ∈ lookAlikes, 128 ≤ c.toNat ∧ ∀ d ∈ Text.upperChar c, IsCapital d := by
  have hall : (lookAlikes.all fun c =>
      decide (128 ≤ c.toNat) && (Text.upperChar c).all fun d => decide (IsCapital d)) = true := rfl
  intro c hc
  simpa using List.all_eq_true.1 hall c hc

/-- **Upper case of one character**: what is no look-alike keeps to itself or changes its case. -/
lemma upperChar_eq (c : Char) : Text.upperChar c = (spell c).map Char.toUpper := by
  by_cases hc : c ∈ lookAlikes
  · rw [spell_of_mem hc]
    conv_lhs => rw [← List.map_id (Text.upperChar c)]
    refine List.map_congr_left fun d hd => (Char.toUpper_eq_of_not_isLower ?_).symm
    simp [((isCapital_of_mem_lookAlikes c hc).2 d hd).isLower_eq_false]
  · rw [spell_of_not_mem hc, List.map_singleton]
    simp only [lookAlikes, List.mem_cons, List.not_mem_nil, or_false, not_or] at hc
    obtain ⟨h1, h2, h3, h4, h5, h6, h7, h8, h9, h10⟩ := hc
    rw [Text.upperChar]
    by_cases hlower : c.isLower = true
    · rw [if_pos hlower]
    · rw [if_neg hlower, if_neg h1, if_neg h2, if_neg h3, if_neg h4, if_neg h5, if_neg h6,
        if_neg h7, if_neg h8, if_neg h9, if_neg h10, Char.toUpper_eq_of_not_isLower hlower]

/-- **Upper case is ASCII upper case behind spelling out.** -/
lemma toList_upper_eq (text : String) :
    (Text.upper text).toList = (spelledOut text).toList.map Char.toUpper := by
  rw [Text.upper, String.toList_ofList, toList_spelledOut, List.map_flatMap]
  exact List.flatMap_congr fun c _ => upperChar_eq c

lemma sameName_spelledOut (text : String) : SameName (spelledOut text) (Text.upper text) := by
  rw [SameName, sameLetters_iff, toList_upper_eq, List.map_map]
  exact List.map_congr_left fun c _ => (Char.toLower_toUpper_eq_toLower c).symm

lemma spelledOut_of_forall {text : String} (h : ∀ c ∈ text.toList, c ∉ lookAlikes) :
    spelledOut text = text := by
  apply String.toList_inj.1
  rw [toList_spelledOut, List.flatMap_congr fun c hc => spell_of_not_mem (h c hc),
    List.flatMap_singleton']

lemma not_mem_lookAlikes {c : Char} (h : c.toNat < 128) : c ∉ lookAlikes := fun hc =>
  absurd (isCapital_of_mem_lookAlikes c hc).1 (by omega)

/-- No look-alike is left when a text is spelled out. -/
lemma not_mem_lookAlikes_of_spelledOut {text : String} :
    ∀ c ∈ (spelledOut text).toList, c ∉ lookAlikes := by
  intro c hc
  rw [toList_spelledOut, List.mem_flatMap] at hc
  obtain ⟨d, -, hd⟩ := hc
  by_cases hmem : d ∈ lookAlikes
  · rw [spell_of_mem hmem] at hd
    have hcapital := (isCapital_of_mem_lookAlikes d hmem).2 c hd
    exact not_mem_lookAlikes (toNat_lt_of_isAlphanum hcapital.isAlphanum)
  · rw [spell_of_not_mem hmem, List.mem_singleton] at hd
    rwa [hd]

/-- Spelling out makes no difference to the upper case of a text. -/
lemma upper_spelledOut (text : String) : Text.upper (spelledOut text) = Text.upper text := by
  apply String.toList_inj.1
  rw [toList_upper_eq, toList_upper_eq, spelledOut_of_forall not_mem_lookAlikes_of_spelledOut]

/-! ## What is found -/

/-- **A text that is found where a rule is used to declare**: it is taken by the rule once it is
spelled out, and as it stands exactly if it holds no look-alike. -/
def IsFoundName (rule : String → Bool) (text : String) : Prop :=
  rule (spelledOut text) = true ∧ (rule text = true ↔ ∀ c ∈ text.toList, c ∉ lookAlikes)

/-- **One argument for both rules.**  They do not look at letter case, and take ASCII only. -/
lemma isFoundName_of_upper {rule : String → Bool} (hcase : ∀ x y, SameName x y → rule x = rule y)
    (hascii : ∀ x, rule x = true → ∀ c ∈ x.toList, c.toNat < 128) {text : String}
    (h : rule (Text.upper text) = true) : IsFoundName rule text := by
  have hspelled : rule (spelledOut text) = true := (hcase _ _ (sameName_spelledOut text)).trans h
  refine ⟨hspelled, fun hname c hc => not_mem_lookAlikes (hascii text hname c hc), fun hnone => ?_⟩
  rwa [spelledOut_of_forall hnone] at hspelled

lemma isFoundName_isStateName {name : String} (h : isStateName (Text.upper name) = true) :
    IsFoundName isStateName name :=
  isFoundName_of_upper (fun _ _ => isStateName_eq) (fun _ => toNat_lt_of_isStateName) h

lemma isFoundName_isSymbol {text : String} (h : isSymbol (Text.upper text) = true) :
    IsFoundName isSymbol text :=
  isFoundName_of_upper (fun _ _ => isSymbol_eq)
    (fun _ h => toNat_lt_of_isStateName (isStateName_of_isSymbol h)) h

lemma upperChar_ne_nil (c : Char) : Text.upperChar c ≠ [] := by
  by_cases hc : c ∈ lookAlikes
  · have hall : (lookAlikes.all fun c => !(Text.upperChar c).isEmpty) = true := rfl
    simpa using List.all_eq_true.1 hall c hc
  · rw [upperChar_eq, spell_of_not_mem hc]
    simp

/-- Only a single character has an upper case of one character. -/
lemma eq_singleton_of_upper {text : String} {c : Char}
    (h : Text.upper text = String.singleton c) :
    ∃ d, text = String.singleton d ∧ Text.upperChar d = [c] := by
  have hchars := congrArg String.toList h
  rw [Text.upper, String.toList_ofList, String.toList_singleton] at hchars
  cases htext : text.toList with
  | nil => simp [htext] at hchars
  | cons d rest =>
    rw [htext, List.flatMap_cons, List.append_eq_singleton_iff] at hchars
    rcases hchars with ⟨hd, -⟩ | ⟨hd, hrest⟩
    · exact absurd hd (upperChar_ne_nil d)
    · have hnil : rest = [] := by
        cases rest with
        | nil => rfl
        | cons e _ => simp [upperChar_ne_nil] at hrest
      exact ⟨d, String.toList_inj.1 (by rw [htext, hnil, String.toList_singleton]), hd⟩

/-- **The characters whose upper case is one capital letter or digit.** -/
lemma isAlphanum_or_of_upperChar {c d : Char} (hd : IsCapital d) (h : Text.upperChar c = [d]) :
    c.isAlphanum = true ∨ c = 'ı' ∨ c = 'ſ' := by
  by_cases hc : c ∈ lookAlikes
  · have hall : (lookAlikes.all fun c =>
        (Text.upperChar c).length != 1 || c == 'ı' || c == 'ſ') = true := rfl
    have hshort := List.all_eq_true.1 hall c hc
    rw [h] at hshort
    exact Or.inr (by simpa using hshort)
  · rw [upperChar_eq, spell_of_not_mem hc, List.map_singleton, List.singleton_inj] at h
    have hsame : SameLetter c d := by
      rw [SameLetter, ← h, Char.toLower_toUpper_eq_toLower]
    refine Or.inl ?_
    rw [hsame.congr fun _ => isAlphanum_of_isAlpha]
    exact hd.isAlphanum

namespace Automaton

variable {a : Automaton}

/-- What a symbol is found under: itself in any letter case, or one of two look-alikes. -/
lemma symbol_of_upper_mem (h : a.WellFormed) {text : String} (hmem : Text.upper text ∈ a.symbols) :
    ∃ c : Char, text = String.singleton c ∧ (c.isAlphanum = true ∨ c = 'ı' ∨ c = 'ſ') := by
  obtain ⟨d, hd, hupper⟩ := h.symbols_plain _ hmem
  obtain ⟨c, rfl, hc⟩ := eq_singleton_of_upper hupper
  exact ⟨c, rfl, isAlphanum_or_of_upperChar hd hc⟩

/-- **What names are found under.**  A look-up finds a text exactly if it finds it spelled out.  A
symbol is found under one letter or digit, or under a dotless `ı` or a long `ſ`; states, final
states and the sources of transitions are found under texts that are names once they are spelled
out, and that are names as they stand exactly if they hold no look-alike.  And every character of a
text that is read to its end is a letter or a digit, or one of the same two, and in upper case a
declared symbol. -/
theorem found_names (h : a.Reachable) :
    (∀ symbol name, a.hasSymbol symbol = a.hasSymbol (spelledOut symbol) ∧
      a.hasState name = a.hasState (spelledOut name) ∧
      a.isFinal name = a.isFinal (spelledOut name) ∧
      a.transitionFor symbol name = a.transitionFor (spelledOut symbol) (spelledOut name)) ∧
    (∀ symbol, a.hasSymbol symbol = true →
      IsFoundName isSymbol symbol ∧ (isSymbol symbol = true ∨ symbol = "ı" ∨ symbol = "ſ")) ∧
    (∀ name, a.hasState name = true → IsFoundName isStateName name) ∧
    (∀ name, a.isFinal name = true → IsFoundName isStateName name) ∧
    (∀ symbol name t, a.transitionFor symbol name = some t →
      (IsFoundName isSymbol symbol ∧ (isSymbol symbol = true ∨ symbol = "ı" ∨ symbol = "ſ")) ∧
        IsFoundName isStateName name) ∧
    (∀ text trace accepted, a.run text = .ok (.completed trace accepted) →
      ∀ c ∈ text.toList, Text.upper (String.singleton c) ∈ a.symbols ∧
        (c.isAlphanum = true ∨ c = 'ı' ∨ c = 'ſ')) := by
  have hwf := h.wellFormed
  have hsymbol : ∀ symbol, Text.upper symbol ∈ a.symbols →
      IsFoundName isSymbol symbol ∧ (isSymbol symbol = true ∨ symbol = "ı" ∨ symbol = "ſ") := by
    intro symbol hmem
    obtain ⟨d, hd, hupper⟩ := hwf.symbols_plain _ hmem
    refine ⟨isFoundName_isSymbol (by rw [hupper, isSymbol_singleton hd]), ?_⟩
    obtain ⟨c, rfl, hc | rfl | rfl⟩ := symbol_of_upper_mem hwf hmem
    · exact Or.inl (isSymbol_iff_singleton.2 ⟨c, hc, Or.inl rfl⟩)
    · exact Or.inr (Or.inl rfl)
    · exact Or.inr (Or.inr rfl)
  have hstate : ∀ name, Text.upper name ∈ a.states → IsFoundName isStateName name :=
    fun name hmem => isFoundName_isStateName (hwf.states_canonical _ hmem).1
  refine ⟨fun symbol name => ?_, fun symbol hfound => ?_, fun name hfound => ?_,
    fun name hfound => ?_, fun symbol name t hfound => ?_, fun text trace accepted hrun => ?_⟩
  · simp only [hasSymbol, hasState, isFinal, transitionFor, upper_spelledOut, and_self]
  · exact hsymbol symbol (List.contains_iff_mem.1 hfound)
  · exact hstate name (List.contains_iff_mem.1 hfound)
  · exact hstate name (hwf.finals_subset _ (List.contains_iff_mem.1 hfound))
  · obtain ⟨ht, hkey⟩ := (transitionFor_eq_some hwf).1 hfound
    obtain ⟨hdeclared, hsource, -⟩ := hwf.transitions_declared t ht
    obtain ⟨hkeySymbol, hkeySource⟩ := Prod.mk.inj hkey
    exact ⟨hsymbol symbol (hkeySymbol ▸ hdeclared), hstate name (hkeySource ▸ hsource)⟩
  · obtain ⟨q, -, hvisits, -⟩ := (run_eq_completed hwf).1 hrun
    intro c hc
    have hmem := mem_symbols_of_visits hvisits c hc
    obtain ⟨d, hd, hsingle⟩ := symbol_of_upper_mem hwf hmem
    obtain rfl : c = d := by simpa using congrArg String.toList hd
    exact ⟨hmem, hsingle⟩

/-- Names with look-alikes of one letter and of two, and a text that mixes them with a letter. -/
theorem found_names_of_lookAlikes :
    let a : Automaton :=
      { symbols := ["S", "0"], states := ["FIN", "SS"], initial := some "FIN", finals := ["SS"],
        transitions := [⟨"S", "FIN", "SS"⟩, ⟨"S", "SS", "SS"⟩] }
    a.Reachable ∧ IsFoundName isStateName "ﬁn" ∧
      a.run "sſ" = .ok (.completed ["FIN", "SS", "SS"] true) ∧
      ∀ c ∈ "sſ".toList, c.isAlphanum = true ∨ c = 'ı' ∨ c = 'ſ' := by
  intro a
  have ha : a.Reachable :=
    (((reachable_empty.call (.addSymbols ["s0"])).call (.addStates ["fin"])).call
      (.addFinalStates ["ss"])).call (.addRows [("s", "fin", "ss"), ("s", "ss", "ss")])
  obtain ⟨-, -, hstate, -, -, hread⟩ := found_names ha
  have hrun : a.run "sſ" = .ok (.completed ["FIN", "SS", "SS"] true) := by decide +kernel
  exact ⟨ha, hstate "ﬁn" (by decide +kernel), hrun, fun c hc => (hread _ _ _ hrun c hc).2⟩

/-- Texts that are no names are found as symbol, state, final state and transition, and one of them
is read to its end. -/
theorem exists_found_undeclarable :
    ∃ a : Automaton, a.Reachable ∧
      (a.hasSymbol "ſ" = true ∧ isSymbol "ſ" = false) ∧
      (a.hasState "ß" = true ∧ a.isFinal "ß" = true ∧ isStateName "ß" = false) ∧
      a.transitionFor "ſ" "ß" = some ⟨"S", "SS", "SS"⟩ ∧
      (a.run "ſ" = .ok (.completed ["SS", "SS"] true) ∧ ('ſ' : Char).isAlphanum = false) := by
  refine ⟨_, (((reachable_empty.call (.addSymbols ["s"])).call (.addStates ["ss"])).call
    (.addFinalStates ["ss"])).call (.addRows [("s", "ss", "ss")]), ?_⟩
  decide +kernel

end Automaton

end AutomatonShell
