import AutomatonShell.Name
import Mathlib

/-!
# Names and their canonical form

What the two rules for names let through, and what upper case makes of it.  Everything that is
declared passes through `canonicalName` or `canonicalSymbol`, so these facts are where the
invariant of an automaton comes from.

* `isStateName_iff`, `isSymbol_iff` — the rules by the shape of the text: letters and digits, with
  at most one newline behind them.
* **`canonicalName_ok`** — a canonical name is a name in upper case.
* `upper_of_isCapitals` — a text over `A`–`Z` and `0`–`9` is its own upper case.
-/

namespace AutomatonShell

/-- Whether a character is one of `A`–`Z` and `0`–`9`. -/
def IsCapital (c : Char) : Prop := c.isUpper = true ∨ c.isDigit = true

instance : DecidablePred IsCapital := fun c =>
  inferInstanceAs (Decidable (c.isUpper = true ∨ c.isDigit = true))

/-- **A plain name**: one or more of `A`–`Z` and `0`–`9`, and nothing else. -/
def IsPlainName (text : String) : Prop := text ≠ "" ∧ ∀ c ∈ text.toList, IsCapital c

/-! ## Characters -/

lemma isCapital_iff {c : Char} :
    IsCapital c ↔ 'A' ≤ c ∧ c ≤ 'Z' ∨ '0' ≤ c ∧ c ≤ '9' := by
  simp only [IsCapital, Char.isUpper, Char.isDigit, Bool.and_eq_true, decide_eq_true_eq,
    Char.le_def, ge_iff_le]

lemma IsCapital.isAlphanum {c : Char} (h : IsCapital c) : c.isAlphanum = true := by
  rcases h with h | h <;> simp [Char.isAlphanum, Char.isAlpha, h]

lemma IsCapital.isLower_eq_false {c : Char} (h : IsCapital c) : c.isLower = false := by
  simp only [IsCapital, Char.isUpper, Char.isDigit, Bool.and_eq_true, decide_eq_true_eq,
    UInt32.le_iff_toNat_le] at h
  simp only [Char.isLower, Bool.and_eq_false_iff, decide_eq_false_iff_not,
    UInt32.le_iff_toNat_le]
  simp only [Char.reduceVal, UInt32.reduceToNat] at h ⊢
  omega

/-- Upper case turns a letter or digit into one of `A`–`Z` and `0`–`9`. -/
lemma isCapital_toUpper {c : Char} (h : c.isAlphanum = true) : IsCapital c.toUpper := by
  simp only [Char.isAlphanum, Bool.or_eq_true] at h
  rcases h with h | h
  · exact Or.inl (by rw [Char.isUpper_toUpper_eq_isAlpha, h])
  · have hlow : c.isLower = false := IsCapital.isLower_eq_false (Or.inr h)
    rw [Char.toUpper_eq_of_not_isLower (by simp [hlow])]
    exact Or.inr h

/-- A code point beyond ASCII is no letter or digit. -/
lemma toNat_lt_of_isAlphanum {c : Char} (h : c.isAlphanum = true) : c.toNat < 128 := by
  simp only [Char.isAlphanum, Char.isAlpha, Char.isUpper, Char.isLower, Char.isDigit,
    Bool.or_eq_true, Bool.and_eq_true, decide_eq_true_eq, UInt32.le_iff_toNat_le] at h
  simp only [Char.reduceVal, UInt32.reduceToNat, Char.toNat_val] at h
  omega

lemma not_isAlphanum_newline : ('\n' : Char).isAlphanum = false := rfl

namespace Text

/-- An ASCII character in upper case is a single character. -/
lemma upperChar_of_lt {c : Char} (h : c.toNat < 128) : upperChar c = [c.toUpper] := by
  have ne : ∀ d : Char, 128 ≤ d.toNat → c ≠ d := fun d hd he => by subst he; omega
  rw [upperChar]
  split
  · rfl
  · next hlow =>
    rw [if_neg (ne _ (by decide)), if_neg (ne _ (by decide)), if_neg (ne _ (by decide)),
      if_neg (ne _ (by decide)), if_neg (ne _ (by decide)), if_neg (ne _ (by decide)),
      if_neg (ne _ (by decide)), if_neg (ne _ (by decide)), if_neg (ne _ (by decide)),
      if_neg (ne _ (by decide)), Char.toUpper_eq_of_not_isLower hlow]

lemma flatMap_upperChar {text : List Char} (h : ∀ c ∈ text, c.toNat < 128) :
    text.flatMap upperChar = text.map Char.toUpper := by
  induction text with
  | nil => rfl
  | cons c rest ih =>
    rw [List.flatMap_cons, upperChar_of_lt (h c List.mem_cons_self),
      ih fun d hd => h d (List.mem_cons_of_mem c hd)]
    rfl

/-- An ASCII text is brought to upper case character by character. -/
lemma toList_upper {text : String} (h : ∀ c ∈ text.toList, c.toNat < 128) :
    (upper text).toList = text.toList.map Char.toUpper := by
  rw [upper, String.toList_ofList, flatMap_upperChar h]

/-- A text over `A`–`Z` and `0`–`9` is its own upper case. -/
lemma upper_of_isCapitals {text : String} (h : ∀ c ∈ text.toList, IsCapital c) :
    upper text = text := by
  apply String.toList_inj.1
  rw [toList_upper fun c hc => toNat_lt_of_isAlphanum (h c hc).isAlphanum]
  conv_rhs => rw [← List.map_id text.toList]
  refine List.map_congr_left fun c hc => ?_
  exact Char.toUpper_eq_of_not_isLower (by simp [(h c hc).isLower_eq_false])

/-- The one newline that may end a text is all that is dropped from it. -/
lemma eq_withoutFinalNewline (text : List Char) :
    text = withoutFinalNewline text ∨ text = withoutFinalNewline text ++ ['\n'] := by
  rw [withoutFinalNewline]
  split
  · next h => exact Or.inr (List.dropLast_append_getLast? '\n' h).symm
  · exact Or.inl rfl

lemma withoutFinalNewline_append (text : List Char) :
    withoutFinalNewline (text ++ ['\n']) = text := by
  simp [withoutFinalNewline]

lemma withoutFinalNewline_of_isAlphanum {text : List Char} (h : ∀ c ∈ text, c.isAlphanum = true) :
    withoutFinalNewline text = text := by
  rw [withoutFinalNewline]
  rw [if_neg]
  intro hl
  have := h '\n' (List.mem_of_getLast? hl)
  rw [not_isAlphanum_newline] at this
  exact Bool.noConfusion this

end Text

/-! ## The two rules -/

/-- **The rule for state names, by shape.**  One or more letters and digits, and at most one newline
behind them. -/
theorem isStateName_iff {text : String} :
    isStateName text = true ↔ ∃ name : List Char, name ≠ [] ∧ (∀ c ∈ name, c.isAlphanum = true) ∧
      (text.toList = name ∨ text.toList = name ++ ['\n']) := by
  simp only [isStateName, Bool.and_eq_true, Bool.not_eq_true', List.isEmpty_eq_false_iff,
    List.all_eq_true]
  constructor
  · rintro ⟨hne, hall⟩
    exact ⟨_, hne, hall, Text.eq_withoutFinalNewline _⟩
  · rintro ⟨name, hne, hall, htext | htext⟩
    · rw [htext, Text.withoutFinalNewline_of_isAlphanum hall]
      exact ⟨hne, hall⟩
    · rw [htext, Text.withoutFinalNewline_append]
      exact ⟨hne, hall⟩

/-- **The rule for symbols, by shape.**  One letter or digit, and at most one newline behind it. -/
theorem isSymbol_iff {text : String} :
    isSymbol text = true ↔ ∃ c : Char, c.isAlphanum = true ∧
      (text.toList = [c] ∨ text.toList = [c, '\n']) := by
  constructor
  · intro h
    rw [isSymbol] at h
    split at h
    · next c hc =>
      have := Text.eq_withoutFinalNewline text.toList
      rw [hc] at this
      exact ⟨c, h, this⟩
    · simp at h
  · rintro ⟨c, hc, htext | htext⟩
    · have : Text.withoutFinalNewline [c] = [c] :=
        Text.withoutFinalNewline_of_isAlphanum (by simpa using hc)
      simp [isSymbol, htext, this, hc]
    · have : Text.withoutFinalNewline ([c] ++ ['\n']) = [c] := Text.withoutFinalNewline_append [c]
      simp only [List.cons_append, List.nil_append] at this
      simp [isSymbol, htext, this, hc]

lemma IsPlainName.isStateName {text : String} (h : IsPlainName text) : isStateName text = true := by
  refine isStateName_iff.2 ⟨text.toList, ?_, fun c hc => (h.2 c hc).isAlphanum, Or.inl rfl⟩
  exact fun he => h.1 (String.toList_eq_nil_iff.1 he)

lemma IsPlainName.upper {text : String} (h : IsPlainName text) : Text.upper text = text :=
  Text.upper_of_isCapitals h.2

lemma mem_or_eq_newline {text name : List Char} (h : text = name ∨ text = name ++ ['\n']) {c : Char}
    (hc : c ∈ text) : c ∈ name ∨ c = '\n' := by
  rcases h with rfl | rfl
  · exact Or.inl hc
  · rwa [List.mem_append, List.mem_singleton] at hc

/-- The rule for state names takes ASCII only. -/
lemma toNat_lt_of_isStateName {text : String} (h : isStateName text = true) :
    ∀ c ∈ text.toList, c.toNat < 128 := by
  obtain ⟨name, -, hall, htext⟩ := isStateName_iff.1 h
  intro c hc
  rcases mem_or_eq_newline htext hc with hc | rfl
  · exact toNat_lt_of_isAlphanum (hall c hc)
  · decide

/-! ## Canonical names -/

lemma upper_stateName {text : String} (h : isStateName text = true) :
    ∃ name : List Char, name ≠ [] ∧ (∀ c ∈ name, IsCapital c) ∧
      ((Text.upper text).toList = name ∨ (Text.upper text).toList = name ++ ['\n']) := by
  obtain ⟨name, hne, hall, htext⟩ := isStateName_iff.1 h
  refine ⟨name.map Char.toUpper, by simpa using hne, ?_, ?_⟩
  · intro c hc
    obtain ⟨d, hd, rfl⟩ := List.mem_map.1 hc
    exact isCapital_toUpper (hall d hd)
  · rw [Text.toList_upper (toNat_lt_of_isStateName h)]
    rcases htext with htext | htext
    · exact Or.inl (by rw [htext])
    · exact Or.inr (by rw [htext, List.map_append]; rfl)

/-- **Upper case makes a name canonical**: it is still a name, and upper case leaves it alone. -/
theorem isStateName_upper {text : String} (h : isStateName text = true) :
    isStateName (Text.upper text) = true ∧ Text.upper (Text.upper text) = Text.upper text := by
  obtain ⟨name, hne, hall, htext⟩ := upper_stateName h
  refine ⟨isStateName_iff.2 ⟨name, hne, fun c hc => (hall c hc).isAlphanum, htext⟩, ?_⟩
  have himage : ∀ c ∈ (Text.upper text).toList, c.toNat < 128 ∧ c.toUpper = c := by
    intro c hc
    rcases mem_or_eq_newline htext hc with hc | rfl
    · have hcap : IsCapital c := hall c hc
      refine ⟨toNat_lt_of_isAlphanum hcap.isAlphanum, ?_⟩
      exact Char.toUpper_eq_of_not_isLower (by simp [hcap.isLower_eq_false])
    · exact ⟨by decide, by decide⟩
  apply String.toList_inj.1
  rw [Text.toList_upper fun c hc => (himage c hc).1]
  conv_rhs => rw [← List.map_id (Text.upper text).toList]
  exact List.map_congr_left fun c hc => (himage c hc).2

/-- What `canonicalName` returns is a name in upper case. -/
theorem canonicalName_ok {text state : String} (h : canonicalName text = .ok state) :
    isStateName state = true ∧ Text.upper state = state := by
  rw [canonicalName] at h
  split at h
  · next hname =>
    rw [← Except.ok.inj h]
    exact isStateName_upper hname
  · exact nomatch h

lemma canonicalName_of_isStateName {text : String} (h : isStateName text = true) :
    canonicalName text = .ok (Text.upper text) := by
  rw [canonicalName, if_pos h]

lemma canonicalSymbol_of_isSymbol {text : String} (h : isSymbol text = true) :
    canonicalSymbol text = .ok (Text.upper text) := by
  rw [canonicalSymbol, if_pos h]

/-- A canonical name is taken over as it is. -/
lemma canonicalName_self {state : String}
    (h : isStateName state = true ∧ Text.upper state = state) :
    canonicalName state = .ok state := by
  rw [canonicalName_of_isStateName h.1, h.2]

end AutomatonShell
