import AutomatonShell.Proofs.CommandText

/-!
# Cutting texts and stripping their parts

A text is cut at separators and its parts are looked at without the blanks around them.  Two facts
carry what is done with the parts.  Cutting a concatenation cuts both halves and glues the parts at
the seam (`splitOn_append`), so a text that arrives in pieces can be cut as it arrives.  And a text
is its stripped form with blanks on both sides (`exists_blanks_strip`), so whatever does not see
blanks at the ends of a text does not see whether it was stripped.

* **`splitOn_append`** — cutting a concatenation.
* **`exists_blanks_strip`**, `words_strip`, `strip_eq_nil_iff` — a text and its stripped form.
* `isTrimmed_strip` — what is left of a text begins and ends with a character that is no blank.
* `Text.map_strip_splitOn` — parts that are stripped do not show whether the whole was.
* **`Command.ofText?_trimCommand`** — the parts of a command text that begins with a word.
-/

namespace AutomatonShell

variable {α : Type}

/-- **Cutting a concatenation.**  The last part of the first half and the first part of the second
half are one part of the whole. -/
theorem splitOn_append [BEq α] (xs ys : List α) (a : α) :
    (xs ++ ys).splitOn a
      = (xs.splitOn a).dropLast
        ++ (ys.splitOn a).modifyHead ((xs.splitOn a).getLast (List.splitOn_ne_nil a xs) ++ ·) := by
  induction xs with
  | nil =>
    obtain ⟨y, rest, hy⟩ := List.exists_cons_of_ne_nil (List.splitOn_ne_nil a ys)
    simp [hy]
  | cons x xs ih =>
    obtain ⟨p, ps, hp⟩ := List.exists_cons_of_ne_nil (List.splitOn_ne_nil a xs)
    obtain ⟨y, rest, hy⟩ := List.exists_cons_of_ne_nil (List.splitOn_ne_nil a ys)
    rw [List.cons_append, List.splitOn_cons_eq_if_modifyHead, ih]
    simp only [List.splitOn_cons_eq_if_modifyHead x xs, hp, hy, List.modifyHead_cons]
    split_ifs
    · simp
    · cases ps <;> simp

lemma not_mem_of_mem_splitOn {xs part : List Char} {a : Char} (h : part ∈ xs.splitOn a) :
    a ∉ part := by
  suffices ∀ part ∈ xs.splitOn a, a ∉ part from this part h
  clear h
  induction xs with
  | nil => simp
  | cons x xs ih =>
    obtain ⟨p, ps, hp⟩ := List.exists_cons_of_ne_nil (List.splitOn_ne_nil a xs)
    rw [hp, List.forall_mem_cons] at ih
    rw [List.splitOn_cons_eq_if_modifyHead, hp]
    split_ifs with hx
    · simpa using ih
    · have hne : a ≠ x := fun he => hx (by simp [he])
      simpa [hne] using ih

lemma infix_of_mem_intercalate {sep : List Char} {parts : List (List Char)} {part : List Char}
    (h : part ∈ parts) : part <:+: sep.intercalate parts := by
  induction parts with
  | nil => simp at h
  | cons p rest ih =>
    cases rest with
    | nil => simp_all
    | cons q rest =>
      rw [List.intercalate_cons_cons]
      rcases List.mem_cons.1 h with rfl | h
      · exact ⟨[], sep ++ sep.intercalate (q :: rest), by simp⟩
      · exact (ih h).trans (List.suffix_append _ _).isInfix

lemma infix_of_mem_splitOn {xs part : List Char} {a : Char} (h : part ∈ xs.splitOn a) :
    part <:+: xs := by
  have : part <:+: [a].intercalate (xs.splitOn a) := infix_of_mem_intercalate h
  rwa [List.intercalate_splitOn] at this

/-- There is always a last part. -/
lemma exists_splitOn_eq_append (xs : List Char) (a : Char) :
    ∃ init last, xs.splitOn a = init ++ [last] :=
  ⟨_, _, (List.dropLast_append_getLast (List.splitOn_ne_nil a xs)).symm⟩

lemma length_splitOn (xs : List Char) (a : Char) : (xs.splitOn a).length = xs.count a + 1 := by
  induction xs with
  | nil => simp
  | cons x xs ih =>
    rw [List.splitOn_cons_eq_if_modifyHead, List.count_cons]
    split_ifs <;> simp [ih]

namespace Text

/-- Whether a text consists of blanks only. -/
def IsBlankText (text : List Char) : Prop := ∀ c ∈ text, isBlank c = true

lemma words_append_of_isBlankText {before : List Char} (h : IsBlankText before)
    (text : List Char) : words (before ++ text) = words text := by
  induction before with
  | nil => rfl
  | cons c rest ih =>
    rw [List.cons_append, words_cons_blank (h c List.mem_cons_self),
      ih fun d hd => h d (List.mem_cons_of_mem c hd)]

lemma words_eq_nil_of_isBlankText {text : List Char} (h : IsBlankText text) : words text = [] := by
  have := words_append_of_isBlankText h []
  rwa [List.append_nil] at this

lemma words_append_isBlankText {after : List Char} (h : IsBlankText after) (text : List Char) :
    words (text ++ after) = words text := by
  cases after with
  | nil => rw [List.append_nil]
  | cons c rest =>
    rw [words_append_blank (h c List.mem_cons_self),
      words_eq_nil_of_isBlankText fun d hd => h d (List.mem_cons_of_mem c hd), List.append_nil]

lemma stripEnd_append_of_isBlankText {after : List Char} (h : IsBlankText after)
    (text : List Char) : stripEnd (text ++ after) = stripEnd text := by
  rw [stripEnd, dropEndWhile, List.reverse_append, List.dropWhile_append_of_pos]
  · rfl
  · exact fun c hc => h c (List.mem_reverse.1 hc)

/-- **A text is its stripped form with blanks on both sides.** -/
theorem exists_blanks_strip (text : List Char) :
    ∃ before after, IsBlankText before ∧ IsBlankText after ∧
      text = before ++ strip text ++ after := by
  refine ⟨text.takeWhile isBlank, (text.dropWhile isBlank).rtakeWhile isBlank,
    fun c hc => List.mem_takeWhile_imp hc, fun c hc => List.mem_rtakeWhile_imp hc, ?_⟩
  calc text = text.takeWhile isBlank ++ text.dropWhile isBlank :=
        (List.takeWhile_append_dropWhile).symm
    _ = text.takeWhile isBlank ++ (strip text ++ (text.dropWhile isBlank).rtakeWhile isBlank) := by
        rw [strip, stripEnd]
        exact congrArg _ (List.rdropWhile_append_rtakeWhile).symm
    _ = _ := (List.append_assoc _ _ _).symm

lemma strip_append_of_isBlankText {before : List Char} (h : IsBlankText before)
    (text : List Char) : strip (before ++ text) = strip text := by
  rw [strip, List.dropWhile_append_of_pos h]
  rfl

lemma strip_eq_nil_iff {text : List Char} : strip text = [] ↔ IsBlankText text := by
  constructor
  · intro h
    obtain ⟨before, after, hbefore, hafter, htext⟩ := exists_blanks_strip text
    rw [h, List.append_nil] at htext
    rw [htext]
    intro c hc
    exact (List.mem_append.1 hc).elim (hbefore c) (hafter c)
  · intro h
    have hdrop : text.dropWhile isBlank = [] := List.dropWhile_eq_nil_iff.2 h
    rw [strip, hdrop]
    rfl

lemma strip_append_isBlankText {after : List Char} (h : IsBlankText after) (text : List Char) :
    strip (text ++ after) = strip text := by
  by_cases hblank : IsBlankText text
  · rw [strip_append_of_isBlankText hblank, strip_eq_nil_iff.2 h, strip_eq_nil_iff.2 hblank]
  · have hne : text.dropWhile isBlank ≠ [] := fun he => hblank (List.dropWhile_eq_nil_iff.1 he)
    have hdrop : (text ++ after).dropWhile isBlank = text.dropWhile isBlank ++ after := by
      rw [List.dropWhile_append, if_neg (by simpa using hne)]
    rw [strip, hdrop, stripEnd_append_of_isBlankText h]
    rfl

/-- The words of a text are those of its stripped form. -/
theorem words_strip (text : List Char) : words (strip text) = words text := by
  obtain ⟨before, after, hbefore, hafter, htext⟩ := exists_blanks_strip text
  conv_rhs => rw [htext]
  rw [words_append_isBlankText hafter, words_append_of_isBlankText hbefore]

/-- **What is left of a text is trimmed**, if anything is left. -/
theorem isTrimmed_strip {text : List Char} (h : strip text ≠ []) : IsTrimmed (strip text) := by
  have hfront : strip text <+: text.dropWhile isBlank := List.rdropWhile_prefix isBlank _
  have hne : text.dropWhile isBlank ≠ [] := fun he => h (List.prefix_nil.1 (he ▸ hfront))
  refine ⟨⟨_, List.head_mem_head? h, ?_⟩, _, List.getLast?_eq_some_getLast h, ?_⟩
  · -- the first character that is left is the first one behind the blanks in front
    rw [hfront.head h]
    exact List.head_dropWhile_not isBlank hne
  · exact Bool.eq_false_iff.2 (List.rdropWhile_last_not isBlank (text.dropWhile isBlank) h)

lemma strip_strip (text : List Char) : strip (strip text) = strip text := by
  by_cases h : strip text = []
  · rw [h]
    rfl
  · exact (isTrimmed_strip h).strip

/-- A character that is no blank belongs to a word. -/
lemma words_cons_ne_nil {c : Char} (hc : isBlank c = false) (rest : List Char) :
    words (c :: rest) ≠ [] := by
  obtain ⟨part, parts, hparts⟩ := List.exists_cons_of_ne_nil (List.splitOnP_ne_nil isBlank rest)
  rw [words, List.splitOnP_cons_eq_if_modifyHead, hc, hparts]
  simp

theorem words_eq_nil_iff {text : List Char} : words text = [] ↔ IsBlankText text := by
  refine ⟨fun h => ?_, words_eq_nil_of_isBlankText⟩
  induction text with
  | nil => exact fun c hc => absurd hc List.not_mem_nil
  | cons c rest ih =>
    cases hc : isBlank c with
    | false => exact absurd h (words_cons_ne_nil hc rest)
    | true => exact List.forall_mem_cons.2 ⟨hc, ih (by rwa [words_cons_blank hc] at h)⟩

/-- **Cut parts do not show whether the whole was stripped**, once they are stripped themselves.
The separator must be no blank, or stripping would take parts away. -/
theorem map_strip_splitOn {a : Char} (ha : isBlank a = false) (text : List Char) :
    ((strip text).splitOn a).map strip = (text.splitOn a).map strip := by
  obtain ⟨before, after, hbefore, hafter, htext⟩ := exists_blanks_strip text
  have hwhole : ∀ {blanks : List Char}, IsBlankText blanks → blanks.splitOn a = [blanks] :=
    fun h => List.splitOn_eq_singleton fun hmem => Bool.noConfusion (ha.symm.trans (h a hmem))
  have hfront : ∀ rest : List Char,
      ((before ++ rest).splitOn a).map strip = (rest.splitOn a).map strip := by
    intro rest
    obtain ⟨part, parts, hparts⟩ := List.exists_cons_of_ne_nil (List.splitOn_ne_nil a rest)
    rw [splitOn_append]
    simp [hwhole hbefore, hparts, strip_append_of_isBlankText hbefore]
  have hback : ((strip text ++ after).splitOn a).map strip
      = ((strip text).splitOn a).map strip := by
    conv_rhs => rw [← List.dropLast_append_getLast (List.splitOn_ne_nil a (strip text))]
    rw [splitOn_append]
    simp [hwhole hafter, strip_append_isBlankText hafter]
  conv_rhs => rw [htext, List.append_assoc, hfront, hback]

end Text

/-- **The parts of a command text** that begins with a word: this word, the words behind it, and
all that follows it without the blanks around it. -/
theorem Command.ofText?_trimCommand {first : List Char} (hfirst : Text.IsWord first)
    {body : List Char} (hsep : ';' ∉ first ++ ' ' :: body) :
    Command.ofText? (trimCommand (first ++ ' ' :: body))
      = some ⟨String.ofList first, (Text.words body).map String.ofList, Text.strip body⟩ := by
  by_cases hblank : Text.IsBlankText body
  · have hspace : Text.IsBlankText (' ' :: body) := List.forall_mem_cons.2 ⟨rfl, hblank⟩
    have hstrip : Text.strip (first ++ ' ' :: body) = first := by
      rw [Text.strip_append_isBlankText hspace, hfirst.isTrimmed.strip]
    have htrim : trimCommand (first ++ ' ' :: body) = first := by
      rw [trimCommand, hstrip, if_neg]
      exact fun h => hsep (List.mem_append_left _ (List.mem_of_getLast? h))
    rw [htrim, Command.ofText?, Text.words_of_isWord hfirst, hfirst.isTrimmed.dropWhile,
      Text.words_eq_nil_of_isBlankText hblank, Text.strip_eq_nil_iff.2 hblank]
    simp [Text.strip, Text.stripEnd, Text.dropEndWhile]
  · obtain ⟨before, after, hbefore, hafter, hbody⟩ := Text.exists_blanks_strip body
    have hleft : Text.strip body ≠ [] := fun h => hblank (Text.strip_eq_nil_iff.1 h)
    have htrimmed : Text.IsTrimmed (first ++ ' ' :: (before ++ Text.strip body)) := by
      have := hfirst.isTrimmed.append (Text.isTrimmed_strip hleft) (' ' :: before)
      rwa [List.append_assoc, List.cons_append] at this
    have htext : first ++ ' ' :: body = first ++ ' ' :: (before ++ Text.strip body) ++ after := by
      conv_lhs => rw [hbody]
      simp
    have htrim : trimCommand (first ++ ' ' :: body)
        = first ++ ' ' :: (before ++ Text.strip body) := by
      rw [htext, trimCommand, Text.strip_append_isBlankText hafter, htrimmed.strip, if_neg]
      exact fun h => hsep (htext ▸ List.mem_append_left after (List.mem_of_getLast? h))
    have hwords : Text.words (first ++ ' ' :: (before ++ Text.strip body))
        = first :: Text.words body := by
      rw [Text.words_append_blank Text.isBlank_space, Text.words_of_isWord hfirst,
        Text.words_append_of_isBlankText hbefore, Text.words_strip]
      rfl
    have hrest : Text.strip (' ' :: (before ++ Text.strip body)) = Text.strip body := by
      have hspace : Text.IsBlankText (' ' :: before) := List.forall_mem_cons.2 ⟨rfl, hbefore⟩
      rw [← List.cons_append, Text.strip_append_of_isBlankText hspace, Text.strip_strip]
    rw [htrim, Command.ofText?, hwords, htrimmed.dropWhile]
    simp [hrest]

end AutomatonShell
