import AutomatonShell.Assembler
import AutomatonShell.Proofs.Names
import AutomatonShell.Session.Command
import AutomatonShell.Text.Lines

/-!
# Writing commands and reading them back

A command is written as its keyword, a space and a body, with a semicolon behind it, one command on
a line.  This file inverts that: the lines of such a text, the commands on such lines, and the words
of such a command are what was written.

Everything about words follows from one equation, that words split at a blank
(`words_append_blank`), and everything about the ends of a text from one property, that it begins
and ends with a character that is no blank (`IsTrimmed`).

* `IsWord`, `IsTrimmed` — what words and bodies are.
* **`words_intercalate`** — words with spaces between them are read back.
* **`lines_flatMap`** — lines with newlines behind them are read back.
* **`Assembler.feedAll_commands`** — one command on a line is read back.
-/

namespace AutomatonShell

namespace Text

/-! ## Words -/

/-- **A word**: one or more characters, none of which is a blank. -/
def IsWord (word : List Char) : Prop := word ≠ [] ∧ ∀ c ∈ word, isBlank c = false

/-- A text that begins and ends with a character that is no blank. -/
def IsTrimmed (text : List Char) : Prop :=
  (∃ c ∈ text.head?, isBlank c = false) ∧ ∃ c ∈ text.getLast?, isBlank c = false

/-- **Words split at a blank.** -/
lemma words_append_blank {c : Char} (hc : isBlank c = true) (before after : List Char) :
    words (before ++ c :: after) = words before ++ words after := by
  rw [words, List.splitOnP_append_cons before after hc, List.filter_append]
  rfl

lemma words_cons_blank {c : Char} (hc : isBlank c = true) (text : List Char) :
    words (c :: text) = words text := words_append_blank hc [] text

lemma words_of_isWord {word : List Char} (h : IsWord word) : words word = [word] := by
  rw [words, List.splitOnP_eq_singleton h.2]
  simp [h.1]

lemma isBlank_space : isBlank ' ' = true := rfl

/-- **Words with spaces between them are read back.** -/
theorem words_intercalate {ws : List (List Char)} (h : ∀ w ∈ ws, IsWord w) :
    words ([' '].intercalate ws) = ws := by
  induction ws with
  | nil => rfl
  | cons w rest ih =>
    have hw : IsWord w := h w List.mem_cons_self
    have hrest : ∀ v ∈ rest, IsWord v := fun v hv => h v (List.mem_cons_of_mem w hv)
    cases rest with
    | nil => rw [List.intercalate_singleton, words_of_isWord hw]
    | cons v rest =>
      rw [List.intercalate_cons_cons, List.append_assoc, List.singleton_append,
        words_append_blank isBlank_space, words_of_isWord hw, ih hrest]
      rfl

/-! ## Ends of texts -/

lemma IsWord.isTrimmed {word : List Char} (h : IsWord word) : IsTrimmed word := by
  obtain ⟨hne, hall⟩ := h
  refine ⟨⟨word.head hne, List.head_mem_head? hne, hall _ (List.head_mem hne)⟩, ?_⟩
  exact ⟨word.getLast hne, List.getLast?_eq_some_getLast hne, hall _ (List.getLast_mem hne)⟩

/-- Whatever stands between two trimmed texts, the whole is trimmed. -/
lemma IsTrimmed.append {before after : List Char} (hbefore : IsTrimmed before)
    (hafter : IsTrimmed after) (between : List Char) :
    IsTrimmed (before ++ between ++ after) := by
  obtain ⟨⟨c, hc, hcblank⟩, -⟩ := hbefore
  obtain ⟨-, d, hd, hdblank⟩ := hafter
  refine ⟨⟨c, ?_, hcblank⟩, d, ?_, hdblank⟩
  · rw [List.append_assoc, List.head?_append, Option.mem_def.1 hc]
    rfl
  · rw [List.getLast?_append, Option.mem_def.1 hd]
    rfl

lemma IsTrimmed.intercalate {sep : List Char} {texts : List (List Char)} (hne : texts ≠ [])
    (h : ∀ t ∈ texts, IsTrimmed t) : IsTrimmed (sep.intercalate texts) := by
  induction texts with
  | nil => contradiction
  | cons t rest ih =>
    have ht : IsTrimmed t := h t List.mem_cons_self
    cases rest with
    | nil => rwa [List.intercalate_singleton]
    | cons u rest =>
      rw [List.intercalate_cons_cons]
      exact ht.append (ih (by simp) fun v hv => h v (List.mem_cons_of_mem t hv)) sep

/-- There is no blank at the front of a trimmed text. -/
lemma IsTrimmed.dropWhile {text : List Char} (h : IsTrimmed text) :
    text.dropWhile isBlank = text := by
  obtain ⟨⟨c, hc, hblank⟩, -⟩ := h
  cases text with
  | nil => contradiction
  | cons d rest =>
    obtain rfl : d = c := Option.some.inj hc
    exact List.dropWhile_cons_of_neg (by simp [hblank])

lemma IsTrimmed.strip {text : List Char} (h : IsTrimmed text) : strip text = text := by
  obtain ⟨c, hc, hblank⟩ := h.2
  obtain ⟨rest, rfl⟩ := List.getLast?_eq_some_iff.1 hc
  rw [Text.strip, h.dropWhile, stripEnd, dropEndWhile, List.reverse_append, List.reverse_singleton,
    List.singleton_append, List.dropWhile_cons_of_neg (by simp [hblank])]
  simp

/-! ## Lines -/

/-- A text without CR has no line ends to unify. -/
lemma unifyNewlines_of_not_mem {text : List Char} (h : '\r' ∉ text) :
    unifyNewlines text = text := by
  fun_induction unifyNewlines text with
  | case1 => rfl
  | case2 rest ih => simp at h
  | case3 rest _ ih => simp at h
  | case4 c rest _ _ ih => rw [ih fun hr => h (List.mem_cons_of_mem c hr)]

/-- **Lines with newlines behind them are read back**, if no line holds a line boundary. -/
theorem lines_flatMap {ls : List (List Char)} (h : ∀ l ∈ ls, ∀ c ∈ l, isLineBoundary c = false) :
    lines (unifyNewlines (ls.flatMap fun l => l ++ ['\n'])) = ls := by
  have hcr : '\r' ∉ ls.flatMap fun l => l ++ ['\n'] := by
    intro hmem
    obtain ⟨l, hl, hc⟩ := List.mem_flatMap.1 hmem
    rcases List.mem_append.1 hc with hc | hc
    · exact nomatch h l hl _ hc
    · exact absurd (List.mem_singleton.1 hc) (by simp)
  -- the newline behind the last line leaves an empty piece, which is no line
  have hpieces : (ls.flatMap fun l => l ++ ['\n']).splitOnP isLineBoundary = ls ++ [[]] := by
    clear hcr
    induction ls with
    | nil => rfl
    | cons l rest ih =>
      rw [List.flatMap_cons, List.append_assoc, List.singleton_append,
        List.splitOnP_append_cons_of_forall_mem (h l List.mem_cons_self) _ rfl,
        ih fun m hm => h m (List.mem_cons_of_mem l hm)]
      rfl
  rw [unifyNewlines_of_not_mem hcr, lines, hpieces]
  simp

/-! ## Comments -/

/-- A line in which the marker does not occur is kept whole. -/
lemma beforeMarker_of_not_infix {marker line : List Char} (h : ¬ marker <:+: line) :
    beforeMarker marker line = line := by
  induction line with
  | nil => rfl
  | cons c rest ih =>
    rw [beforeMarker, if_neg, ih fun hr => h (hr.trans (List.suffix_cons c rest).isInfix)]
    exact fun hp => h (List.isPrefixOf_iff_prefix.1 hp).isInfix

end Text

/-! ## Commands on lines -/

namespace Assembler

/-- A line with one command on it. -/
lemma feed_command {marker : String} {text : List Char} (htrimmed : Text.IsTrimmed text)
    (hsep : separator ∉ text) (hmarker : ¬ marker.toList <:+: text ++ [separator]) (number : Int) :
    ({ commentPrefix := marker } : Assembler).feed (String.ofList (text ++ [separator])) number
      = .ok ([(number, String.ofList text)], { commentPrefix := marker }) := by
  have hne : marker ≠ "" := by
    rintro rfl
    exact hmarker (List.nil_infix)
  have hparts : parts marker (String.ofList (text ++ [separator])) = [text, []] := by
    rw [parts, String.toList_ofList, Text.beforeMarker_of_not_infix hmarker,
      List.splitOn_append_cons_self_of_not_mem hsep]
    rfl
  have hpush : push [] text = [text] := by
    obtain ⟨c, hc, -⟩ := htrimmed.1
    rw [push, htrimmed.strip, if_neg]
    · rfl
    · intro hempty
      rw [List.isEmpty_iff.1 hempty] at hc
      exact nomatch hc
  have habsorb : absorb [] [text, []] = ([text], []) := by
    rw [absorb, hpush]
    · simp [absorb, push, Text.strip, Text.stripEnd, Text.dropEndWhile, joinPieces]
    · simp
  rw [feed, if_neg hne, hparts, habsorb]
  rfl

/-- **One command on a line is read back.**  The commands are what the lines hold in front of their
semicolons, and nothing is left unfinished. -/
theorem feedAll_commands {marker : String} {texts : List (List Char)}
    (htrimmed : ∀ t ∈ texts, Text.IsTrimmed t) (hsep : ∀ t ∈ texts, separator ∉ t)
    (hmarker : ∀ t ∈ texts, ¬ marker.toList <:+: t ++ [separator]) (start : Int) :
    ∃ commands, ({ commentPrefix := marker } : Assembler).feedAll start
        (texts.map fun t => String.ofList (t ++ [separator]))
          = .ok (commands, { commentPrefix := marker }) ∧
      commands.map Prod.snd = texts.map String.ofList := by
  induction texts generalizing start with
  | nil => exact ⟨[], rfl, rfl⟩
  | cons t rest ih =>
    obtain ⟨commands, hcommands, htexts⟩ := ih (fun u hu => htrimmed u (List.mem_cons_of_mem t hu))
      (fun u hu => hsep u (List.mem_cons_of_mem t hu))
      (fun u hu => hmarker u (List.mem_cons_of_mem t hu)) (start + 1)
    have hfirst := feed_command (htrimmed t List.mem_cons_self) (hsep t List.mem_cons_self)
      (hmarker t List.mem_cons_self) start
    refine ⟨(start, String.ofList t) :: commands, ?_, ?_⟩
    · simp only [List.map_cons, feedAll, hfirst, hcommands, bind, Except.bind, pure, Except.pure,
        List.singleton_append]
    · rw [List.map_cons, List.map_cons, htexts]

end Assembler

end AutomatonShell
