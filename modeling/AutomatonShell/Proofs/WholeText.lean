import AutomatonShell.Proofs.Cutting
import AutomatonShell.Proofs.ListingText

/-!
# Commands of a whole text

Lines are read one at a time, and what is left unfinished after a line is carried into the next.
The commands that come out are those of the whole text: what stands in front of the comments, joined
by newlines and cut at every separator.

The comparison is made in words, because the two differ in the blanks between them.  The invariant
is that the pieces of the unfinished command hold the words of all that was read behind the last
separator.  So the segments still to come are those of the lines still to come, with these words in
front of the first one (`Assembler.wordsBehind`), and a line read moves the seam
(`Assembler.wordsBehind_segments_cons`).

* `Text.IsBefore` — what stands in front of the first occurrence of a marker.
* `Assembler.IsPiece`, `Assembler.IsCommand` — what pieces and commands look like.
* `Assembler.absorb_isCommand`, `absorb_words` — the step: one line.
* `Assembler.feedAll_words` — the run: many lines.
* **`Assembler.assemble_whole_text`** — the commands of many lines are those of their whole text.
-/

namespace AutomatonShell

lemma zip_replicate_left {α β : Type} (a : α) (xs : List β) :
    (List.replicate xs.length a).zip xs = xs.map (a, ·) := by
  induction xs with
  | nil => rfl
  | cons x xs ih => simp [List.replicate_succ, ih]

namespace Text

/-! ## In front of a marker -/

/-- **What stands in front of the first occurrence of a marker**; the whole line if there is no
occurrence. -/
def IsBefore (marker line content : List Char) : Prop :=
  (¬ marker <:+: line ∧ content = line) ∨
    ∃ rest, line = content ++ marker ++ rest ∧
      ∀ before after, line = before ++ marker ++ after → content.length ≤ before.length

lemma isBefore_beforeMarker (marker line : List Char) :
    IsBefore marker line (beforeMarker marker line) := by
  induction line with
  | nil =>
    by_cases h : marker = []
    · exact Or.inr ⟨[], by simp [h, beforeMarker], fun _ _ _ => Nat.zero_le _⟩
    · exact Or.inl ⟨fun hin => h (List.infix_nil.1 hin), rfl⟩
  | cons c rest ih =>
    rw [beforeMarker]
    split_ifs with hfront
    · obtain ⟨after, hafter⟩ := List.isPrefixOf_iff_prefix.1 hfront
      exact Or.inr ⟨after, by simpa using hafter.symm, fun _ _ _ => Nat.zero_le _⟩
    · have hfront' : ¬ marker <+: c :: rest := fun h => hfront (List.isPrefixOf_iff_prefix.2 h)
      rcases ih with ⟨hnone, heq⟩ | ⟨tail, htail, hfirst⟩
      · refine Or.inl ⟨?_, by rw [heq]⟩
        rw [List.infix_cons_iff]
        exact fun h => h.elim hfront' hnone
      · have hline : c :: rest = c :: beforeMarker marker rest ++ marker ++ tail := by
          conv_lhs => rw [htail]
          simp
        refine Or.inr ⟨tail, hline, ?_⟩
        intro before after hsplit
        cases before with
        | nil => exact absurd ⟨after, by simpa using hsplit.symm⟩ hfront'
        | cons d before =>
          simp only [List.cons_append, List.cons.injEq] at hsplit
          simpa using hfirst before after hsplit.2

/-- There is only one text in front of the first occurrence. -/
lemma IsBefore.eq_beforeMarker {marker line content : List Char}
    (h : IsBefore marker line content) : content = beforeMarker marker line := by
  rcases h with ⟨hnone, rfl⟩ | ⟨rest, hrest, hfirst⟩
  · rw [eq_comm, beforeMarker_of_not_infix hnone]
  · rcases isBefore_beforeMarker marker line with ⟨hnone, -⟩ | ⟨rest', hrest', hfirst'⟩
    · exact absurd ⟨content, rest, hrest.symm⟩ hnone
    · have hlength : content.length = (beforeMarker marker line).length :=
        le_antisymm (hfirst _ _ hrest') (hfirst' _ _ hrest)
      rw [List.append_assoc] at hrest hrest'
      exact List.append_inj_left (hrest.symm.trans hrest') hlength

/-- A marker does not occur in what stands in front of it. -/
lemma not_infix_beforeMarker {marker : List Char} (hmarker : marker ≠ []) (line : List Char) :
    ¬ marker <:+: beforeMarker marker line := by
  induction line with
  | nil => exact fun h => hmarker (List.infix_nil.1 h)
  | cons c rest ih =>
    rw [beforeMarker]
    split_ifs with hfront
    · exact fun h => hmarker (List.infix_nil.1 h)
    · rw [List.infix_cons_iff]
      rintro (h | h)
      · have hline : c :: beforeMarker marker rest <+: c :: rest :=
          List.cons_prefix_cons.2 ⟨rfl, beforeMarker_isPrefix marker rest⟩
        exact hfront (List.isPrefixOf_iff_prefix.2 (h.trans hline))
      · exact ih h

/-- A text without a character cannot lie across it. -/
lemma infix_of_infix_append_cons {text xs ys : List Char} {c : Char} (hc : c ∉ text)
    (h : text <:+: xs ++ c :: ys) : text <:+: xs ∨ text <:+: ys := by
  obtain ⟨before, after, hsplit⟩ := h
  rcases List.append_eq_append_iff.1 hsplit with ⟨rest, hxs, -⟩ | ⟨rest, htext, hys⟩
  · exact Or.inl ⟨before, rest, hxs.symm⟩
  · -- what is left of `before ++ text` behind `xs` begins with the character
    cases rest with
    | nil =>
      rw [List.append_nil] at htext
      exact Or.inl ⟨before, [], by rw [List.append_nil, htext]⟩
    | cons d rest =>
      obtain ⟨rfl, htail⟩ : c = d ∧ ys = rest ++ after := by simpa using hys
      rcases List.append_eq_append_iff.1 htext with ⟨more, hxs, htext⟩ | ⟨more, hbefore, hrest⟩
      · exact absurd (htext ▸ List.mem_append_right more List.mem_cons_self) hc
      · cases more with
        | nil =>
          rw [List.nil_append] at hrest
          exact absurd (hrest ▸ List.mem_cons_self) hc
        | cons e more =>
          obtain ⟨-, hrest⟩ : c = e ∧ rest = more ++ text := by simpa using hrest
          exact Or.inr ⟨more, after, by rw [htail, hrest]⟩

lemma words_ne_nil_of_isTrimmed {text : List Char} (h : IsTrimmed text) : words text ≠ [] := by
  obtain ⟨c, hc, hblank⟩ := h.1
  intro hwords
  rw [words_eq_nil_iff.1 hwords c (List.mem_of_mem_head? hc)] at hblank
  exact Bool.noConfusion hblank

end Text

namespace Assembler

/-! ## Pieces and commands -/

/-- **What the pieces of an unfinished command look like**: no blanks at their ends, no separator
in them, and no marker. -/
structure IsPiece (marker piece : List Char) : Prop where
  isTrimmed : Text.IsTrimmed piece
  separator_not_mem : separator ∉ piece
  markerFree : ¬ marker <:+: piece

/-- **What a command looks like.**  It is not blank, has no blanks at its ends and no separator in
it, and a marker without blanks does not occur in it. -/
structure IsCommand (marker command : List Char) : Prop where
  isTrimmed : Text.IsTrimmed command
  separator_not_mem : separator ∉ command
  markerFree : (∀ c ∈ marker, Text.isBlank c = false) → ¬ marker <:+: command

/-- A part of a line is free of separators and markers. -/
def IsPart (marker part : List Char) : Prop := separator ∉ part ∧ ¬ marker <:+: part

variable {marker : List Char} {pieces : List (List Char)}

lemma strip_isInfix (text : List Char) : Text.strip text <:+: text := by
  obtain ⟨before, after, -, -, htext⟩ := Text.exists_blanks_strip text
  exact ⟨before, after, htext.symm⟩

lemma isPiece_of_mem_push (h : ∀ p ∈ pieces, IsPiece marker p) {part : List Char}
    (hpart : IsPart marker part) : ∀ p ∈ push pieces part, IsPiece marker p := by
  intro p hp
  rw [push] at hp
  split_ifs at hp with hempty
  · exact h p hp
  · rcases List.mem_append.1 hp with hp | hp
    · exact h p hp
    · rw [List.mem_singleton.1 hp]
      have hne : Text.strip part ≠ [] := fun he => hempty (List.isEmpty_iff.2 he)
      exact ⟨Text.isTrimmed_strip hne, fun hsep => hpart.1 ((strip_isInfix part).subset hsep),
        fun hin => hpart.2 (hin.trans (strip_isInfix part))⟩

/-- Pieces with spaces between them are a command, if there are any. -/
lemma isCommand_joinPieces (hmarker : marker ≠ []) (h : ∀ p ∈ pieces, IsPiece marker p)
    (hne : pieces ≠ []) : IsCommand marker (joinPieces pieces) := by
  refine ⟨Text.IsTrimmed.intercalate hne fun p hp => (h p hp).isTrimmed, ?_, ?_⟩
  · intro hmem
    rcases mem_intercalate hmem with hmem | ⟨p, hp, hmem⟩
    · exact absurd hmem (by decide)
    · exact (h p hp).separator_not_mem hmem
  · intro hblank hin
    have hspace : ' ' ∉ marker := fun hmem => absurd (hblank ' ' hmem) (by decide)
    have hinside : ∃ p ∈ pieces, marker <:+: p := by
      clear h hne
      induction pieces with
      | nil => exact absurd (List.infix_nil.1 hin) hmarker
      | cons p rest ih =>
        cases rest with
        | nil =>
          rw [joinPieces, List.intercalate_singleton] at hin
          exact ⟨p, List.mem_cons_self, hin⟩
        | cons q rest =>
          rw [joinPieces, List.intercalate_cons_cons, List.append_assoc,
            List.singleton_append] at hin
          rcases Text.infix_of_infix_append_cons hspace hin with hin | hin
          · exact ⟨p, List.mem_cons_self, hin⟩
          · obtain ⟨r, hr, hin⟩ := ih hin
            exact ⟨r, List.mem_cons_of_mem p hr, hin⟩
    obtain ⟨p, hp, hin⟩ := hinside
    exact (h p hp).markerFree hin

/-- What a line finishes are commands, and what it leaves unfinished are pieces. -/
lemma absorb_isCommand (hmarker : marker ≠ []) {parts : List (List Char)}
    (h : ∀ p ∈ pieces, IsPiece marker p) (hparts : ∀ part ∈ parts, IsPart marker part) :
    (∀ command ∈ (absorb pieces parts).1, IsCommand marker command) ∧
      ∀ p ∈ (absorb pieces parts).2, IsPiece marker p := by
  fun_induction absorb pieces parts with
  | case1 pieces => exact ⟨by simp, h⟩
  | case2 pieces last =>
    exact ⟨by simp, isPiece_of_mem_push h (hparts last List.mem_cons_self)⟩
  | case3 pieces part rest hrest command finished unfinished heq ih =>
    have hcommand := isPiece_of_mem_push h (hparts part List.mem_cons_self)
    have ih := ih (by simp) fun p hp => hparts p (List.mem_cons_of_mem part hp)
    rw [heq] at ih
    refine ⟨?_, ih.2⟩
    intro c hc
    dsimp only at hc
    split_ifs at hc with hempty
    · exact ih.1 c hc
    · rcases List.mem_cons.1 hc with rfl | hc
      · exact isCommand_joinPieces hmarker hcommand fun he => hempty (List.isEmpty_iff.2 he)
      · exact ih.1 c hc

/-! ## Words -/

lemma words_joinPieces (pieces : List (List Char)) :
    Text.words (joinPieces pieces) = pieces.flatMap Text.words := by
  induction pieces with
  | nil => rfl
  | cons p rest ih =>
    cases rest with
    | nil => simp [joinPieces]
    | cons q rest =>
      rw [joinPieces, List.intercalate_cons_cons, List.append_assoc, List.singleton_append,
        Text.words_append_blank Text.isBlank_space, List.flatMap_cons, ← ih]
      rfl

lemma flatMap_words_push (pieces : List (List Char)) (part : List Char) :
    (push pieces part).flatMap Text.words = pieces.flatMap Text.words ++ Text.words part := by
  rw [push]
  split_ifs with hempty
  · rw [Text.words_eq_nil_iff.2 (Text.strip_eq_nil_iff.1 (List.isEmpty_iff.1 hempty)),
      List.append_nil]
  · rw [List.flatMap_append, List.flatMap_singleton, Text.words_strip]

/-- The words of the parts of a line, those of the unfinished command in front of the first. -/
def wordsBehind (pieces parts : List (List Char)) : List (List (List Char)) :=
  (parts.map Text.words).modifyHead (pieces.flatMap Text.words ++ ·)

/-- **What a line finishes and leaves, in words**: a command for every part but the last that has
words, and the words of the last part. -/
lemma absorb_words {parts : List (List Char)}
    (h : ∀ p ∈ pieces, IsPiece marker p) (hparts : ∀ part ∈ parts, IsPart marker part)
    (hne : parts ≠ []) :
    (absorb pieces parts).1.map Text.words
        = (wordsBehind pieces parts).dropLast.filter (fun ws => !ws.isEmpty) ∧
      (wordsBehind pieces parts).getLast?
        = some ((absorb pieces parts).2.flatMap Text.words) := by
  fun_induction absorb pieces parts with
  | case1 pieces => contradiction
  | case2 pieces last =>
    exact ⟨rfl, by simp [wordsBehind, flatMap_words_push]⟩
  | case3 pieces part rest hrest command finished unfinished heq ih =>
    obtain ⟨hfinished, hlast⟩ := ih (by simp)
      (fun p hp => hparts p (List.mem_cons_of_mem part hp)) (fun he => hrest he)
    have htrimmed : ∀ p ∈ command, Text.IsTrimmed p := fun p hp =>
      (isPiece_of_mem_push h (hparts part List.mem_cons_self) p hp).isTrimmed
    have hwords : command.flatMap Text.words = pieces.flatMap Text.words ++ Text.words part :=
      flatMap_words_push pieces part
    have hbehind : wordsBehind pieces (part :: rest)
        = command.flatMap Text.words :: wordsBehind [] rest := by
      obtain ⟨q, more, rfl⟩ := List.exists_cons_of_ne_nil hrest
      simp [wordsBehind, hwords]
    have hne' : wordsBehind [] rest ≠ [] := by
      obtain ⟨q, more, rfl⟩ := List.exists_cons_of_ne_nil hrest
      simp [wordsBehind]
    rw [heq] at hfinished hlast
    rw [hbehind, List.dropLast_cons_of_ne_nil hne', List.getLast?_cons_of_ne_nil hne']
    refine ⟨?_, hlast⟩
    dsimp only
    split_ifs with hempty
    · rw [List.isEmpty_iff.1 hempty, hfinished]
      rfl
    · have hsome : (command.flatMap Text.words).isEmpty = false := by
        obtain ⟨p, more, hp⟩ := List.exists_cons_of_ne_nil fun he => hempty (List.isEmpty_iff.2 he)
        have hpwords := Text.words_ne_nil_of_isTrimmed (htrimmed p (hp ▸ List.mem_cons_self))
        rw [hp, List.flatMap_cons, List.isEmpty_eq_false_iff]
        exact fun he => hpwords (List.append_eq_nil_iff.1 he).1
      rw [List.map_cons, words_joinPieces, List.filter_cons_of_pos (by rw [hsome]; rfl), hfinished]

/-! ## Lines -/

/-- The parts of a line hold neither separators nor markers. -/
lemma isPart_of_mem_parts {marker line : String} (hmarker : marker ≠ "") {part : List Char}
    (h : part ∈ parts marker line) : IsPart marker.toList part := by
  have hmarker' : marker.toList ≠ [] := by simpa using hmarker
  exact ⟨not_mem_of_mem_splitOn h, fun hin =>
    Text.not_infix_beforeMarker hmarker' line.toList (hin.trans (infix_of_mem_splitOn h))⟩

/-- The numbers of the lines that hold the separators of a text, one for each separator. -/
def separatorNumbers (number : Int) : List (List Char) → List Int
  | [] => []
  | content :: rest =>
    List.replicate (content.count separator) number ++ separatorNumbers (number + 1) rest

/-- The segments of a text of several lines, cut at separators wherever they stand. -/
def segments (contents : List (List Char)) : List (List Char) :=
  (['\n'].intercalate contents).splitOn separator

lemma segments_ne_nil (contents : List (List Char)) : segments contents ≠ [] :=
  List.splitOn_ne_nil _ _

lemma wordsBehind_ne_nil {parts : List (List Char)} (h : parts ≠ []) :
    wordsBehind pieces parts ≠ [] := by
  obtain ⟨part, rest, rfl⟩ := List.exists_cons_of_ne_nil h
  simp [wordsBehind]

/-- **The seam between two lines**: the last part of the first goes on in the first segment of the
others. -/
lemma segments_cons_cons {content next : List Char} {more : List (List Char)} {init last}
    (h : content.splitOn separator = init ++ [last]) :
    segments (content :: next :: more)
      = init ++ (segments (next :: more)).modifyHead (last ++ '\n' :: ·) := by
  obtain ⟨segment, others, hsegments⟩ := List.exists_cons_of_ne_nil (segments_ne_nil (next :: more))
  rw [segments, List.intercalate_cons_cons, List.append_assoc, splitOn_append,
    List.singleton_append, List.splitOn_cons_eq_if_modifyHead, ← segments, hsegments]
  have hnewline : ('\n' == separator) = false := rfl
  simp [h, hnewline]

/-- The unfinished command stands in front of the first part; the others do not see it. -/
lemma exists_wordsBehind (pieces init : List (List Char)) :
    ∃ front before, ∀ last rest, wordsBehind pieces (init ++ last :: rest)
      = front ++ (before ++ Text.words last) :: rest.map Text.words := by
  cases init with
  | nil => exact ⟨[], pieces.flatMap Text.words, by simp [wordsBehind]⟩
  | cons part init =>
    exact ⟨(pieces.flatMap Text.words ++ Text.words part) :: init.map Text.words, [],
      by simp [wordsBehind]⟩

lemma wordsBehind_segments_cons {content : List Char} (contents : List (List Char))
    {unfinished : List (List Char)}
    (hlast : (wordsBehind pieces (content.splitOn separator)).getLast?
      = some (unfinished.flatMap Text.words)) :
    wordsBehind pieces (segments (content :: contents))
      = (wordsBehind pieces (content.splitOn separator)).dropLast
        ++ wordsBehind unfinished (segments contents) := by
  cases contents with
  | nil =>
    have hrest : wordsBehind unfinished (segments []) = [unfinished.flatMap Text.words] := by
      simp [wordsBehind, segments, Text.words]
    rw [hrest, List.dropLast_append_getLast? _ hlast]
    simp [segments]
  | cons next more =>
    obtain ⟨segment, others, hsegments⟩ :=
      List.exists_cons_of_ne_nil (segments_ne_nil (next :: more))
    obtain ⟨init, last, hparts⟩ := exists_splitOn_eq_append content separator
    obtain ⟨front, before, hfront⟩ := exists_wordsBehind pieces init
    have hseam : Text.words (last ++ '\n' :: segment) = Text.words last ++ Text.words segment :=
      Text.words_append_blank rfl last segment
    rw [hparts, hfront, List.map_nil, List.getLast?_concat, Option.some.injEq] at hlast
    rw [hparts, segments_cons_cons hparts, hsegments, List.modifyHead_cons, hfront, hfront, hseam]
    simp [wordsBehind, ← hlast]

lemma length_segments (number : Int) (contents : List (List Char)) :
    (segments contents).length = (separatorNumbers number contents).length + 1 := by
  induction contents generalizing number with
  | nil => simp [segments, separatorNumbers]
  | cons content rest ih =>
    obtain ⟨init, last, hparts⟩ := exists_splitOn_eq_append content separator
    have hcount : content.count separator = init.length := by
      simpa [hparts] using (length_splitOn content separator).symm
    cases rest with
    | nil => simp [segments, separatorNumbers, hparts, hcount]
    | cons next more =>
      rw [segments_cons_cons hparts, separatorNumbers]
      simp [hcount, ih (number + 1), Nat.add_assoc]

/-- **Many lines read**, in words.  The induction is on the lines; what is left unfinished after a
line stands in front of the first segment of the others. -/
lemma feedAll_words {marker : String} (hmarker : marker ≠ "") (number : Int)
    {lines : List String} {contents : List (List Char)}
    (hcontents : contents = lines.map fun line => Text.beforeMarker marker.toList line.toList)
    (h : ∀ p ∈ pieces, IsPiece marker.toList p) :
    ∃ commands rest,
      ({ commentPrefix := marker, pieces } : Assembler).feedAll number lines
        = .ok (commands, { commentPrefix := marker, pieces := rest }) ∧
      commands.map (fun c => (c.1, Text.words c.2.toList))
        = ((separatorNumbers number contents).zip
            (wordsBehind pieces (segments contents)).dropLast).filter (fun c => !c.2.isEmpty) ∧
      (wordsBehind pieces (segments contents)).getLast? = some (rest.flatMap Text.words) ∧
      (∀ c ∈ commands, IsCommand marker.toList c.2.toList) ∧
      ∀ p ∈ rest, IsPiece marker.toList p := by
  have hmarker' : marker.toList ≠ [] := by simpa using hmarker
  induction lines generalizing pieces number contents with
  | nil =>
    subst hcontents
    exact ⟨[], pieces, rfl, rfl, by simp [wordsBehind, segments, Text.words], by simp, h⟩
  | cons line lines ih =>
    obtain ⟨content, hcontent⟩ : ∃ c, c = Text.beforeMarker marker.toList line.toList := ⟨_, rfl⟩
    rw [List.map_cons, ← hcontent] at hcontents
    subst hcontents
    have hparts : parts marker line = content.splitOn separator := by rw [parts, hcontent]
    have hpart : ∀ part ∈ content.splitOn separator, IsPart marker.toList part :=
      hparts ▸ fun part => isPart_of_mem_parts hmarker
    have hne : content.splitOn separator ≠ [] := List.splitOn_ne_nil _ _
    obtain ⟨finished, unfinished, habsorb⟩ :
        ∃ finished unfinished, absorb pieces (content.splitOn separator) = (finished, unfinished) :=
      ⟨_, _, rfl⟩
    obtain ⟨hfinished, hlast⟩ := absorb_words h hpart hne
    obtain ⟨hcommands, hpieces⟩ := absorb_isCommand hmarker' h hpart
    rw [habsorb] at hfinished hlast hcommands hpieces
    obtain ⟨commands, rest, hfeed, hwords, hpending, hmore, hrest⟩ := ih (number + 1) rfl hpieces
    refine ⟨finished.map (fun c => (number, String.ofList c)) ++ commands, rest, ?_, ?_, ?_, ?_,
      hrest⟩
    · simp only [feedAll, feed, if_neg hmarker, hparts, habsorb, hfeed, bind, pure, Except.bind,
        Except.pure]
    · -- the segments that end in this line are as many as its separators, so the numbers of the
      -- others line up with what the induction says
      have hlength : (List.replicate (content.count separator) number).length
          = (wordsBehind pieces (content.splitOn separator)).dropLast.length := by
        simp [wordsBehind, length_splitOn]
      rw [wordsBehind_segments_cons _ hlast,
        List.dropLast_append_of_ne_nil (wordsBehind_ne_nil (segments_ne_nil _)), separatorNumbers,
        List.zip_append hlength, List.filter_append, ← hwords, List.map_append]
      refine congrArg (· ++ _) ?_
      rw [List.length_replicate] at hlength
      rw [hlength, zip_replicate_left, List.filter_map, Function.comp_def, ← hfinished]
      simp
    · rw [wordsBehind_segments_cons _ hlast, List.getLast?_append, hpending]
      rfl
    · intro c hc
      rcases List.mem_append.1 hc with hc | hc
      · obtain ⟨command, hcommand, rfl⟩ := List.mem_map.1 hc
        simpa using hcommands command hcommand
      · exact hmore c hc

/-! ## The whole text -/

/-- **The commands of many lines are those of their whole text.**  What stands in front of the
comments is joined by newlines and cut at every separator.  Every segment but the last that is not
blank becomes a command with the words of the segment and the number of the line that holds its
separator, and the words of the last segment stay unfinished. -/
theorem assemble_whole_text {marker : String} (hmarker : marker ≠ "") (start : Int)
    {lines : List String} {contents : List (List Char)}
    (hcontents : List.Forall₂ (fun line content =>
      Text.IsBefore marker.toList line.toList content) lines contents) :
    ∃ commands rest last,
      ({ commentPrefix := marker } : Assembler).feedAll start lines = .ok (commands, rest) ∧
      assemble marker start lines = .ok commands ∧
      (segments contents).getLast? = some last ∧
      (separatorNumbers start contents).length = (segments contents).dropLast.length ∧
      commands.map (fun c => (c.1, Text.words c.2.toList))
        = (((separatorNumbers start contents).zip (segments contents).dropLast).filter
            fun c => c.2.any (!Text.isBlank ·)).map (fun c => (c.1, Text.words c.2)) ∧
      Text.words rest.pending.toList = Text.words last ∧
      (rest.pending = "" ↔ ∀ c ∈ last, Text.isBlank c = true) ∧
      ∀ c ∈ commands, IsCommand marker.toList c.2.toList := by
  have hbefore : contents = lines.map fun line => Text.beforeMarker marker.toList line.toList := by
    induction hcontents with
    | nil => rfl
    | cons hline _ ih => rw [List.map_cons, hline.eq_beforeMarker, ih]
  obtain ⟨commands, rest, hfeed, hwords, hpending, hcommands, hrest⟩ :=
    feedAll_words hmarker start hbefore (List.forall_mem_nil _)
  have hnil : wordsBehind [] (segments contents) = (segments contents).map Text.words := by
    obtain ⟨segment, others, hsegments⟩ := List.exists_cons_of_ne_nil (segments_ne_nil contents)
    simp [hsegments, wordsBehind]
  obtain ⟨init, last, hlast⟩ : ∃ init last, segments contents = init ++ [last] :=
    exists_splitOn_eq_append _ _
  have hlength := length_segments start contents
  have hrestWords : Text.words (joinPieces rest) = Text.words last := by
    rw [hnil, hlast] at hpending
    simpa [words_joinPieces] using hpending.symm
  refine ⟨commands, _, last, hfeed, by simp [assemble, hfeed, Except.map], by simp [hlast], ?_, ?_,
    ?_, ?_, hcommands⟩
  · simpa [hlast] using hlength.symm
  · have hblank : ∀ text : List Char,
        (text.any (!Text.isBlank ·)) = !(Text.words text).isEmpty := by
      intro text
      rw [Bool.eq_iff_iff]
      simp [Text.words_eq_nil_iff, Text.IsBlankText]
    rw [hwords, hnil, hlast, List.map_append, List.map_singleton, List.dropLast_concat,
      List.dropLast_concat, List.zip_map_right, List.filter_map]
    simp [hblank, Function.comp_def]
  · simpa [pending] using hrestWords
  · have hpendingNil : (pending { commentPrefix := marker, pieces := rest } = "")
        ↔ joinPieces rest = [] := by simp [pending]
    rw [hpendingNil, ← Text.IsBlankText, ← Text.words_eq_nil_iff, ← hrestWords]
    refine ⟨fun hnone => by rw [hnone]; rfl, fun hnone => ?_⟩
    by_contra hsome
    have hne : rest ≠ [] := fun he => hsome (by simp [he, joinPieces])
    exact Text.words_ne_nil_of_isTrimmed
      (Text.IsTrimmed.intercalate hne fun p hp => (hrest p hp).isTrimmed) hnone

/-- A command over three lines with a comment in it, a blank segment, and an unfinished command. -/
theorem assemble_whole_text_of_spanning :
    let lines := ["SYMBOLS // 0;", "\t0 ;; STATES", "", " a/b; C // D; E"]
    ∃ commands rest,
      ({ commentPrefix := "//" } : Assembler).feedAll 5 lines = .ok (commands, rest) ∧
      commands.map (fun c => (c.1, (Text.words c.2.toList).map String.ofList))
        = [(6, ["SYMBOLS", "0"]), (8, ["STATES", "a/b"])] ∧
      Text.words rest.pending.toList = [['C']] := by
  intro lines
  have hcontents : List.Forall₂ (fun line content => Text.IsBefore "//".toList line.toList content)
      lines (lines.map fun line => Text.beforeMarker "//".toList line.toList) := by
    rw [List.forall₂_map_right_iff]
    exact List.forall₂_same.2 fun line _ => Text.isBefore_beforeMarker _ _
  obtain ⟨commands, rest, last, hfeed, -, hlast, -, hwords, hpending, -⟩ :=
    assemble_whole_text (by decide) 5 hcontents
  refine ⟨commands, rest, hfeed, ?_, ?_⟩
  · have := congrArg (List.map fun c => (c.1, c.2.map String.ofList)) hwords
    rw [List.map_map] at this
    exact this.trans (by decide +kernel)
  · rw [hpending]
    have : (segments (lines.map fun line => Text.beforeMarker "//".toList line.toList)).getLast?
        = some " C ".toList := by decide +kernel
    rw [this, Option.some.injEq] at hlast
    rw [← hlast]
    decide +kernel

end Assembler

end AutomatonShell
