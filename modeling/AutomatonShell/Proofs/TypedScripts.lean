import AutomatonShell.Proofs.Dialogues
import AutomatonShell.Proofs.InlineRuns

/-!
# Scripts and typed text

A script is read at once and then cut into lines, and a dialogue reads one line after the other.
The two agree on what a line is only as far as newlines go.  A script is also cut at form feeds, at
the information separators and at the Unicode separators, and someone who types these characters has
typed one line.  So a script is not what one gets by typing its text; it is what one gets by typing
its text with a newline in place of every boundary.

What there is to show is that the two ways of cutting come to the same on such a text
(`Assembler.feedAll_lines`), and where in it the commands end: the number of a command counts the
newlines in front of its semicolon (`Assembler.EndsAt.endsIn`).

* `Text.unifyBoundaries` — a text with a newline in place of every boundary.
* `Assembler.EndsIn` — a semicolon of a text that ends a command.
* `Shell.typed`, **`Shell.handed_typed`** — a text typed line by line, and what it hands to a
  session.
* **`Session.replayed_as_typed`** — a script and what one types to get it.
-/

namespace AutomatonShell

/-! ## Lines -/

namespace Text

/-- **A newline in place of every line boundary.** -/
def unifyBoundaries (text : List Char) : List Char :=
  text.map fun c => if isLineBoundary c then '\n' else c

/-- The lines between newlines. -/
def newlineLines (text : List Char) : List String := (text.splitOn '\n').map String.ofList

lemma unifyBoundaries_eq_self {text : List Char}
    (h : ∀ c ∈ text, isLineBoundary c = true → c = '\n') : unifyBoundaries text = text := by
  refine (List.map_congr_left fun c hc => ?_).trans (List.map_id text)
  split_ifs with hboundary
  · exact (h c hc hboundary).symm
  · rfl

lemma splitOn_unifyBoundaries (text : List Char) :
    (unifyBoundaries text).splitOn '\n' = text.splitOnP isLineBoundary := by
  induction text with
  | nil => rfl
  | cons c rest ih =>
    rw [unifyBoundaries, List.map_cons, ← unifyBoundaries, List.splitOn_cons_eq_if_modifyHead,
      List.splitOnP_cons_eq_if_modifyHead, ih]
    cases hc : isLineBoundary c with
    | true => rfl
    | false =>
      have hne : (c == '\n') = false := by
        by_contra h
        obtain rfl : c = '\n' := by simpa using h
        exact absurd hc (by decide)
      simp [hne]

/-- The lines of a text are those between its boundaries, but for an empty one at the end. -/
lemma newlineLines_unifyBoundaries (text : List Char) :
    newlineLines (unifyBoundaries text) = (lines text).map String.ofList ∨
      newlineLines (unifyBoundaries text) = (lines text).map String.ofList ++ [""] := by
  rw [newlineLines, splitOn_unifyBoundaries, lines]
  split_ifs with hlast
  · right
    obtain ⟨init, hinit⟩ := List.getLast?_eq_some_iff.1 hlast
    rw [hinit, List.dropLast_concat, List.map_append]
    rfl
  · exact Or.inl rfl

end Text

namespace Assembler

variable {a : Assembler}

/-- An empty line brings nothing. -/
lemma feed_empty (hmarker : a.commentPrefix ≠ "") (number : Int) :
    a.feed "" number = .ok ([], a) := by
  have hparts : parts a.commentPrefix "" = [[]] := rfl
  rw [feed, if_neg hmarker, hparts]
  rfl

lemma feedAll_append_empty (hmarker : a.commentPrefix ≠ "") (start : Int) (lines : List String) :
    a.feedAll start (lines ++ [""]) = a.feedAll start lines := by
  induction lines generalizing a start with
  | nil =>
    simp only [List.nil_append, feedAll, feed_empty hmarker, bind, Except.bind, pure, Except.pure]
  | cons line rest ih =>
    obtain ⟨commands, hfeed⟩ := feed_eq hmarker line start
    have hrest := ih (a := a.after [line]) (by rwa [commentPrefix_after]) (start + 1)
    simp only [List.cons_append, feedAll, hfeed, hrest, bind, Except.bind]

/-- **The lines of a script** are read like those of its text with newlines for boundaries. -/
lemma feedAll_lines (hmarker : a.commentPrefix ≠ "") (start : Int) (text : List Char) :
    a.feedAll start (Text.newlineLines (Text.unifyBoundaries text))
      = a.feedAll start ((Text.lines text).map String.ofList) := by
  rcases Text.newlineLines_unifyBoundaries text with h | h <;> rw [h]
  exact feedAll_append_empty hmarker start _

/-! ## Where in a text a command ends -/

/-- **A semicolon of a text ends a command.**  It stands in front of the comment on its line; the
command bears the number of newlines in front of it, counted from one; and what stands in front of
it leaves just this command unfinished. -/
def EndsIn (a : Assembler) (text : List Char) (command : NumberedCommand) : Prop :=
  ∃ front back finished rest, text = front ++ separator :: back ∧
    command.1 = 1 + (front.count '\n' : Nat) ∧
    (front.splitOn '\n').getLastD [] ++ [separator] <+: Text.beforeMarker a.commentPrefix.toList
      ((front.splitOn '\n').getLastD [] ++ separator :: (back.splitOn '\n').headD []) ∧
    a.feedAll 1 (Text.newlineLines front) = .ok (finished, rest) ∧ rest.pending = command.2

lemma intercalate_split (sep : Char) (init : List (List Char)) (front back : List Char)
    (rest : List (List Char)) :
    [sep].intercalate (init ++ (front ++ back) :: rest)
      = [sep].intercalate (init ++ [front]) ++ [sep].intercalate (back :: rest) := by
  induction init with
  | nil => cases rest <;> simp [List.intercalate_cons_cons]
  | cons first init ih =>
    obtain ⟨p, ps, hps⟩ := List.exists_cons_of_ne_nil (l := init ++ [front]) (by simp)
    obtain ⟨q, qs, hqs⟩ :=
      List.exists_cons_of_ne_nil (l := init ++ (front ++ back) :: rest) (by simp)
    rw [hps, hqs] at ih
    rw [List.cons_append, List.cons_append, hps, hqs, List.intercalate_cons_cons,
      List.intercalate_cons_cons, ih]
    simp only [List.append_assoc]

/-- **A command that ends on a line of a text** ends in the text, and its number counts the
newlines. -/
lemma EndsAt.endsIn {text : List Char} {command : NumberedCommand}
    (h : a.EndsAt 1 (Text.newlineLines text) command) : a.EndsIn text command := by
  obtain ⟨before, line, after, front, back, finished, rest, hlines, hnumber, hcontent, hfed,
    hpending⟩ := h
  obtain ⟨before, others, hsplit, rfl, hothers⟩ := List.map_eq_append_iff.1 hlines
  obtain ⟨line, after, rfl, rfl, rfl⟩ := List.map_eq_cons_iff.1 hothers
  rw [String.toList_ofList] at hcontent
  obtain ⟨tail, htail⟩ := Text.beforeMarker_isPrefix a.commentPrefix.toList line
  have hline : line = front ++ separator :: (back ++ tail) := by
    rw [← htail, hcontent, List.append_assoc, List.cons_append]
  have hfree : ∀ l ∈ before ++ line :: after, '\n' ∉ l := fun l hl =>
    not_mem_of_mem_splitOn (hsplit ▸ hl)
  have hlineFree : '\n' ∉ line := hfree line (by simp)
  -- the text in front of the semicolon, and the text behind it, line by line
  have hfront : ([('\n')].intercalate (before ++ [front])).splitOn '\n' = before ++ [front] := by
    refine List.splitOn_intercalate '\n' (fun l hl => ?_) (by simp)
    rcases List.mem_append.1 hl with hl | hl
    · exact hfree l (List.mem_append_left _ hl)
    · obtain rfl := List.mem_singleton.1 hl
      exact fun hmem => hlineFree (hline ▸ List.mem_append_left _ hmem)
  have hback : ([('\n')].intercalate ((back ++ tail) :: after)).splitOn '\n'
      = (back ++ tail) :: after := by
    refine List.splitOn_intercalate '\n' (fun l hl => ?_) (by simp)
    rcases List.mem_cons.1 hl with rfl | hl
    · exact fun hmem => hlineFree
        (hline ▸ List.mem_append_right _ (List.mem_cons_of_mem _ hmem))
    · exact hfree l (by simp [hl])
  refine ⟨['\n'].intercalate (before ++ [front]), ['\n'].intercalate ((back ++ tail) :: after),
    finished, rest, ?_, ?_, ?_, ?_, hpending⟩
  · have htext : text = ['\n'].intercalate (before ++ line :: after) := by
      rw [← hsplit, List.intercalate_splitOn]
    rw [htext, hline, intercalate_split]
    cases after <;> simp [List.intercalate_cons_cons]
  · have hcount := length_splitOn (['\n'].intercalate (before ++ [front])) '\n'
    rw [hfront, List.length_append, List.length_singleton] at hcount
    rw [hnumber, List.length_map, Nat.add_right_cancel hcount]
  · rw [hfront, hback, List.getLastD_concat, List.headD_cons, ← hline, hcontent]
    exact ⟨back, by simp⟩
  · rwa [Text.newlineLines, hfront, List.map_append]

end Assembler

/-! ## Typed text -/

namespace Shell

/-- **A text that is typed**: its lines with their newlines, and what stands behind the last newline
if there is something. -/
def typed (text : List Char) : List Reading :=
  let last := (text.splitOn '\n').getLastD []
  (text.splitOn '\n').dropLast.map (fun line => .line (String.ofList (line ++ ['\n']))) ++
    if last = [] then [] else [.line (String.ofList last)]

lemma dropEndWhile_newline {line : List Char} (h : '\n' ∉ line) :
    Text.dropEndWhile (· == '\n') line = line := by
  have hkept : line.reverse.dropWhile (· == '\n') = line.reverse := by
    refine List.dropWhile_eq_self_iff.2 fun hpos => ?_
    have hmem := List.getElem_mem hpos
    rw [List.mem_reverse] at hmem
    exact fun hnewline => h (by simpa [beq_iff_eq.1 hnewline] using hmem)
  rw [Text.dropEndWhile, hkept, List.reverse_reverse]

/-- The line that is read, without its newline. -/
lemma withoutNewlines_line {line : List Char} (h : '\n' ∉ line) :
    withoutNewlines (String.ofList line) = String.ofList line ∧
      withoutNewlines (String.ofList (line ++ ['\n'])) = String.ofList line := by
  have hdrop : Text.dropEndWhile (· == '\n') (line ++ ['\n'])
      = Text.dropEndWhile (· == '\n') line := by
    simp [Text.dropEndWhile]
  simp only [withoutNewlines, String.toList_ofList, hdrop, dropEndWhile_newline h, and_self]

/-- What is typed are lines, none of them empty. -/
lemma exists_of_mem_typed {text : List Char} {reading : Reading} (h : reading ∈ typed text) :
    ∃ line, reading = .line line ∧ line ≠ "" := by
  rw [typed] at h
  rcases List.mem_append.1 h with h | h
  · obtain ⟨piece, -, rfl⟩ := List.mem_map.1 h
    exact ⟨_, rfl, by simp⟩
  · split_ifs at h with hempty
    · cases h
    · exact ⟨_, List.mem_singleton.1 h, by simpa using hempty⟩

/-- A typed text is one block, of the lines between its newlines but for an empty one at the end. -/
lemma blocks_typed (text : List Char) : ∃ block, blocks (typed text) = [block] ∧
    (Text.newlineLines text = block ∨ Text.newlineLines text = block ++ [""]) := by
  obtain ⟨init, last, hsplit⟩ := exists_splitOn_eq_append text '\n'
  have hfree : ∀ l ∈ init ++ [last], '\n' ∉ l := fun l hl =>
    not_mem_of_mem_splitOn (hsplit ▸ hl)
  have hblocks : blocks (typed text) = [(typed text).filterMap Reading.line?] := by
    have hlines : Reading.interrupt ∉ typed text := fun h => by
      obtain ⟨line, hline, -⟩ := exists_of_mem_typed h
      cases hline
    rw [blocks, List.splitOn_eq_singleton hlines]
    rfl
  have hinit : (init.map fun line => Reading.line (String.ofList (line ++ ['\n']))).filterMap
      Reading.line? = init.map String.ofList := by
    rw [List.filterMap_map, ← List.filterMap_eq_map]
    refine List.filterMap_congr fun l hl => congrArg some ?_
    exact (withoutNewlines_line (hfree l (List.mem_append_left _ hl))).2
  have hlast := (withoutNewlines_line (hfree last (by simp))).1
  refine ⟨_, hblocks, ?_⟩
  rw [typed, Text.newlineLines, hsplit, List.dropLast_concat, List.getLastD_concat,
    List.filterMap_append, hinit, List.map_append, List.map_singleton]
  split_ifs with hempty
  · exact Or.inr (by rw [hempty]; simp)
  · exact Or.inl (by simp [Reading.line?, hlast])

/-- **A typed text hands its commands to the session**, those of the lines between its newlines, up
to one that ends it. -/
theorem handed_typed {s : Session} (hmarker : s.config.commentPrefix ≠ "") (text : List Char) :
    ∃ commands, assemble s.config.commentPrefix 1 (Text.newlineLines text) = .ok commands ∧
      (start s).handed (typed text ++ [.line ""]) = s.heeded commands := by
  obtain ⟨block, hblocks, hblock⟩ := blocks_typed text
  have hsame : assemble s.config.commentPrefix 1 (Text.newlineLines text)
      = assemble s.config.commentPrefix 1 block := by
    rcases hblock with h | h <;> rw [h]
    rw [assemble, assemble, Assembler.feedAll_append_empty hmarker]
  cases hcommands : assemble s.config.commentPrefix 1 block with
  | error e => exact absurd hcommands (Running.assemble_ne_error hmarker 1 block e)
  | ok commands =>
    refine ⟨commands, hsame.trans hcommands, ?_⟩
    have hlines : ∀ line, .line line ∈ typed text → line ≠ "" := fun line hline => by
      obtain ⟨line', hsame, hne⟩ := exists_of_mem_typed hline
      rwa [Reading.line.inj hsame]
    have hears := hears_start hmarker hlines
    rw [handed_append_end, hears.handed, hblocks, blockCommands, hcommands]
    exact congrArg s.heeded (List.append_nil commands)

end Shell

/-! ## Scripts -/

namespace Session

variable {t : Task} {script : Script} {s : Session}

/-- The text of the script that a task asks to LOAD, with its newlines as they are in the file. -/
def Task.text? (t : Task) : Option (List Char) :=
  t.file?.bind fun file =>
    (t.session.scriptAt file).toOption

lemma exists_text_of_script? (h : t.script? = some script) :
    ∃ text, t.text? = some text ∧
      ({ commentPrefix := t.session.config.commentPrefix } : Assembler).feedAll 1
          ((Text.lines (Text.unifyNewlines text)).map String.ofList)
        = .ok (script.commands, script.rest) := by
  obtain ⟨lines, hlines, -, hfeed⟩ := Task.feedAll_of_script? h
  obtain ⟨file, hfile, hread⟩ := Option.bind_eq_some_iff.1 hlines
  split at hread
  · cases hread
  · next text htext =>
    obtain rfl := Option.some.inj hread
    exact ⟨text, by rw [Task.text?, hfile, Option.bind_some, htext]; rfl, hfeed⟩

/-- **A script is what one types to get it**, with newlines for all its boundaries.  Its commands
are those of the lines between the newlines of that text, they end in it where their numbers say,
and someone who types it hands the same commands to a session.  Without other boundaries than
newlines this is the text of the script itself; otherwise typing the text itself may come to
something else. -/
theorem replayed_as_typed (hscript : t.script? = some script) (hs : s.Reachable)
    (hmarker : s.config.commentPrefix = t.session.config.commentPrefix) :
    ∃ text, t.text? = some text ∧
      let read := Text.unifyNewlines text
      let plain := Text.unifyBoundaries read
      let marker := s.config.commentPrefix
      let handed := fun typed => (Shell.start s).handed (Shell.typed typed ++ [.line ""])
      (∀ process, t.run (load process)
        = t.leave script (processAll process (t.enter script) script.commands)) ∧
      assemble marker 1 (Text.newlineLines plain) = .ok script.commands ∧
      (∀ command ∈ script.commands,
        ({ commentPrefix := marker } : Assembler).EndsIn plain command) ∧
      handed plain = s.heeded script.commands ∧
      (∃ commands, assemble marker 1 (Text.newlineLines read) = .ok commands ∧
        handed read = s.heeded commands) ∧
      ((∀ c ∈ read, Text.isLineBoundary c = true → c = '\n') → plain = read) := by
  obtain ⟨-, -, settings, platform, hsettings⟩ := hs.settled
  have hne : s.config.commentPrefix ≠ "" := commentPrefix_ne_of_validate hsettings
  obtain ⟨text, htext, hfed⟩ := exists_text_of_script? hscript
  rw [← hmarker, ← Assembler.feedAll_lines hne] at hfed
  refine ⟨text, htext, ?_⟩
  intro read plain marker handed
  have hcommands : assemble marker 1 (Text.newlineLines plain) = .ok script.commands := by
    rw [assemble, hfed]
    rfl
  refine ⟨Task.run_of_script? hscript, hcommands, fun command hcommand => ?_, ?_,
    Shell.handed_typed hne read, Text.unifyBoundaries_eq_self⟩
  · exact (Assembler.endsAt_of_mem_feedAll hfed command hcommand).endsIn
  · obtain ⟨commands, htyped, hhanded⟩ := Shell.handed_typed hne plain
    rw [Except.ok.inj (htyped.symm.trans hcommands)] at hhanded
    exact hhanded

/-- A form feed ends a comment and a line of a script. -/
theorem replayed_as_typed_of_formFeed :
    let content := "STATES a; # b\x0cSTATES c\n;".toList.map fun c => UInt8.ofNat c.toNat
    let s := Session.start Config.standard { home := [], files := [(["a"], content)] }
    let plain := "STATES a; # b\nSTATES c\n;".toList
    ∃ t script, (⟨s, .command "LOAD a" none⟩ : Call).opened? = some (t, script) ∧
      script.commands = [(1, "STATES a"), (3, "STATES c")] ∧
      ({} : Assembler).EndsIn plain (3, "STATES c") ∧
      (Shell.start s).handed (Shell.typed plain ++ [.line ""]) = script.commands := by
  intro content s plain
  have hs : s.Reachable := .start validate_standard _
  have hread : (⟨s, .command "LOAD a" none⟩ : Call).opened?.map (fun opened =>
      (opened.2.commands, opened.1.text?, opened.1.session.config.commentPrefix))
      = some ([(1, "STATES a"), (3, "STATES c")],
        some "STATES a; # b\x0cSTATES c\n;".toList, "#") := by
    decide +kernel
  obtain ⟨⟨t, script⟩, hopened, hread⟩ := Option.map_eq_some_iff.1 hread
  obtain ⟨hcommands, hread⟩ := Prod.mk.inj hread
  obtain ⟨htext, hmarker⟩ := Prod.mk.inj hread
  dsimp only at hcommands
  obtain ⟨-, hscript⟩ := Call.opened?_eq_some.1 hopened
  obtain ⟨text, htext', -, -, hends, hhanded, -⟩ := replayed_as_typed hscript hs hmarker.symm
  obtain rfl := Option.some.inj (htext.symm.trans htext')
  refine ⟨t, script, hopened, hcommands, ?_, ?_⟩
  · exact hends (3, "STATES c") (by simp [hcommands])
  · rw [hcommands] at hhanded ⊢
    exact hhanded.trans (by decide +kernel)

/-- **A script is not what one gets by typing its text**: here it declares a state, and its text is
a comment. -/
theorem exists_replayed_not_as_typed :
    ¬ ∀ (s : Session) (request : Request) (t : Task) (script : Script) (text : List Char),
      s.Reachable → (⟨s, request⟩ : Call).opened? = some (t, script) → t.text? = some text →
        assemble t.session.config.commentPrefix 1 (Text.newlineLines (Text.unifyNewlines text))
          = .ok script.commands := by
  intro h
  obtain ⟨s, hs⟩ : ∃ s, s = Session.start Config.standard { home := [], files := [(["a"],
      "# note\x0cSTATES a;\n".toList.map fun c => UInt8.ofNat c.toNat)] } := ⟨_, rfl⟩
  have hread : (⟨s, .command "LOAD a" none⟩ : Call).opened?.map (fun opened =>
      (opened.2.commands, opened.1.text?, opened.1.session.config.commentPrefix))
      = some ([(2, "STATES a")], some "# note\x0cSTATES a;\n".toList, "#") := by
    rw [hs]
    decide +kernel
  obtain ⟨⟨t, script⟩, hopened, hread⟩ := Option.map_eq_some_iff.1 hread
  obtain ⟨hcommands, hread⟩ := Prod.mk.inj hread
  obtain ⟨htext, hmarker⟩ := Prod.mk.inj hread
  have hsame := h s _ t script _ (hs ▸ .start validate_standard _) hopened htext
  dsimp only at hcommands hmarker
  rw [hcommands, hmarker] at hsame
  revert hsame
  decide +kernel

end Session

end AutomatonShell
