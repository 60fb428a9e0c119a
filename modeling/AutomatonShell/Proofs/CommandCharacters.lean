import AutomatonShell.Proofs.LineTexts
import AutomatonShell.Proofs.TypedScripts

/-!
# The characters of commands

A command that is put together from lines has no other characters than these lines, but for the
spaces between its pieces (`Assembler.not_mem_feedAll`).  The lines of a script hold no newline, so
neither do its commands (`isLine_of_script?`).

* **`Assembler.not_mem_feedAll`** — the characters of the commands that lines are put together to.
* `isLine_of_script?` — the commands of a script.
* `mem_of_mem_trimCommand`, `mem_of_mem_body`, `isLine_first_of_ofText?` — the parts of a command.
-/

namespace AutomatonShell

/-! ## Lines -/

namespace Assembler

variable {a b : Assembler} {pieces parts : List (List Char)} {c : Char}

lemma not_mem_push (h : ∀ piece ∈ pieces, c ∉ piece) {part : List Char} (hpart : c ∉ part) :
    ∀ piece ∈ push pieces part, c ∉ piece := by
  simp only [push]
  split_ifs
  · exact h
  · refine List.forall_mem_append.2 ⟨h, List.forall_mem_singleton.2 fun hmem => ?_⟩
    exact hpart ((strip_isInfix part).subset hmem)

lemma not_mem_joinPieces (hc : c ≠ ' ') (h : ∀ piece ∈ pieces, c ∉ piece) :
    c ∉ joinPieces pieces := by
  intro hmem
  rcases mem_intercalate hmem with hspace | ⟨piece, hpiece, hin⟩
  · exact hc (List.mem_singleton.1 hspace)
  · exact h piece hpiece hin

/-- **The characters of commands** stand in the parts that they are put together from, but for the
spaces between them. -/
lemma not_mem_absorb (hc : c ≠ ' ') (hpieces : ∀ piece ∈ pieces, c ∉ piece)
    (hparts : ∀ part ∈ parts, c ∉ part) :
    (∀ command ∈ (absorb pieces parts).1, c ∉ command) ∧
      ∀ piece ∈ (absorb pieces parts).2, c ∉ piece := by
  fun_induction absorb pieces parts with
  | case1 => exact ⟨List.forall_mem_nil _, hpieces⟩
  | case2 pieces last =>
    exact ⟨List.forall_mem_nil _, not_mem_push hpieces (hparts last (List.mem_singleton_self last))⟩
  | case3 pieces part rest hrest command finished unfinished heq ih =>
    rw [List.forall_mem_cons] at hparts
    obtain ⟨hfinished, hunfinished⟩ := ih (List.forall_mem_nil _) hparts.2
    rw [heq] at hfinished hunfinished
    refine ⟨?_, hunfinished⟩
    split_ifs
    · exact hfinished
    · exact List.forall_mem_cons.2
        ⟨not_mem_joinPieces hc (not_mem_push hpieces hparts.1), hfinished⟩

/-- A line that is read. -/
lemma not_mem_feed (hc : c ≠ ' ') {line : String} (hline : c ∉ line.toList) {number : Int}
    {commands : List NumberedCommand} (h : a.feed line number = .ok (commands, b))
    (hpieces : ∀ piece ∈ a.pieces, c ∉ piece) :
    (∀ command ∈ commands, c ∉ command.2.toList) ∧ ∀ piece ∈ b.pieces, c ∉ piece := by
  rw [feed] at h
  split_ifs at h
  obtain ⟨rfl, rfl⟩ := Prod.mk.inj (Except.ok.inj h)
  have hparts : ∀ part ∈ Assembler.parts a.commentPrefix line, c ∉ part := fun part hpart hmem =>
    hline ((Text.beforeMarker_isPrefix _ _).subset ((infix_of_mem_splitOn hpart).subset hmem))
  obtain ⟨hfinished, hunfinished⟩ := not_mem_absorb hc hpieces hparts
  refine ⟨fun command hcommand => ?_, hunfinished⟩
  obtain ⟨text, htext, rfl⟩ := List.mem_map.1 hcommand
  rw [String.toList_ofList]
  exact hfinished text htext

/-- **What lines are put together to** has no other characters than the lines, but for spaces. -/
lemma not_mem_feedAll (hc : c ≠ ' ') {lines : List String}
    (hlines : ∀ line ∈ lines, c ∉ line.toList) {start : Int} {commands : List NumberedCommand}
    (h : a.feedAll start lines = .ok (commands, b)) (hpieces : ∀ piece ∈ a.pieces, c ∉ piece) :
    (∀ command ∈ commands, c ∉ command.2.toList) ∧ ∀ piece ∈ b.pieces, c ∉ piece := by
  induction lines generalizing a start commands with
  | nil =>
    obtain ⟨rfl, rfl⟩ := Prod.mk.inj (Except.ok.inj h)
    exact ⟨List.forall_mem_nil _, hpieces⟩
  | cons line rest ih =>
    rw [List.forall_mem_cons] at hlines
    rw [feedAll] at h
    obtain ⟨⟨first, a'⟩, hfirst, h⟩ := bind_eq_ok.1 h
    obtain ⟨⟨more, b'⟩, hmore, h⟩ := bind_eq_ok.1 h
    obtain ⟨rfl, rfl⟩ := Prod.mk.inj (Except.ok.inj h)
    obtain ⟨hcommands, hunfinished⟩ := not_mem_feed hc hlines.1 hfirst hpieces
    obtain ⟨hlater, hleft⟩ := ih hlines.2 hmore hunfinished
    exact ⟨List.forall_mem_append.2 ⟨hcommands, hlater⟩, hleft⟩

end Assembler

namespace Session

/-! ## Scripts -/

/-- **The commands of a script are on one line**, and so is its unfinished one. -/
lemma isLine_of_script? {t : Task} {script : Script} (h : t.script? = some script) :
    (∀ command ∈ script.commands, IsLine command.2) ∧ IsLine script.rest.pending := by
  obtain ⟨text, -, hfeed⟩ := exists_text_of_script? h
  have hspace : '\n' ≠ ' ' := by decide
  suffices hlines : ∀ line ∈ (Text.lines (Text.unifyNewlines text)).map String.ofList,
      '\n' ∉ line.toList by
    obtain ⟨hcommands, hpieces⟩ :=
      Assembler.not_mem_feedAll hspace hlines hfeed (List.forall_mem_nil _)
    exact ⟨hcommands, isLine_ofList.2 (Assembler.not_mem_joinPieces hspace hpieces)⟩
  intro line hline
  obtain ⟨letters, hletters, rfl⟩ := List.mem_map.1 hline
  rw [String.toList_ofList]
  have hpiece : letters ∈ (Text.unifyNewlines text).splitOnP Text.isLineBoundary := by
    rw [Text.lines] at hletters
    split_ifs at hletters
    · exact List.dropLast_subset _ hletters
    · exact hletters
  rw [← Text.splitOn_unifyBoundaries] at hpiece
  exact not_mem_of_mem_splitOn hpiece

/-! ## Parts of a command -/

lemma mem_of_mem_trimCommand {text : List Char} {ch : Char} (h : ch ∈ trimCommand text) :
    ch ∈ text := by
  have hstrip : ∀ ch ∈ Text.strip text, ch ∈ text := (Assembler.strip_isInfix text).subset
  simp only [trimCommand] at h
  split_ifs at h
  · rw [Text.stripEnd, Text.dropEndWhile, List.mem_reverse] at h
    have hlast := List.mem_reverse.1 ((List.dropWhile_sublist _).subset h)
    exact hstrip ch (List.dropLast_subset _ hlast)
  · exact hstrip ch h

lemma mem_of_mem_body {text : List Char} {command : Command}
    (hcommand : Command.ofText? text = some command) {ch : Char} (h : ch ∈ command.body) :
    ch ∈ text := by
  rw [Command.ofText?] at hcommand
  split at hcommand
  · cases hcommand
  · obtain rfl := Option.some.inj hcommand
    have hrest := List.mem_of_mem_drop ((Assembler.strip_isInfix _).subset h)
    exact (List.dropWhile_sublist _).subset hrest

lemma isLine_first_of_ofText? {text : List Char} {command : Command}
    (h : Command.ofText? text = some command) : IsLine command.first := by
  rw [Command.ofText?] at h
  split at h
  · cases h
  · next first rest hwords =>
    obtain rfl := Option.some.inj h
    refine isLine_of_not_isBlank ?_
    rw [String.toList_ofList]
    exact not_isBlank_of_mem_words (hwords ▸ List.mem_cons_self)

end Session

end AutomatonShell
