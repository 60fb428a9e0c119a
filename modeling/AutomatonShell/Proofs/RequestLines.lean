import AutomatonShell.Proofs.CallLines
import AutomatonShell.Proofs.ProgramEnding
import AutomatonShell.Proofs.Recording

/-!
# What is asked for on one line

All calls of a run but those that were asked for are commands of scripts, and have their text on one
line (`isLine_of_mem_callsOf`).  So a newline is brought by a request itself, or by a snapshot
(`Call.BringsNewline.cases`).  A program asks for what its command line says and for what is typed,
and the latter is on one line already (`isLine_of_mem_programRequests`).

* `Request.text`, **`isLine_of_mem_callsOf`** — the texts of calls.
* `Request.BringsNewline`, `Call.LoadsNewline` — the ways in.
* **`isLine_of_mem_programRequests`** — what a program asks for.
-/

namespace AutomatonShell.Session

/-! ## Where calls come from -/

/-- What is asked for: the text of a command, or the name of a file. -/
def Request.text : Request → String
  | command text _ => text
  | file name => name

section

variable {c : Call} {bound : Nat}

/-- The calls that a script makes, when those of each command are known. -/
lemma isLine_of_mem_followed {config : Config} {s : Session} (hs : s.config = config)
    {commands : List NumberedCommand} (hcommands : ∀ command ∈ commands, IsLine command.2)
    (hcalls : ∀ c : Call, ∀ d ∈ begunAt bound c, d.session.config = c.session.config ∧
      (d.request = c.request ∨ IsLine d.request.text)) :
    ∀ d ∈ followed (processAt bound) (begunAt bound) s commands,
      d.session.config = config ∧ IsLine d.request.text := by
  induction commands generalizing s with
  | nil => exact List.forall_mem_nil _
  | cons command rest ih =>
    rw [List.forall_mem_cons] at hcommands
    rw [followed]
    refine List.forall_mem_append.2 ⟨fun d hd => ?_, ?_⟩
    · obtain ⟨hconfig, hsame | hline⟩ := hcalls _ d hd
      · exact ⟨hconfig.trans hs, hsame ▸ hcommands.1⟩
      · exact ⟨hconfig.trans hs, hline⟩
    · split_ifs
      · exact List.forall_mem_nil _
      · exact ih ((frame_processAt bound _ _ _).1.config.trans hs) hcommands.2

/-- **All calls of a request but its own** have the text of a command on one line, by induction on
the bound on nesting: they are commands of scripts. -/
lemma isLine_of_mem_begunAt (c : Call) :
    ∀ d ∈ begunAt bound c, d.session.config = c.session.config ∧
      (d.request = c.request ∨ IsLine d.request.text) := by
  induction bound generalizing c with
  | zero => exact List.forall_mem_nil _
  | succ bound ih =>
    cases hopened : c.opened? with
    | none =>
      rw [begunAt_of_opened?_eq_none hopened]
      exact List.forall_mem_singleton.2 ⟨rfl, Or.inl rfl⟩
    | some opened =>
      obtain ⟨t, script⟩ := opened
      obtain ⟨ht, hscript⟩ := Call.opened?_eq_some.1 hopened
      rw [begunAt_of_opened? hopened, List.forall_mem_cons]
      have hconfig : (t.enter script).config = c.session.config := (Call.frame_of_task? ht).config
      refine ⟨⟨rfl, Or.inl rfl⟩, fun d hd => ?_⟩
      exact (isLine_of_mem_followed hconfig (isLine_of_script? hscript).1 ih d hd).imp_right Or.inr

/-- **The calls of a run** were asked for, or have the text of a command on one line. -/
lemma isLine_of_mem_callsOf (s : Session) (steps : List Step) :
    ∀ d ∈ callsOf s steps, d.session.config = s.config ∧
      (.ask d.request ∈ steps ∨ IsLine d.request.text) := by
  induction steps generalizing s with
  | nil => exact List.forall_mem_nil _
  | cons step rest ih =>
    refine List.forall_mem_append.2 ⟨fun d hd => ?_, fun d hd => ?_⟩
    · cases step with
      | ask request =>
        refine (isLine_of_mem_begunAt _ d hd).imp_right (Or.imp_left fun hsame => ?_)
        exact hsame ▸ List.mem_cons_self
      | close => cases hd
    · obtain ⟨hconfig, hasked⟩ := ih _ d hd
      exact ⟨hconfig.trans (step.frame_apply s).config, hasked.imp_left (List.mem_cons_of_mem step)⟩

/-- **A request that brings a newline**: a TRANSITIONS command with a broken group, or the name of a
file with a newline in it. -/
def Request.BringsNewline : Request → Prop
  | command text _ => ∃ command, Command.ofText? (trimCommand text.toList) = some command ∧
      Keyword.ofName? command.first = some .transitions ∧
      ∃ group ∈ command.body.splitOn ',', IsBroken group
  | file name => ¬ IsLine name

/-- **A call that loads a newline** from a snapshot. -/
def Call.LoadsNewline (c : Call) : Prop :=
  ∃ t file, c.task? = some t ∧ t.file? = some file ∧ t.session.config.isBinary file = true ∧
    SnapshotBringsNewline (t.session.snapshotAt file)

/-- A newline is brought by what is asked for, or by a snapshot. -/
lemma Call.BringsNewline.cases (h : c.BringsNewline) :
    c.request.BringsNewline ∨ c.LoadsNewline := by
  obtain ⟨t, ht, hbrings⟩ := h
  cases hbrings with
  | snapshot hfile hbinary hcontent => exact Or.inr ⟨t, _, ht, hfile, hbinary, hcontent⟩
  | @group group hkeyword hmem hbroken =>
    left
    cases makes_of_task? ht with
    | file => cases hkeyword
    | command running parsed known =>
      cases hkeyword
      exact ⟨_, parsed, known, group, hmem, hbroken⟩
  | @name file hfile hnewline =>
    left
    cases makes_of_task? ht with
    | file =>
      obtain rfl := Option.some.inj hfile
      exact hnewline
    | command running parsed =>
      -- the words of a command hold no newline
      exact absurd (isLine_of_not_isBlank
        (not_isBlank_of_ofText? parsed file (Task.mem_words_of_file? hfile))) hnewline

/-- A request on one line brings no newline. -/
lemma Request.BringsNewline.not_isLine_text {request : Request} (h : request.BringsNewline) :
    ¬ IsLine request.text := by
  cases request with
  | file name => exact h
  | command text line =>
    obtain ⟨command, hcommand, -, group, hgroup, -, hnewline⟩ := h
    have hbody : '\n' ∈ command.body :=
      (infix_of_mem_splitOn hgroup).subset ((Assembler.strip_isInfix group).subset hnewline)
    exact not_not.2 (mem_of_mem_trimCommand (mem_of_mem_body hcommand hbody))

end

/-! ## Programs -/

/-- What a dialogue asks for is on one line, if its readings are lines. -/
lemma isLine_of_mem_dialogue {a : Assembler} (hpieces : ∀ piece ∈ a.pieces, '\n' ∉ piece)
    {readings : List Reading}
    (hreadings : ∀ text, .line text ∈ readings → IsLine (Shell.withoutNewlines text))
    (number : Nat) : ∀ request ∈ Shell.requests a number readings, IsLine request.text := by
  induction readings generalizing a number with
  | nil => exact List.forall_mem_nil _
  | cons reading rest ih =>
    have hrest : ∀ text, .line text ∈ rest → IsLine (Shell.withoutNewlines text) :=
      fun text htext => hreadings text (List.mem_cons_of_mem reading htext)
    cases reading with
    | interrupt => exact ih (List.forall_mem_nil _) hrest number
    | line text =>
      rw [Shell.requests]
      split_ifs
      · exact List.forall_mem_nil _
      · split
        · exact List.forall_mem_nil _
        · next commands b hfeed =>
          obtain ⟨hcommands, hleft⟩ := Assembler.not_mem_feed (by decide)
            (hreadings text List.mem_cons_self) hfeed hpieces
          exact List.forall_mem_append.2
            ⟨List.forall_mem_map.2 hcommands, ih hleft hrest (number + 1)⟩

lemma isLine_of_mem_typed {text : List Char} {line : String}
    (h : .line line ∈ Shell.typed text) : IsLine (Shell.withoutNewlines line) := by
  obtain ⟨init, last, hsplit⟩ := exists_splitOn_eq_append text '\n'
  have hfree : ∀ l ∈ init ++ [last], '\n' ∉ l := fun l hl =>
    not_mem_of_mem_splitOn (hsplit ▸ hl)
  rw [Shell.typed, hsplit, List.dropLast_concat, List.getLastD_concat] at h
  rcases List.mem_append.1 h with h | h
  · obtain ⟨piece, hpiece, heq⟩ := List.mem_map.1 h
    obtain rfl := Reading.line.inj heq
    have hmem := hfree piece (List.mem_append_left _ hpiece)
    rw [(Shell.withoutNewlines_line hmem).2]
    exact isLine_ofList.2 hmem
  · split_ifs at h
    · cases h
    · obtain rfl := Reading.line.inj (List.mem_singleton.1 h)
      have hmem := hfree last (by simp)
      rw [(Shell.withoutNewlines_line hmem).1]
      exact isLine_ofList.2 hmem

lemma isLine_of_mem_logRequests {log : Option String} (hlog : ∀ file ∈ log, IsLine file) :
    ∀ request ∈ Running.logRequests log, IsLine request.text := by
  cases log with
  | none => exact List.forall_mem_nil _
  | some file =>
    rw [Running.logRequests]
    split_ifs
    · exact List.forall_mem_nil _
    · exact List.forall_mem_singleton.2 ((isLine_behind (by decide)).2 (hlog file rfl))

lemma isLine_of_mem_commandRequests {commands : List String}
    (hcommands : ∀ command ∈ commands, IsLine command) (marker : String) :
    ∀ request ∈ Running.commandRequests marker commands, IsLine request.text := by
  rw [Running.commandRequests]
  split
  · exact List.forall_mem_nil _
  · next assembled hassembled =>
    rw [assemble] at hassembled
    cases hfeed : ({ commentPrefix := marker } : Assembler).feedAll 1
        (commands.map (· ++ String.singleton separator)) with
    | error e =>
      rw [hfeed] at hassembled
      cases hassembled
    | ok fed =>
      rw [hfeed] at hassembled
      obtain rfl := Except.ok.inj hassembled
      have hlines : ∀ line ∈ commands.map (· ++ String.singleton separator), IsLine line :=
        List.forall_mem_map.2 fun command hcommand =>
          isLine_append.2 ⟨hcommands command hcommand, by decide⟩
      exact List.forall_mem_map.2
        (Assembler.not_mem_feedAll (by decide) hlines hfeed (List.forall_mem_nil _)).1

/-- **What a program asks for is on one line**, if the arguments of its command line are.  What is
typed always is. -/
theorem isLine_of_mem_programRequests {i : Invocation} (hlog : ∀ file ∈ i.log, IsLine file)
    (hfiles : ∀ file ∈ i.files, IsLine file) (hcommands : ∀ command ∈ i.commands, IsLine command)
    (text : List Char) :
    ∀ request ∈ programRequests i (Shell.typed text), IsLine request.text := by
  simp only [programRequests, List.forall_mem_append]
  refine ⟨?_, ?_⟩
  · rw [Running.requests]
    split_ifs
    · exact List.forall_mem_nil _
    · exact List.forall_mem_append.2
        ⟨List.forall_mem_append.2 ⟨isLine_of_mem_logRequests hlog, List.forall_mem_map.2 hfiles⟩,
          isLine_of_mem_commandRequests hcommands _⟩
  · split_ifs
    · exact List.forall_mem_nil _
    · refine isLine_of_mem_dialogue (List.forall_mem_nil _) (fun line hline => ?_) 0
      rcases List.mem_append.1 hline with htyped | hend
      · exact isLine_of_mem_typed htyped
      · obtain rfl := Reading.line.inj (List.mem_singleton.1 hend)
        decide

end AutomatonShell.Session
