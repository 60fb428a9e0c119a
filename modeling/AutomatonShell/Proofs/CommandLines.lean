import AutomatonShell.Proofs.TaskFaults
import AutomatonShell.Proofs.WholeText

/-!
# The line of a command

A command is known by a line, and this is the line of the semicolon that ends it.  In a script, what
makes a semicolon the end of a command is that nothing but this command is unfinished in front of
it: the lines before it, and what stands before it on its own line, read as a text of their own,
leave the command as the unfinished one (`Assembler.EndsAt`).  What a session has to say about the
command then names this line and no other.

* **`Assembler.endsAt_of_mem_feedAll`** — the commands of a script.
* `Session.IsAbout` — replies of which every warning and every error names a line.
* **`Session.isAbout_answer`** — requests that replay no script.
-/

namespace AutomatonShell

/-! ## Where a command ends -/

namespace Assembler

/-- **A semicolon ends a command** of some lines: it stands on the line of the command's number and
not in a comment, and all that stands before it leaves just this command unfinished. -/
def EndsAt (a : Assembler) (start : Int) (lines : List String) (command : NumberedCommand) : Prop :=
  ∃ before line after front back finished rest,
    lines = before ++ line :: after ∧ command.1 = start + before.length ∧
    Text.beforeMarker a.commentPrefix.toList line.toList = front ++ separator :: back ∧
    a.feedAll start (before ++ [String.ofList front]) = .ok (finished, rest) ∧
    rest.pending = command.2

variable {a b c : Assembler} {start : Int} {line : String} {lines : List String}
  {commands : List NumberedCommand} {pieces parts : List (List Char)} {text : List Char}

/-- A command that parts finish is left unfinished by the parts up to its last. -/
lemma exists_of_mem_absorb (h : text ∈ (absorb pieces parts).1) :
    ∃ init part next rest, parts = init ++ part :: next :: rest ∧
      joinPieces (absorb pieces (init ++ [part])).2 = text := by
  fun_induction absorb pieces parts with
  | case1 | case2 => simp at h
  | case3 pieces part rest hrest command finished unfinished heq ih =>
    obtain ⟨next, more, rfl⟩ := List.exists_cons_of_ne_nil hrest
    have hlater : text ∈ finished → ∃ init last next' rest,
        part :: next :: more = init ++ last :: next' :: rest ∧
          joinPieces (absorb pieces (init ++ [last])).2 = text := by
      intro hmem
      obtain ⟨init, last, next', rest, hparts, hjoin⟩ := ih (by rwa [heq])
      refine ⟨part :: init, last, next', rest, by rw [hparts, List.cons_append], ?_⟩
      obtain ⟨first, others, hcons⟩ := List.exists_cons_of_ne_nil (l := init ++ [last]) (by simp)
      rw [List.cons_append, hcons, absorb]
      · rwa [hcons] at hjoin
      · simp
    dsimp only at h
    split_ifs at h with hempty
    · exact hlater h
    · rcases List.mem_cons.1 h with rfl | h
      · exact ⟨[], part, next, more, rfl, rfl⟩
      · exact hlater h

lemma intercalate_append_cons (sep : Char) (init : List (List Char)) (part next : List Char)
    (rest : List (List Char)) :
    [sep].intercalate (init ++ part :: next :: rest)
      = [sep].intercalate (init ++ [part]) ++ sep :: [sep].intercalate (next :: rest) := by
  induction init with
  | nil => simp [List.intercalate_cons_cons]
  | cons first init ih =>
    obtain ⟨p, ps, hps⟩ := List.exists_cons_of_ne_nil (l := init ++ [part]) (by simp)
    obtain ⟨q, qs, hqs⟩ := List.exists_cons_of_ne_nil (l := init ++ part :: next :: rest) (by simp)
    rw [hps, hqs] at ih
    rw [List.cons_append, List.cons_append, hps, hqs, List.intercalate_cons_cons,
      List.intercalate_cons_cons, ih]
    simp only [List.append_assoc]

/-- **A command that a line finishes**, with the semicolon that ends it. -/
lemma endsAt_of_mem_feed (h : a.feed line start = .ok (commands, c)) {command : NumberedCommand}
    (hmem : command ∈ commands) (after : List String) : a.EndsAt start (line :: after) command := by
  rw [feed] at h
  split_ifs at h with hmarker
  obtain ⟨rfl, -⟩ := Prod.mk.inj (Except.ok.inj h)
  obtain ⟨text, htext, rfl⟩ := List.mem_map.1 hmem
  obtain ⟨init, part, next, rest, hparts, hjoin⟩ := exists_of_mem_absorb htext
  obtain ⟨front, hfront⟩ : ∃ front, front = [separator].intercalate (init ++ [part]) := ⟨_, rfl⟩
  have hcut : ∀ p ∈ init ++ part :: next :: rest, separator ∉ p :=
    hparts ▸ fun p hp => not_mem_of_mem_splitOn hp
  have hcontent : Text.beforeMarker a.commentPrefix.toList line.toList
      = front ++ separator :: [separator].intercalate (next :: rest) := by
    rw [hfront, ← intercalate_append_cons, ← hparts, parts, List.intercalate_splitOn]
  -- what stands in front of the semicolon is cut where the line is
  have hsame : parts a.commentPrefix (String.ofList front) = init ++ [part] := by
    have hfree : ¬ a.commentPrefix.toList <:+: front := fun hin =>
      Text.not_infix_beforeMarker (by simpa using hmarker) line.toList
        (hcontent ▸ hin.trans (List.prefix_append _ _).isInfix)
    rw [parts, String.toList_ofList, Text.beforeMarker_of_not_infix hfree, hfront,
      List.splitOn_intercalate separator (fun p hp => hcut p ?_) (by simp)]
    rw [← List.singleton_append, ← List.append_assoc]
    exact List.mem_append_left _ hp
  obtain ⟨⟨finished, unfinished⟩, habsorb⟩ : ∃ absorbed,
      absorb a.pieces (init ++ [part]) = absorbed := ⟨_, rfl⟩
  have hfed : a.feedAll start [String.ofList front]
      = .ok (finished.map (fun command => (start, String.ofList command)) ++ [],
          { a with pieces := unfinished }) := by
    rw [feedAll, feed, if_neg hmarker, hsame, habsorb]
    rfl
  rw [habsorb] at hjoin
  exact ⟨[], line, after, front, _, _, _, rfl, by simp, hcontent, hfed,
    congrArg String.ofList hjoin⟩

lemma EndsAt.cons (hfeed : a.feed line start = .ok (commands, c)) {command : NumberedCommand}
    (h : c.EndsAt (start + 1) lines command) : a.EndsAt start (line :: lines) command := by
  have hprefix : c.commentPrefix = a.commentPrefix := by
    rw [feed] at hfeed
    split_ifs at hfeed
    obtain ⟨-, rfl⟩ := Prod.mk.inj (Except.ok.inj hfeed)
    rfl
  obtain ⟨before, last, after, front, back, finished, rest, rfl, hnumber, hcontent, hfed, hrest⟩ :=
    h
  refine ⟨line :: before, last, after, front, back, commands ++ finished, rest, rfl, ?_,
    hprefix ▸ hcontent, ?_, hrest⟩
  · rw [hnumber, List.length_cons]
    omega
  · simp only [List.cons_append, feedAll, hfeed, hfed, bind, Except.bind, pure, Except.pure]

/-- **The commands of some lines** end at semicolons on the lines of their numbers, by induction on
the lines. -/
theorem endsAt_of_mem_feedAll (h : a.feedAll start lines = .ok (commands, b)) :
    ∀ command ∈ commands, a.EndsAt start lines command := by
  induction lines generalizing a start commands with
  | nil =>
    obtain ⟨rfl, -⟩ := Prod.mk.inj (Except.ok.inj h)
    simp
  | cons line rest ih =>
    rw [feedAll] at h
    obtain ⟨⟨first, c⟩, hfirst, h⟩ := bind_eq_ok.1 h
    obtain ⟨⟨more, d⟩, hmore, h⟩ := bind_eq_ok.1 h
    obtain ⟨rfl, rfl⟩ := Prod.mk.inj (Except.ok.inj h)
    refine List.forall_mem_append.2 ⟨fun command hcommand => ?_, fun command hcommand => ?_⟩
    · exact endsAt_of_mem_feed hfirst hcommand rest
    · exact (ih hmore command hcommand).cons hfirst

end Assembler

/-! ## What is said about a command -/

namespace Session

/-- **A reply about the command on a line**: every warning and every error in it names the line. -/
def IsAbout (line : Option Int) (r : Reply) : Prop :=
  ∀ m ∈ r.output, m.severity ≠ .info → m.line = line

section

variable {s : Session} {line : Option Int} {first : Reply} {next : Session → Reply}

lemma isAbout_done (line : Option Int) (s : Session) : IsAbout line (.done s) := by
  simp [IsAbout, Outcome.done]

lemma isAbout_stop (line : Option Int) (s : Session) (fault : Fault) :
    IsAbout line (.stop s fault) := by
  simp [IsAbout, Outcome.stop]

lemma isAbout_say (s : Session) (line : Option Int) (d : Diagnostic) :
    IsAbout line (s.say line d) := by
  intro m hm hinfo
  obtain rfl := List.mem_singleton.1 hm
  exact if_neg hinfo

lemma IsAbout.andThen (hfirst : IsAbout line first) (hnext : ∀ s, IsAbout line (next s)) :
    IsAbout line (first.andThen next) := by
  cases hfailure : first.failure with
  | some fault => rwa [Outcome.andThen_of_failure_eq_some hfailure]
  | none =>
    rw [Outcome.andThen_of_failure_eq_none hfailure]
    exact List.forall_mem_append.2 ⟨hfirst, hnext _⟩

lemma isAbout_sayAll (s : Session) (line : Option Int) (ds : List Diagnostic) :
    IsAbout line (s.sayAll line ds) := by
  induction ds generalizing s with
  | nil => exact isAbout_done line s
  | cons d rest ih => exact (isAbout_say s line d).andThen fun s => ih s

lemma isAbout_declare (s : Session) (line : Option Int) (d : Declaration) :
    IsAbout line (s.declare line d) := by
  refine (isAbout_sayAll _ line d.output).andThen fun t => ?_
  cases d.failure with
  | none => exact isAbout_done line t
  | some e => exact isAbout_stop line t _

lemma isAbout_listAll (s : Session) (line : Option Int) : IsAbout line (s.listAll line) := by
  rw [listAll]
  split
  · exact isAbout_say s line _
  · exact isAbout_sayAll s line _

/-- A brief answer, whatever it says. -/
lemma Brief.isAbout {answers : Diagnostic → Prop} {r : Reply} (h : Brief s line answers r) :
    IsAbout line r := by
  cases h with
  | done => exact isAbout_done line s
  | say => exact isAbout_say s line _
  | stop => exact isAbout_stop line s _

lemma isAbout_exit (s : Session) (line : Option Int) : IsAbout line (s.exit line) :=
  (isAbout_say s line _).andThen fun _ => isAbout_done line _

/-- A LOAD that replays no script. -/
lemma isAbout_load {t : Task} {file : String} (hfile : t.file? = some file)
    (hscript : t.script? = none) (process : Action) :
    IsAbout t.line (load process t.session file t.line) := by
  obtain ⟨r, hr, hload⟩ := t.exists_unopened hfile hscript
  rw [hload]
  rcases hr.restore_or_brief with ⟨-, rfl⟩ | hbrief
  · exact (brief_restore t.session file t.line).isAbout
  · exact hbrief.isAbout

/-- **A command carried out**, with what LOAD says left open. -/
lemma isAbout_perform {load : Action} (s : Session) (keyword : Keyword) (words : List String)
    (body : List Char)
    (hload : ∀ file, keyword = .load → words = [file] → IsAbout line (load s file line)) :
    IsAbout line (s.perform load keyword words body line) := by
  obtain ⟨handler, hhandles, hperform⟩ := exists_handles keyword words body
  rw [hperform]
  cases hhandles with
  | define => exact isAbout_declare s line _
  | arity => exact isAbout_say s line _
  | listAll => exact isAbout_listAll s line
  | print file => exact (brief_print s file line).isAbout
  | execute text => exact (brief_execute s text line).isAbout
  | compile file => exact (brief_compile s file line).isAbout
  | load file => exact hload file rfl rfl
  | stopLog => exact (brief_stopLog s line).isAbout
  | openLog file =>
    obtain ⟨opened, -, hopened⟩ := brief_openLog s file line
    exact hopened.isAbout
  | exit => exact isAbout_exit s line

end

/-- The line of a request. -/
def Request.line? : Request → Option Int
  | command _ line => line
  | file _ => none

lemma Call.line_of_task? {c : Call} {t : Task} (h : c.task? = some t) :
    t.line = c.request.line? := by
  cases makes_of_task? h <;> rfl

/-- **A request that replays no script** is answered about its own line. -/
theorem isAbout_answer {s : Session} {request : Request}
    (hopened : Call.opened? ⟨s, request⟩ = none) : IsAbout request.line? (s.answer request) := by
  rw [← answerAt_maxNesting]
  cases ht : Call.task? ⟨s, request⟩ with
  | some t =>
    have hscript : t.script? = none := by simpa [Call.opened?, ht] using hopened
    have hline : t.line = request.line? := Call.line_of_task? ht
    rw [answerAt_of_task? ht, ← hline]
    refine isAbout_perform _ _ _ _ fun file hkeyword hwords => ?_
    exact isAbout_load (by rw [Task.file?, hkeyword, hwords]) hscript _
  | none =>
    cases Call.idle_of_task?_eq_none ht with
    | finished finished =>
      rw [answerAt_of_finished finished]
      exact isAbout_done _ s
    | blank running blank =>
      rw [answerAt_of_blank blank]
      exact isAbout_done _ s
    | unknown running parsed unknown =>
      rw [answerAt_of_unknown running parsed unknown]
      exact isAbout_say _ _ _

end Session

end AutomatonShell
