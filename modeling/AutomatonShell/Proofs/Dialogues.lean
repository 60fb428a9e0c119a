import AutomatonShell.Proofs.Exits
import AutomatonShell.Proofs.Faults
import AutomatonShell.Proofs.ListingReplay
import AutomatonShell.Proofs.ProgramRuns
import AutomatonShell.Proofs.WholeText

/-!
# Dialogues with interrupts

A dialogue reads lines one at a time, and an interrupt drops the unfinished command.  What it hands
to the session can be said without going through the dialogue.  The interrupts cut the readings into
blocks of lines; each block is read by itself, its lines numbered on from those of the blocks before
it; and the session is handed the commands of all blocks, up to the one that ends it or breaks off.

The argument is one induction over the readings (`hears_turns`).  A line of the block that is being
read moves its commands from what is still to come into what was handed; an interrupt begins the
next block with an assembler that holds nothing.

* `Session.heeded` — the commands that a session is handed before it ends.
* `blocks`, `blockCommands` — the blocks of a dialogue, and their commands.
* `Shell.handed` — what a dialogue hands to its session, turn by turn.
* `Shell.Hears` — what a dialogue comes to; `Hears.interrupt` and `Hears.line` are the steps, and
  **`Shell.hears_turns`** the whole of it, by its blocks.
* **`Shell.dialogue_of_blocks`** — a dialogue as a whole, with the cues that it shows.
-/

namespace AutomatonShell

open Session

/-- A second step adds to what the first has said. -/
lemma Outcome.exists_andThen_output {σ μ φ : Type} (first : Outcome σ μ φ)
    (next : σ → Outcome σ μ φ) : ∃ later, (first.andThen next).output = first.output ++ later := by
  cases hfailure : first.failure with
  | some fault => exact ⟨[], by simp [andThen_of_failure_eq_some hfailure]⟩
  | none => exact ⟨_, by rw [andThen_of_failure_eq_none hfailure]⟩

/-! ## Commands up to the end of a session -/

namespace Session

/-- **The commands that a session is handed**, one after the other, until it ends or one breaks
off. -/
def heeded : Session → List NumberedCommand → List NumberedCommand
  | _, [] => []
  | s, command :: rest =>
    if s.finished then []
    else
      let reply := s.process command.2 (some command.1)
      command :: if reply.failure.isSome then [] else heeded reply.state rest

variable {s : Session} {commands : List NumberedCommand}

lemma heeded_of_finished (h : s.finished = true) (commands : List NumberedCommand) :
    s.heeded commands = [] := by
  cases commands with
  | nil => rfl
  | cons command rest => rw [heeded, if_pos h]

lemma processAll_cons (s : Session) (command : NumberedCommand) (rest : List NumberedCommand) :
    processAll process s (command :: rest)
      = (s.process command.2 (some command.1)).andThen fun s => processAll process s rest := rfl

lemma processAll_process_of_finished (h : s.finished = true) (commands : List NumberedCommand) :
    processAll process s commands = .done s := by
  rw [process_eq_processAt]
  exact processAll_of_finished h maxNesting commands

/-- Commands one after the other. -/
lemma heeded_append (s : Session) (first second : List NumberedCommand) :
    s.heeded (first ++ second) = s.heeded first ++
      if (processAll process s first).failure.isSome then []
      else (processAll process s first).state.heeded second := by
  induction first generalizing s with
  | nil => rfl
  | cons command rest ih =>
    cases hfinished : s.finished with
    | true =>
      rw [heeded_of_finished hfinished, heeded_of_finished hfinished,
        processAll_process_of_finished hfinished, Outcome.done, heeded_of_finished hfinished]
      rfl
    | false =>
      rw [List.cons_append, heeded, heeded, if_neg (by simp [hfinished]),
        if_neg (by simp [hfinished]), processAll_cons]
      dsimp only
      cases hfailure : (s.process command.2 (some command.1)).failure with
      | some fault => simp [Outcome.andThen_of_failure_eq_some hfailure, hfailure]
      | none => simp [Outcome.andThen_of_failure_eq_none hfailure, ih]

/-- **Commands that neither end the session nor break off** are all handed to it. -/
lemma heeded_eq_self (hfailure : (processAll process s commands).failure = none)
    (hopen : (processAll process s commands).state.finished = false) :
    s.heeded commands = commands := by
  induction commands generalizing s with
  | nil => rfl
  | cons command rest ih =>
    cases hfinished : s.finished with
    | true =>
      rw [processAll_process_of_finished hfinished] at hopen
      exact absurd hfinished (by simpa [Outcome.done] using hopen)
    | false =>
      rw [processAll_cons] at hfailure hopen
      cases hfirst : (s.process command.2 (some command.1)).failure with
      | some fault =>
        rw [Outcome.andThen_of_failure_eq_some hfirst, hfirst] at hfailure
        cases hfailure
      | none =>
        rw [Outcome.andThen_of_failure_eq_none hfirst] at hfailure hopen
        rw [heeded, if_neg (by simp [hfinished])]
        dsimp only
        rw [hfirst, Option.isSome_none, if_neg Bool.false_ne_true, ih hfailure hopen]

/-- **Behind the command that ends a session** none is handed to it. -/
lemma exists_cut (hopen : s.finished = false)
    (hfailure : (processAll process s commands).failure = none)
    (hended : (processAll process s commands).state.finished = true) :
    ∃ front command back, commands = front ++ command :: back ∧
      (processAll process s front).state.finished = false ∧
      (processAll process s (front ++ [command])).state.finished = true ∧
      s.heeded commands = front ++ [command] := by
  induction commands generalizing s with
  | nil => exact absurd (hopen.symm.trans hended) Bool.noConfusion
  | cons command rest ih =>
    rw [processAll_cons] at hfailure hended
    have hfirst : (s.process command.2 (some command.1)).failure = none :=
      (Outcome.andThen_failure_eq_none.1 hfailure).1
    have hheeded : s.heeded (command :: rest)
        = command :: (s.process command.2 (some command.1)).state.heeded rest := by
      rw [heeded, if_neg (by simp [hopen])]
      simp [hfirst]
    have hcons : ∀ more : List NumberedCommand, (processAll process s (command :: more)).state
        = (processAll process (s.process command.2 (some command.1)).state more).state := by
      intro more
      rw [processAll_cons, Outcome.andThen_of_failure_eq_none hfirst]
    rw [Outcome.andThen_of_failure_eq_none hfirst] at hfailure hended
    cases hfinished : (s.process command.2 (some command.1)).state.finished with
    | true =>
      refine ⟨[], command, rest, rfl, hopen, ?_, ?_⟩
      · rw [List.nil_append, hcons]
        exact hfinished
      · rw [hheeded, heeded_of_finished hfinished]
        rfl
    | false =>
      obtain ⟨front, last, back, rfl, hfront, hlast, hcut⟩ := ih hfinished hfailure hended
      refine ⟨command :: front, last, back, rfl, ?_, ?_, ?_⟩
      · rw [hcons, hfront]
      · rw [List.cons_append, hcons, hlast]
      · rw [hheeded, hcut, List.cons_append]

end Session

/-! ## Blocks -/

/-- The text of a line that is read. -/
def Reading.line? : Reading → Option String
  | .line text => some (Shell.withoutNewlines text)
  | .interrupt => none

/-- **The blocks of a dialogue**: the lines between one interrupt and the next. -/
def blocks (readings : List Reading) : List (List String) :=
  (readings.splitOn .interrupt).map (List.filterMap Reading.line?)

/-- **The commands of blocks of lines**, each block by itself, with the number of its first line. -/
def blockCommands (marker : String) : Int → List (List String) → List NumberedCommand
  | _, [] => []
  | start, block :: rest =>
    (assemble marker start block).toOption.getD [] ++
      blockCommands marker (start + block.length) rest

lemma blocks_nil : blocks [] = [[]] := rfl

lemma blocks_interrupt (readings : List Reading) :
    blocks (.interrupt :: readings) = [] :: blocks readings := by
  rw [blocks, List.splitOn_cons_eq_if_modifyHead]
  rfl

lemma blocks_line (text : String) (readings : List Reading) :
    blocks (.line text :: readings)
      = (blocks readings).modifyHead (Shell.withoutNewlines text :: ·) := by
  have hline : (Reading.line text == .interrupt) = false := rfl
  rw [blocks, List.splitOn_cons_eq_if_modifyHead, hline, if_neg Bool.false_ne_true, blocks]
  cases readings.splitOn .interrupt <;> rfl

lemma exists_blocks_eq_cons (readings : List Reading) :
    ∃ block others, blocks readings = block :: others := by
  refine List.exists_cons_of_ne_nil fun h => ?_
  exact List.splitOn_ne_nil _ _ (List.map_eq_nil_iff.1 h)

namespace Assembler

variable {a b : Assembler} {commands : List NumberedCommand} {start : Int} {line : String}

/-- The commands that lines finish, behind an unfinished one. -/
def finished (a : Assembler) (start : Int) (lines : List String) : List NumberedCommand :=
  ((a.feedAll start lines).map (·.1)).toOption.getD []

/-- What lines leave unfinished. -/
def after (a : Assembler) (lines : List String) : Assembler :=
  lines.foldl (fun a line => { a with
    pieces := (absorb a.pieces (parts a.commentPrefix line)).2 }) a

lemma feed_eq (hmarker : a.commentPrefix ≠ "") (line : String) (start : Int) :
    ∃ commands, a.feed line start = .ok (commands, a.after [line]) := by
  rw [feed, if_neg hmarker]
  exact ⟨_, rfl⟩

lemma commentPrefix_after (a : Assembler) (lines : List String) :
    (a.after lines).commentPrefix = a.commentPrefix := by
  induction lines generalizing a with
  | nil => rfl
  | cons line rest ih => exact ih _

lemma after_cons (a : Assembler) (line : String) (lines : List String) :
    a.after (line :: lines) = (a.after [line]).after lines := rfl

/-- **Lines read one after the other**, whatever the number of the first is. -/
lemma feedAll_eq (hmarker : a.commentPrefix ≠ "") (start : Int) (lines : List String) :
    a.feedAll start lines = .ok (a.finished start lines, a.after lines) := by
  have hfed : ∃ commands, a.feedAll start lines = .ok (commands, a.after lines) := by
    induction lines generalizing a start with
    | nil => exact ⟨[], rfl⟩
    | cons line rest ih =>
      obtain ⟨commands, hfeed⟩ := feed_eq hmarker line start
      obtain ⟨more, hmore⟩ := ih (by rwa [commentPrefix_after]) (start + 1) (a := a.after [line])
      refine ⟨commands ++ more, ?_⟩
      simp only [feedAll, hfeed, hmore, bind, Except.bind, pure, Except.pure,
        after_cons a line rest]
  obtain ⟨commands, hfed⟩ := hfed
  rw [finished, hfed]
  rfl

lemma finished_cons (hmarker : a.commentPrefix ≠ "")
    (hfeed : a.feed line start = .ok (commands, b)) (lines : List String) :
    a.finished start (line :: lines) = commands ++ b.finished (start + 1) lines := by
  have hrest := feedAll_eq (a := b) (by rwa [Shell.feed_eq_ok hmarker hfeed]) (start + 1) lines
  rw [finished, feedAll]
  simp only [hfeed, hrest, bind, Except.bind, pure, Except.pure]
  rfl

/-- Nothing is left unfinished if the text of it is empty. -/
lemma pieces_isEmpty_after {marker : String} (hmarker : marker ≠ "") (lines : List String) :
    (({ commentPrefix := marker } : Assembler).after lines).pieces.isEmpty = true ↔
      (({ commentPrefix := marker } : Assembler).after lines).pending = "" := by
  have hfed := feedAll_eq (a := { commentPrefix := marker }) hmarker 1 lines
  obtain ⟨commands, rest, hfeed, -, -, -, hpieces⟩ :=
    feedAll_words hmarker 1 rfl (List.forall_mem_nil _)
  obtain ⟨-, hrest⟩ := Prod.mk.inj (Except.ok.inj (hfed.symm.trans hfeed))
  have hpending : pending { commentPrefix := marker, pieces := rest } = "" ↔
      joinPieces rest = [] := by
    simp [pending]
  rw [hrest, hpending, List.isEmpty_iff]
  show rest = [] ↔ joinPieces rest = []
  refine ⟨fun hnil => by rw [hnil]; rfl, fun hjoined => ?_⟩
  by_contra hne
  have htrimmed : Text.IsTrimmed (joinPieces rest) :=
    Text.IsTrimmed.intercalate hne fun p hp => (hpieces p hp).isTrimmed
  exact Text.words_ne_nil_of_isTrimmed htrimmed (by rw [hjoined]; rfl)

end Assembler

/-! ## Dialogues -/

namespace Shell

variable {shell : Shell} {readings : List Reading}

/-- What a reading hands to the session: the commands that a line finishes. -/
def hands (shell : Shell) : Reading → List NumberedCommand
  | .interrupt => []
  | .line text =>
    if text = "" then []
    else
      match shell.assembler.feed (withoutNewlines text) (shell.lineNumber + 1 : Nat) with
      | .error _ => []
      | .ok (commands, _) => shell.session.heeded commands

/-- **What a dialogue hands to its session**, turn by turn. -/
def handed (shell : Shell) : List Reading → List NumberedCommand
  | [] => []
  | reading :: rest =>
    if shell.isOver then []
    else
      shell.hands reading ++
        if (shell.turn reading).failure.isSome then [] else handed (shell.turn reading).state rest

/-- What is left unfinished behind some blocks: what the last of them leaves. -/
def unfinished (a : Assembler) : List (List String) → Assembler
  | [] => a
  | [block] => a.after block
  | _ :: next :: more => unfinished a.reset (next :: more)

/-- A line of the first block. -/
lemma unfinished_line (a : Assembler) (line : String) (block : List String)
    (others : List (List String)) :
    unfinished a ((line :: block) :: others) = unfinished (a.after [line]) (block :: others) := by
  cases others <;> rfl

/-- **What a dialogue comes to.**  Its session has been handed some commands until it ended, and has
come to what they come to; and if it goes on, something is left unfinished. -/
structure Hears (shell : Shell) (readings : List Reading) (commands : List NumberedCommand)
    (rest : Assembler) : Prop where
  handed : shell.handed readings = shell.session.heeded commands
  session : (Outcome.forEach turn shell readings).state.session
    = (processAll process shell.session commands).state
  failure : (Outcome.forEach turn shell readings).failure
    = (processAll process shell.session commands).failure
  goesOn : (Outcome.forEach turn shell readings).failure = none →
    (Outcome.forEach turn shell readings).state.session.finished = false →
      (Outcome.forEach turn shell readings).state.assembler = rest ∧
        (Outcome.forEach turn shell readings).state.ended = false

/-- **One turn**, in which the session is handed some commands. -/
lemma Hears.cons {reading : Reading} {first more : List NumberedCommand} {rest : Assembler}
    (hopen : ¬ shell.isOver = true) (hhands : shell.hands reading = shell.session.heeded first)
    (hsession : (shell.turn reading).state.session = (processAll process shell.session first).state)
    (hfailure : (shell.turn reading).failure = (processAll process shell.session first).failure)
    (h : (shell.turn reading).state.Hears readings more rest) :
    shell.Hears (reading :: readings) (first ++ more) rest := by
  have hturns : Outcome.forEach turn shell (reading :: readings)
      = (shell.turn reading).andThen fun shell => Outcome.forEach turn shell readings := rfl
  have hhanded : shell.handed (reading :: readings) = shell.session.heeded (first ++ more) := by
    rw [Shell.handed, if_neg hopen, heeded_append, hhands, h.handed, hfailure, hsession]
  cases hfault : (shell.turn reading).failure with
  | some fault =>
    have hall := processAll_append process shell.session first more
    rw [Outcome.andThen_of_failure_eq_some (hfailure.symm.trans hfault)] at hall
    rw [Outcome.andThen_of_failure_eq_some hfault] at hturns
    refine ⟨hhanded, ?_, ?_, ?_⟩ <;> rw [hturns]
    · rw [hall, hsession]
    · rw [hall, hfailure]
    · rw [hfault]
      exact fun h => nomatch h
  | none =>
    have hall := processAll_append process shell.session first more
    rw [Outcome.andThen_of_failure_eq_none (hfailure.symm.trans hfault), ← hsession] at hall
    rw [Outcome.andThen_of_failure_eq_none hfault] at hturns
    refine ⟨hhanded, ?_, ?_, ?_⟩ <;> rw [hturns]
    · rw [hall]
      exact h.session
    · rw [hall]
      exact h.failure
    · exact h.goesOn

/-- A session that has ended is handed nothing. -/
lemma hears_of_finished (hfinished : shell.session.finished = true) (readings : List Reading)
    (commands : List NumberedCommand) (rest : Assembler) : shell.Hears readings commands rest := by
  have hover : shell.isOver = true := by simp [isOver, hfinished]
  have hturns := turns_of_isOver hover readings
  have hhanded : shell.handed readings = [] := by
    cases readings with
    | nil => rfl
    | cons reading rest => rw [handed, if_pos hover]
  refine ⟨hhanded.trans (heeded_of_finished hfinished _).symm, ?_, ?_, ?_⟩ <;> rw [hturns]
  · rw [processAll_process_of_finished hfinished]
    rfl
  · rw [processAll_process_of_finished hfinished]
    rfl
  · exact fun _ hopen => absurd (hfinished.symm.trans hopen) Bool.noConfusion

variable {more : List NumberedCommand} {rest : Assembler}

/-- An interrupt drops what is unfinished. -/
lemma Hears.interrupt (hopen : ¬ shell.isOver = true)
    (h : Hears { shell with assembler := shell.assembler.reset } readings more rest) :
    shell.Hears (.interrupt :: readings) more rest := by
  have hturn : shell.turn .interrupt = {
      state := { shell with assembler := shell.assembler.reset }
      output := [shell.cue, "\n"] } := by
    rw [turn_of_not_isOver hopen]
    rfl
  have hhands : shell.hands .interrupt = shell.session.heeded [] := rfl
  exact Hears.cons hopen hhands (by rw [hturn]; rfl) (by rw [hturn]; rfl) (by rw [hturn]; exact h)

/-- A line hands the commands that it finishes to the session. -/
lemma Hears.line (hopen : ¬ shell.isOver = true) {text : String} (htext : text ≠ "")
    {commands : List NumberedCommand} {a : Assembler}
    (hfeed : shell.assembler.feed (withoutNewlines text) (shell.lineNumber + 1 : Nat)
      = .ok (commands, a))
    {next : Shell} (hnext : next = { shell with
      session := (processAll process shell.session commands).state
      assembler := a
      lineNumber := shell.lineNumber + 1 })
    (h : next.Hears readings more rest) :
    shell.Hears (.line text :: readings) (commands ++ more) rest := by
  have hturn := turn_line hopen htext hfeed (answerAll_requestOf shell.session commands)
  rw [← hnext] at hturn
  have hhands : shell.hands (.line text) = shell.session.heeded commands := by
    simp only [hands, if_neg htext, hfeed]
  exact Hears.cons hopen hhands (by rw [hturn, hnext]) (by rw [hturn]) (by rw [hturn]; exact h)

/-- **A dialogue by its blocks**, by induction on the readings.  The first block goes on from what
is unfinished. -/
theorem hears_turns (hmarker : shell.assembler.commentPrefix ≠ "") (hended : shell.ended = false)
    (hlines : ∀ text, .line text ∈ readings → text ≠ "") {block : List String}
    {others : List (List String)} (hblocks : blocks readings = block :: others) :
    shell.Hears readings
      (shell.assembler.finished (shell.lineNumber + 1 : Nat) block ++
        blockCommands shell.assembler.commentPrefix ((shell.lineNumber + 1 : Nat) + block.length)
          others)
      (unfinished shell.assembler (block :: others)) := by
  induction readings generalizing shell block others with
  | nil =>
    obtain ⟨rfl, rfl⟩ := List.cons.inj (blocks_nil.symm.trans hblocks)
    exact ⟨rfl, rfl, rfl, fun _ _ => ⟨rfl, hended⟩⟩
  | cons reading rest ih =>
    obtain ⟨block', others', hrest⟩ := exists_blocks_eq_cons rest
    have hlines' : ∀ text, .line text ∈ rest → text ≠ "" :=
      fun text htext => hlines text (List.mem_cons_of_mem _ htext)
    cases hfinished : shell.session.finished with
    | true => exact hears_of_finished hfinished _ _ _
    | false =>
      have hopen : ¬ shell.isOver = true := by simp [isOver, hfinished, hended]
      cases reading with
      | interrupt =>
        rw [blocks_interrupt, hrest] at hblocks
        obtain ⟨rfl, rfl⟩ := List.cons.inj hblocks
        have hnumber : ((shell.lineNumber + 1 : Nat) : Int) + ([] : List String).length
            = (shell.lineNumber + 1 : Nat) := Int.add_zero _
        rw [hnumber]
        exact (@ih { shell with assembler := shell.assembler.reset } hmarker hended hlines' block'
          others' hrest).interrupt hopen
      | line text =>
        have htext : text ≠ "" := hlines text List.mem_cons_self
        rw [blocks_line, hrest, List.modifyHead_cons] at hblocks
        obtain ⟨rfl, rfl⟩ := List.cons.inj hblocks
        obtain ⟨commands, hfeed⟩ := Assembler.feed_eq hmarker (withoutNewlines text)
          (shell.lineNumber + 1 : Nat)
        obtain ⟨next, hnext⟩ : ∃ next : Shell, next = { shell with
            session := (processAll process shell.session commands).state
            assembler := shell.assembler.after [withoutNewlines text]
            lineNumber := shell.lineNumber + 1 } := ⟨_, rfl⟩
        have hassembler : next.assembler = shell.assembler.after [withoutNewlines text] := by
          rw [hnext]
        have hnumber : next.lineNumber = shell.lineNumber + 1 := by rw [hnext]
        have hmarker' : next.assembler.commentPrefix = shell.assembler.commentPrefix := by
          rw [hassembler, Assembler.commentPrefix_after]
        have hears := @ih next (by rwa [hmarker']) (by rw [hnext]; exact hended) hlines' block'
          others' hrest
        -- the rest of the block begins with the line behind this one
        rw [hmarker', hassembler, hnumber] at hears
        have hstart : ((shell.lineNumber + 1 : Nat) : Int) + (withoutNewlines text :: block').length
            = (shell.lineNumber + 1 + 1 : Nat) + block'.length := by
          rw [List.length_cons]
          omega
        rw [Assembler.finished_cons hmarker hfeed, List.append_assoc, hstart, unfinished_line,
          ← Nat.cast_succ]
        exact hears.line hopen htext hfeed hnext

/-- Behind no block but the last anything is left unfinished. -/
lemma unfinished_eq_after {a : Assembler} (ha : a.reset = a) (blocks : List (List String)) :
    unfinished a blocks = a.after (blocks.getLastD []) := by
  induction blocks with
  | nil => rfl
  | cons block rest ih =>
    cases rest with
    | nil => rfl
    | cons next more =>
      rw [unfinished, ha, ih]
      rfl

/-- The end of input hands nothing to the session. -/
lemma handed_append_end (shell : Shell) (readings : List Reading) :
    shell.handed (readings ++ [.line ""]) = shell.handed readings := by
  induction readings generalizing shell with
  | nil => simp [handed, hands]
  | cons reading rest ih => simp only [List.cons_append, handed, ih]

/-- The end of input leaves the session as it is. -/
lemma turn_end (shell : Shell) :
    (shell.turn (.line "")).state.session = shell.session ∧
      (shell.turn (.line "")).failure = none := by
  by_cases hover : shell.isOver = true
  · rw [turn_of_isOver hover]
    exact ⟨rfl, rfl⟩
  · rw [turn_of_not_isOver hover, accept, if_pos rfl]
    exact ⟨rfl, rfl⟩

lemma interact_eq (shell : Shell) (readings : List Reading) :
    (shell.interact readings).state.session
        = (Outcome.forEach turn shell readings).state.session ∧
      (shell.interact readings).failure = (Outcome.forEach turn shell readings).failure := by
  have hend : ∀ shell : Shell, Outcome.forEach turn shell [.line ""] = shell.turn (.line "") :=
    fun shell => Outcome.andThen_done _
  rw [interact, Outcome.forEach_append]
  cases hfailure : (Outcome.forEach turn shell readings).failure with
  | some fault =>
    rw [Outcome.andThen_of_failure_eq_some hfailure]
    exact ⟨rfl, hfailure⟩
  | none =>
    rw [Outcome.andThen_of_failure_eq_none hfailure, hend]
    exact turn_end _

/-- What is shown when a line is read: the cue, then what the line brings. -/
lemma interact_output {before after : List Reading} {reading : Reading}
    (hsplit : readings ++ [.line ""] = before ++ reading :: after)
    (hfailure : (Outcome.forEach turn shell before).failure = none)
    (hopen : ¬ (Outcome.forEach turn shell before).state.isOver = true) :
    ∃ later, (shell.interact readings).output
      = (Outcome.forEach turn shell before).output ++
        (Outcome.forEach turn shell before).state.cue ::
          ((Outcome.forEach turn shell before).state.accept reading).output ++ later := by
  obtain ⟨later, hlater⟩ := Outcome.exists_andThen_output
    ((Outcome.forEach turn shell before).state.turn reading)
    fun shell => Outcome.forEach turn shell after
  rw [turn_of_not_isOver hopen] at hlater
  refine ⟨later, ?_⟩
  rw [interact, hsplit, Outcome.forEach_append, Outcome.andThen_of_failure_eq_none hfailure,
    Outcome.forEach, turn_of_not_isOver hopen, List.append_assoc]
  exact congrArg _ hlater

/-- **What is shown before a line is read**, by the block that it goes on with: the prompt, or
blanks of its length if the block leaves something unfinished. -/
def cueBehind (config : Config) (block : List String) : String :=
  match ({ commentPrefix := config.commentPrefix } : Assembler).feedAll 1 block with
  | .ok (_, rest) =>
    if rest.pending = "" then config.prompt
    else String.ofList (List.replicate config.prompt.length ' ')
  | .error _ => config.prompt

lemma cue_eq_cueBehind {config : Config} (hmarker : config.commentPrefix ≠ "")
    {block : List String}
    (hassembler : shell.assembler
      = ({ commentPrefix := config.commentPrefix } : Assembler).after block)
    (hconfig : shell.session.config = config) : shell.cue = cueBehind config block := by
  have hfed := Assembler.feedAll_eq (a := { commentPrefix := config.commentPrefix }) hmarker 1 block
  simp only [cue, cueBehind, hfed, hassembler, hconfig]
  exact if_congr (Assembler.pieces_isEmpty_after hmarker block) rfl rfl

variable {s : Session}

/-- A dialogue from its beginning. -/
lemma hears_start (hmarker : s.config.commentPrefix ≠ "")
    (hlines : ∀ text, .line text ∈ readings → text ≠ "") :
    (start s).Hears readings (blockCommands s.config.commentPrefix 1 (blocks readings))
      (unfinished { commentPrefix := s.config.commentPrefix } (blocks readings)) := by
  obtain ⟨block, others, hblocks⟩ := exists_blocks_eq_cons readings
  rw [hblocks]
  exact hears_turns hmarker rfl hlines hblocks

/-- **Each line is read behind the cue** of its block. -/
lemma exists_interact_output (hmarker : s.config.commentPrefix ≠ "")
    (hlines : ∀ text, .line text ∈ readings → text ≠ "") {before after : List Reading}
    {reading : Reading} (hsplit : readings ++ [.line ""] = before ++ reading :: after)
    {reached : Exchange} (hreached : Outcome.forEach turn (start s) before = reached)
    (hfailure : reached.failure = none) (hopen : reached.state.isOver = false) :
    ∃ later, ((start s).interact readings).output
      = reached.output ++ cueBehind s.config ((blocks before).getLastD []) ::
          (reached.state.accept reading).output ++ later := by
  have hbefore : ∀ text, .line text ∈ before → text ≠ "" := by
    rcases append_eq_append_cons hsplit with ⟨rest, rfl, -⟩ | ⟨front, rfl, hfront⟩
    · exact fun text htext => hlines text (List.mem_append_left _ htext)
    · obtain ⟨rfl, -⟩ : front = [] ∧ _ := by simpa [List.cons_eq_append_iff] using hfront
      simpa using hlines
  have hears := hears_start hmarker hbefore
  rw [← hreached] at hfailure hopen ⊢
  have hfinished := (Bool.or_eq_false_iff.1 hopen).1
  have hconfig : (Outcome.forEach turn (start s) before).state.session.config = s.config := by
    rw [hears.session, ← answerAll_requestOf]
    exact (frame_answerAll _ _).config
  have hassembler := (hears.goesOn hfailure hfinished).1
  rw [unfinished_eq_after rfl] at hassembler
  rw [← cue_eq_cueBehind hmarker hassembler hconfig]
  exact interact_output hsplit hfailure (by simp [hopen])

/-- **A dialogue with interrupts**, from the first prompt to the end of input.  The session is
handed the commands of the blocks, up to an EXIT; it comes to what they come to; and each line is
read behind the prompt, or behind blanks while its block leaves something unfinished. -/
theorem dialogue_of_blocks (hs : s.Reachable) (hopen : s.finished = false)
    (hlines : ∀ text, .line text ∈ readings → text ≠ "") :
    let commands := blockCommands s.config.commentPrefix 1 (blocks readings)
    let reply := answerAll s (commands.map requestOf)
    let handed := (start s).handed (readings ++ [.line ""])
    (reply.failure = none → ¬ s.Exits (commands.map requestOf) → handed = commands) ∧
    (s.Exits (commands.map requestOf) → ∃ front command back,
      commands = front ++ command :: back ∧ ¬ s.Exits (front.map requestOf) ∧
        s.Exits ((front ++ [command]).map requestOf) ∧ handed = front ++ [command]) ∧
    ((start s).interact readings).state.session = reply.state ∧
    ((start s).interact readings).failure = reply.failure ∧
    ∀ before reading after, readings ++ [.line ""] = before ++ reading :: after →
      let reached := Outcome.forEach turn (start s) before
      reached.failure = none → reached.state.isOver = false →
        ∃ later, ((start s).interact readings).output
          = reached.output ++ cueBehind s.config ((blocks before).getLastD []) ::
              (reached.state.accept reading).output ++ later := by
  obtain ⟨-, -, settings, platform, hsettings⟩ := hs.settled
  have hmarker : s.config.commentPrefix ≠ "" := commentPrefix_ne_of_validate hsettings
  intro commands reply handed
  have hreply : reply = processAll process s commands := answerAll_requestOf s commands
  have hears := hears_start hmarker hlines
  have hhanded : handed = s.heeded commands := (handed_append_end _ readings).trans hears.handed
  obtain ⟨hsession, hfailure⟩ := interact_eq (start s) readings
  refine ⟨fun hfaultless hexit => ?_, fun hexit => ?_, ?_, ?_, ?_⟩
  · rw [← finished_answerAll_iff hopen, Bool.not_eq_true, answerAll_requestOf] at hexit
    rw [hreply] at hfaultless
    rw [hhanded, heeded_eq_self hfaultless hexit]
  · obtain ⟨exited, after, hended⟩ := hexit.endedBy
    have hfaultless := hended.failure
    rw [← finished_answerAll_iff hopen, answerAll_requestOf] at hexit
    rw [answerAll_requestOf] at hfaultless
    obtain ⟨front, command, back, hcommands, hfront, hlast, hcut⟩ :=
      exists_cut hopen hfaultless hexit
    refine ⟨front, command, back, hcommands, ?_, ?_, hhanded.trans hcut⟩
    · rw [← finished_answerAll_iff hopen, Bool.not_eq_true, answerAll_requestOf, hfront]
    · rw [← finished_answerAll_iff hopen, answerAll_requestOf, hlast]
  · rw [hsession, hears.session, hreply]
    rfl
  · rw [hfailure, hears.failure, hreply]
    rfl
  · intro before reading after hsplit reached hfaultless hover
    exact exists_interact_output hmarker hlines hsplit rfl hfaultless hover

/-- Interrupts in the middle of a command, behind one and behind another interrupt. -/
theorem dialogue_of_blocks_of_interrupts :
    let s := Session.start Config.standard { home := [] }
    let readings : List Reading := [.line "STATES a\n", .interrupt, .line "STATES b; STATES\n",
      .interrupt, .interrupt, .line "c; INITIAL-STATE b; ST\n"]
    (start s).handed (readings ++ [.line ""])
      = [(2, "STATES b"), (3, "c"), (3, "INITIAL-STATE b")] := by
  intro s readings
  have hlines : ∀ text, .line text ∈ readings → text ≠ "" := by
    rintro text htext rfl
    revert htext
    decide +kernel
  have hs : s.Reachable := .start validate_standard _
  have hdialogue := dialogue_of_blocks hs rfl hlines
  refine (hdialogue.1 (by decide +kernel) ?_).trans (by decide +kernel)
  rw [← finished_answerAll_iff rfl]
  decide +kernel

end Shell

end AutomatonShell
