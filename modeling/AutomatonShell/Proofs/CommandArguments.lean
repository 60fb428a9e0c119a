import AutomatonShell.CommandLine.Run
import AutomatonShell.Proofs.Cutting
import AutomatonShell.Proofs.TaskFaults

/-!
# Commands on a command line

Each command argument is a line of its own, and a separator is put behind it, so that its last
command is finished there.  But what stands behind a comment marker is ignored, and the separator
then stands there as well.  An argument whose comment follows an unfinished command leaves this
command open, and it goes on in the next argument.

* `ownCommands` — the commands of arguments, each argument read on its own.
* `LeavesOpen` — arguments whose comment follows an unfinished command.
* `feed_argument` — what an argument finishes and what it leaves open, when nothing is open.
* **`arguments_stand_alone_iff`** — arguments are read each on its own exactly if none is left open.
-/

namespace AutomatonShell

namespace Text

/-- A marker has no room at the end of a text for a character that is not in it. -/
lemma beforeMarker_append_singleton {marker : List Char} {c : Char} (hmarker : marker ≠ [])
    (hc : c ∉ marker) (text : List Char) :
    beforeMarker marker (text ++ [c])
      = if marker <:+: text then beforeMarker marker text else text ++ [c] := by
  have hfits : ∀ text, marker <+: text ++ [c] ↔ marker <+: text := by
    intro text
    rw [List.prefix_concat_iff]
    refine or_iff_right ?_
    rintro rfl
    simp at hc
  induction text with
  | nil =>
    have hfront : ¬ marker.isPrefixOf [c] = true := fun h =>
      hmarker (List.prefix_nil.1 ((hfits []).1 (List.isPrefixOf_iff_prefix.1 h)))
    rw [List.nil_append, if_neg (by simpa using hmarker)]
    exact if_neg hfront
  | cons x rest ih =>
    rw [List.cons_append, beforeMarker, beforeMarker, ← List.cons_append, ih]
    simp only [List.isPrefixOf_iff_prefix, hfits, List.infix_cons_iff]
    by_cases hfront : marker <+: x :: rest
    · simp [hfront]
    · by_cases hrest : marker <:+: rest <;> simp [hfront, hrest]

end Text

lemma splitOn_append_singleton {α : Type} [BEq α] [LawfulBEq α] (xs : List α) (a : α) :
    (xs ++ [a]).splitOn a = xs.splitOn a ++ [[]] := by
  have hone : [a].splitOn a = [[], []] := by simp [List.splitOn_cons_eq_if_modifyHead]
  have hlast := List.dropLast_append_getLast (List.splitOn_ne_nil a xs)
  rw [splitOn_append, hone]
  conv_rhs => rw [← hlast]
  simp

namespace Assembler

/-- The commands that parts make, each part on its own: blank parts are dropped. -/
def commandsOf (parts : List (List Char)) : List (List Char) :=
  (parts.map Text.strip).filter fun part => !part.isEmpty

/-- **The commands of arguments, each read on its own.**  What follows the marker is ignored, the
rest is cut at separators, and the last part is a command like the others. -/
def ownCommands (marker : String) (number : Int) : List String → List NumberedCommand
  | [] => []
  | argument :: rest =>
    (commandsOf (parts marker argument)).map (fun command => (number, String.ofList command))
      ++ ownCommands marker (number + 1) rest

/-- **An argument that is left open**: it has a comment, and there is text in front of it behind the
last separator. -/
def LeavesOpen (marker argument : String) : Prop :=
  marker.toList <:+: argument.toList ∧
    ∃ last, (parts marker argument).getLast? = some last ∧ ¬ Text.IsBlankText last

instance (marker argument : String) : Decidable (LeavesOpen marker argument) :=
  decidable_of_iff (marker.toList <:+: argument.toList ∧
      (parts marker argument).getLast?.any (fun last => !last.all Text.isBlank) = true) <| by
    simp [LeavesOpen, Text.IsBlankText, Option.any_eq_true]

lemma commandsOf_append (first second : List (List Char)) :
    commandsOf (first ++ second) = commandsOf first ++ commandsOf second := by
  simp [commandsOf]

lemma push_nil (part : List Char) : push [] part = commandsOf [part] := by
  by_cases h : Text.strip part = [] <;> simp [push, commandsOf, h]

/-- When nothing is open, parts finish the commands that they make, but for the last. -/
lemma absorb_append_singleton (init : List (List Char)) (last : List Char) :
    absorb [] (init ++ [last]) = (commandsOf init, commandsOf [last]) := by
  induction init with
  | nil => rw [List.nil_append, absorb, push_nil]; rfl
  | cons part rest ih =>
    obtain ⟨second, others, hrest⟩ : ∃ second others, rest ++ [last] = second :: others :=
      List.exists_cons_of_ne_nil (by simp)
    have hstep : absorb [] (part :: (rest ++ [last]))
        = (if (commandsOf [part]).isEmpty then (absorb [] (rest ++ [last])).1
            else joinPieces (commandsOf [part]) :: (absorb [] (rest ++ [last])).1,
          (absorb [] (rest ++ [last])).2) := by
      rw [hrest, ← push_nil]
      rfl
    rw [List.cons_append, hstep, ih]
    by_cases hpart : Text.strip part = [] <;> simp [commandsOf, hpart, joinPieces]

section

variable {marker : String}

lemma leavesOpen_iff {argument : String} {init : List (List Char)} {last : List Char}
    (hparts : parts marker argument = init ++ [last]) :
    LeavesOpen marker argument ↔ marker.toList <:+: argument.toList ∧ commandsOf [last] ≠ [] := by
  have hblank : commandsOf [last] ≠ [] ↔ ¬ Text.IsBlankText last := by
    rw [← Text.strip_eq_nil_iff]
    by_cases h : Text.strip last = [] <;> simp [commandsOf, h]
  rw [LeavesOpen, hblank, hparts]
  simp

/-- **An argument read when nothing is open.**  What it finishes and what it leaves open are
together its commands, and it leaves something open exactly if its comment follows an unfinished
command. -/
lemma feed_argument (hmarker : marker ≠ "") (hsep : separator ∉ marker.toList) (argument : String)
    (number : Int) : ∃ finished pieces,
    ({ commentPrefix := marker } : Assembler).feed (argument ++ String.singleton separator) number
        = .ok (finished.map fun command => (number, String.ofList command),
            { commentPrefix := marker, pieces }) ∧
      commandsOf (parts marker argument) = finished ++ pieces ∧
      (pieces ≠ [] ↔ LeavesOpen marker argument) := by
  obtain ⟨init, last, hparts⟩ :
      ∃ init last, parts marker argument = init ++ [last] := exists_splitOn_eq_append _ _
  have hbefore := Text.beforeMarker_append_singleton (by simpa using hmarker) hsep argument.toList
  have hline :
      (argument ++ String.singleton separator).toList = argument.toList ++ [separator] := by simp
  rw [feed, if_neg hmarker, leavesOpen_iff hparts]
  by_cases hcomment : marker.toList <:+: argument.toList
  · -- the separator stands in the comment
    have hsame : parts marker (argument ++ String.singleton separator) = init ++ [last] := by
      rw [parts, hline, hbefore, if_pos hcomment]
      exact hparts
    refine ⟨commandsOf init, commandsOf [last], ?_, ?_, ?_⟩
    · dsimp only
      rw [hsame, absorb_append_singleton]
    · rw [hparts, commandsOf_append]
    · exact (and_iff_right hcomment).symm
  · -- the separator finishes the last command
    have hsame : parts marker (argument ++ String.singleton separator)
        = parts marker argument ++ [[]] := by
      rw [parts, parts, hline, hbefore, if_neg hcomment, Text.beforeMarker_of_not_infix hcomment,
        splitOn_append_singleton]
    refine ⟨commandsOf (parts marker argument), [], ?_, (List.append_nil _).symm, ?_⟩
    · dsimp only
      rw [hsame, absorb_append_singleton]
      rfl
    · exact iff_of_false (fun h => h rfl) fun h => hcomment h.1

/-- Commands have the numbers of the lines that finish them. -/
lemma le_of_mem_feedAll {a b : Assembler} {start : Int} {lines : List String}
    {commands : List NumberedCommand} (h : a.feedAll start lines = .ok (commands, b)) :
    ∀ command ∈ commands, start ≤ command.1 := by
  induction lines generalizing a b start commands with
  | nil =>
    obtain ⟨rfl, -⟩ := Prod.mk.inj (Except.ok.inj h)
    simp
  | cons line rest ih =>
    rw [feedAll] at h
    obtain ⟨⟨first, c⟩, hfirst, h⟩ := bind_eq_ok.1 h
    obtain ⟨⟨more, d⟩, hmore, h⟩ := bind_eq_ok.1 h
    obtain ⟨rfl, -⟩ := Prod.mk.inj (Except.ok.inj h)
    refine List.forall_mem_append.2 ⟨fun command hcommand => ?_, fun command hcommand => ?_⟩
    · rw [feed] at hfirst
      split_ifs at hfirst
      obtain ⟨rfl, -⟩ := Prod.mk.inj (Except.ok.inj hfirst)
      obtain ⟨text, -, rfl⟩ := List.mem_map.1 hcommand
      exact le_refl start
    · have := ih hmore command hcommand
      omega

/-- **The commands of arguments are those of each on its own** exactly if none is left open, by
induction on the arguments.  Nothing is open in front of the first that is left open; its last
command then gets the number of a later line or is lost. -/
theorem feedAll_arguments (hmarker : marker ≠ "") (hsep : separator ∉ marker.toList)
    (number : Int) (arguments : List String) : ∃ commands rest,
    ({ commentPrefix := marker } : Assembler).feedAll number
        (arguments.map (· ++ String.singleton separator)) = .ok (commands, rest) ∧
      (commands = ownCommands marker number arguments ↔
        ∀ argument ∈ arguments, ¬ LeavesOpen marker argument) := by
  induction arguments generalizing number with
  | nil => exact ⟨[], _, rfl, by simp [ownCommands]⟩
  | cons argument rest ih =>
    obtain ⟨finished, pieces, hfeed, hcommands, hopen⟩ := feed_argument hmarker hsep argument number
    have hown : ownCommands marker number (argument :: rest)
        = finished.map (fun command => (number, String.ofList command))
          ++ (pieces.map (fun command => (number, String.ofList command))
            ++ ownCommands marker (number + 1) rest) := by
      rw [ownCommands, hcommands, List.map_append, List.append_assoc]
    obtain ⟨⟨more, after⟩, hmore⟩ : ∃ fed,
        ({ commentPrefix := marker, pieces } : Assembler).feedAll (number + 1)
          (rest.map (· ++ String.singleton separator)) = .ok fed := by
      cases h : ({ commentPrefix := marker, pieces } : Assembler).feedAll (number + 1)
          (rest.map (· ++ String.singleton separator)) with
      | ok fed => exact ⟨fed, rfl⟩
      | error e => exact absurd h (Session.feedAll_ne_error (by exact hmarker) _ _ e)
    refine ⟨finished.map (fun command => (number, String.ofList command)) ++ more, after, ?_, ?_⟩
    · rw [List.map_cons, feedAll, hfeed]
      simp only [bind, Except.bind, hmore, pure, Except.pure]
    · rw [hown, List.append_right_inj, List.forall_mem_cons, ← hopen, not_not]
      constructor
      · intro h
        have hclosed : pieces = [] := by
          by_contra hne
          obtain ⟨piece, others, rfl⟩ := List.exists_cons_of_ne_nil hne
          have := le_of_mem_feedAll hmore (number, String.ofList piece) (by simp [h])
          simp at this
        subst hclosed
        obtain ⟨commands, after', hfed, hiff⟩ := ih (number + 1)
        obtain ⟨rfl, -⟩ := Prod.mk.inj (Except.ok.inj (hmore.symm.trans hfed))
        exact ⟨rfl, hiff.1 h⟩
      · rintro ⟨rfl, hrest⟩
        obtain ⟨commands, after', hfed, hiff⟩ := ih (number + 1)
        obtain ⟨rfl, -⟩ := Prod.mk.inj (Except.ok.inj (hmore.symm.trans hfed))
        exact hiff.2 hrest

end

end Assembler

/-! ## The result -/

open Assembler

/-- **Arguments stand alone exactly if none is left open.**  The commands that are processed are
those of the arguments one after the other, each argument read on its own and each command with the
number of its argument, unless the comment of an argument follows an unfinished command. -/
theorem arguments_stand_alone_iff {marker : String} (hmarker : marker ≠ "")
    (hsep : separator ∉ marker.toList) (arguments : List String) :
    ∃ commands,
      assemble marker 1 (arguments.map (· ++ String.singleton separator)) = .ok commands ∧
      (∀ s : Session, s.config.commentPrefix = marker → Running.runCommands s arguments
        = Running.ofReply (Session.processAll Session.process s commands)) ∧
      (commands = ownCommands marker 1 arguments ↔
        ∀ argument ∈ arguments, ¬ LeavesOpen marker argument) := by
  obtain ⟨commands, rest, hfeed, hiff⟩ := feedAll_arguments hmarker hsep 1 arguments
  have hcommands : assemble marker 1 (arguments.map (· ++ String.singleton separator))
      = .ok commands := by
    rw [assemble, hfeed]
    rfl
  refine ⟨commands, hcommands, fun s hs => ?_, hiff⟩
  rw [Running.runCommands, hs, hcommands]
  exact Session.watchAll_eq s commands

/-- Arguments with comments behind commands that are finished, and with and without separators. -/
theorem arguments_stand_alone_iff_of_comments :
    let arguments := ["STATES a; STATES b; # x", "SYMBOLS 0 1 ", " ;; # STATES c", "STATES;"]
    let s := Session.start Config.standard { home := [] }
    Running.runCommands s arguments = Running.ofReply (Session.processAll Session.process s
        [(1, "STATES a"), (1, "STATES b"), (2, "SYMBOLS 0 1"), (4, "STATES")]) ∧
      (Running.runCommands s arguments).output = ["STATES A B\n"] := by
  intro arguments s
  obtain ⟨commands, -, hrun, hiff⟩ :=
    @arguments_stand_alone_iff "#" (by decide) (by decide) arguments
  have hcommands := hiff.2 (by decide +kernel)
  have hown : ownCommands "#" 1 arguments
      = [(1, "STATES a"), (1, "STATES b"), (2, "SYMBOLS 0 1"), (4, "STATES")] := by decide +kernel
  refine ⟨?_, by decide +kernel⟩
  rw [hrun s rfl, hcommands, hown]

/-- A comment that runs two arguments together: the first has no separator in front of it.  What
they declare is not what they declare on their own. -/
theorem exists_arguments_run_together :
    let arguments := ["STATES a # x", "STATES b", "STATES"]
    assemble "#" 1 (arguments.map (· ++ String.singleton separator))
        = .ok [(2, "STATES a STATES b"), (3, "STATES")] ∧
      ownCommands "#" 1 arguments = [(1, "STATES a"), (2, "STATES b"), (3, "STATES")] ∧
      ∃ running, runProgram ["-e", "STATES a # x", "-e", "STATES b", "-e", "STATES"]
          { home := [] } [] = .ran running ∧
        running.output = ["STATES A STATES B\n"] := by
  refine ⟨by decide +kernel, by decide +kernel, _, rfl, by decide +kernel⟩

end AutomatonShell
