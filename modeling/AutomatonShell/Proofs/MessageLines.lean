import AutomatonShell.Proofs.RequestLines

/-!
# Messages on one line

A newline gets into a message through what a session was given, and there are few ways in: a group
of TRANSITIONS that was asked for with a newline in it, the name of a file that is loaded without a
command, and what a snapshot stores.  A session that begins has no names at all, and every call that
brings no newline keeps them on lines, so everything that is said in a run is on lines but for what
is owed to one of these.

* `isLine_of_mem_saidIn`, `isLine_of_mem_linesIn` — what is said, and what a log gets.
* `splitOn_lines_iff` — output that is read back line by line.
* **`said_on_lines`** — a run of requests.
-/

namespace AutomatonShell.Session

/-! ## Runs of requests -/

/-- **A run is told on lines**, if none of its calls brings a newline, by induction on the
requests. -/
lemma isLine_of_mem_saidIn {s : Session} (h : s.automaton.HasLineNames) {steps : List Step}
    (hcalls : ∀ d ∈ callsOf s steps, ¬ d.BringsNewline) :
    ∀ m ∈ saidIn (eventsOf s steps), IsLine m.render := by
  induction steps generalizing s with
  | nil => exact List.forall_mem_nil _
  | cons step rest ih =>
    rw [callsOf, List.forall_mem_append] at hcalls
    rw [eventsOf, saidIn_append, List.forall_mem_append]
    cases step with
    | ask request =>
      obtain ⟨hsaid, hnames⟩ := onLines_answerAt (maxNesting + 1) ⟨s, request⟩ h hcalls.1
      rw [(traces_answerAt (maxNesting + 1) ⟨s, request⟩).output] at hsaid
      rw [answerAt_maxNesting] at hnames
      exact ⟨hsaid, ih hnames hcalls.2⟩
    | close => exact ⟨List.forall_mem_nil _, ih (s := s.closeLog) h hcalls.2⟩

/-- What a call of a run answers is said in the run. -/
lemma exists_answerAt_subset {s : Session} {steps : List Step} {c : Call}
    (hc : c ∈ callsOf s steps) :
    ∃ bound, (answerAt (bound + 1) c).output ⊆ saidIn (eventsOf s steps) := by
  obtain ⟨front, back, hcalls⟩ := List.append_of_mem hc
  obtain ⟨inner, before, behind, -, hevents, -, -⟩ :=
    (tells_eventsOf s steps).stretch front c back hcalls
  refine ⟨inner, ?_⟩
  rw [(traces_answerAt (inner + 1) c).output, hevents, saidIn_append, saidIn_append]
  exact fun m hm => List.mem_append_right _ (List.mem_append_left _ hm)

/-- **Output on lines**: parts with a newline behind each of them are read back line by line just
when they are on one line. -/
lemma splitOn_lines_iff (texts : List String) :
    (String.join (texts.map (· ++ "\n"))).toList.splitOn '\n' = texts.map String.toList ++ [[]] ↔
      ∀ text ∈ texts, IsLine text := by
  have hjoined : (String.join (texts.map (· ++ "\n"))).toList
      = ['\n'].intercalate (texts.map String.toList ++ [[]]) := by
    rw [String.toList_join]
    induction texts with
    | nil => rfl
    | cons text rest ih =>
      obtain ⟨next, more, hrest⟩ :=
        List.exists_cons_of_ne_nil (l := rest.map String.toList ++ [[]]) (by simp)
      rw [List.map_cons, List.flatMap_cons, ih, List.map_cons, List.cons_append, hrest,
        List.intercalate_cons_cons, String.toList_append]
      rfl
  rw [hjoined]
  constructor
  · intro hsplit text htext
    have hmem : text.toList ∈ texts.map String.toList ++ [[]] :=
      List.mem_append_left _ (List.mem_map_of_mem htext)
    exact not_mem_of_mem_splitOn (hsplit ▸ hmem)
  · intro hlines
    refine List.splitOn_intercalate '\n' (List.forall_mem_append.2 ⟨?_, by simp⟩) (by simp)
    exact List.forall_mem_map.2 hlines

/-- **What the log gets of a run** is on one line, if what is asked for and what is said is. -/
lemma isLine_of_mem_linesIn {s : Session} {steps : List Step} (hprompt : IsLine s.config.prompt)
    (hasked : ∀ request, .ask request ∈ steps → IsLine request.text)
    (hsaid : ∀ m ∈ saidIn (eventsOf s steps), IsLine m.render) :
    ∀ line ∈ linesIn (eventsOf s steps), IsLine line := by
  intro line hline
  obtain ⟨e, he, hgets⟩ := List.mem_filterMap.1 hline
  cases e with
  | said m =>
    obtain rfl := Option.some.inj hgets
    exact hsaid m (List.mem_filterMap.2 ⟨_, he, rfl⟩)
  | begun entry =>
    obtain rfl := Option.some.inj hgets
    have hbegun : entry ∈ begunIn (eventsOf s steps) := List.mem_filterMap.2 ⟨_, he, rfl⟩
    rw [(tells_eventsOf s steps).begun] at hbegun
    obtain ⟨c, hc, hecho⟩ := List.mem_filterMap.1 hbegun
    obtain ⟨hconfig, hfrom⟩ := isLine_of_mem_callsOf s steps c hc
    have htext : IsLine c.request.text := hfrom.elim (hasked _) id
    rw [Call.echo?] at hecho
    split at hecho
    · cases hecho
    · next text number hrequest =>
      rw [hrequest] at htext
      split_ifs at hecho
      obtain rfl := Option.some.inj hecho
      rw [isLine_append, isLine_ofList, hconfig]
      exact ⟨hprompt, fun hmem => htext (mem_of_mem_trimCommand hmem)⟩
  | stored | opened | closed => cases hgets

/-! ## The result -/

/-- **What is said in a run is on lines, but for what brings a newline.**

In a session that begins with nothing, a message on several lines is owed to a TRANSITIONS command
with a broken group or to the name of a file with a newline in it, and these were asked for by
themselves, not by a script; or to a snapshot with a newline in the name of a state or in a text or
path that is shown when the snapshot is refused.  A broken group is always shown, and so are the
texts of a refused snapshot, and the names of states when they are asked for.

The output can be read back line by line just when there is no such message.  If all that is asked
for is on one line and no snapshot brings a newline, then there is none, and all that a log gets is
on lines as well.  What a program asks for is on one line if the arguments of its command line are,
whatever is typed. -/
theorem said_on_lines (config : Config) (workspace : Workspace) (steps : List Step) :
    let s := Session.start config workspace
    let events := eventsOf s steps
    (∀ m ∈ saidIn events, ¬ IsLine m.render →
      (∃ request, .ask request ∈ steps ∧ request.BringsNewline) ∨
        ∃ c ∈ callsOf s steps, c.LoadsNewline) ∧
    (∀ c ∈ callsOf s steps, ∀ t, c.task? = some t → t.ShowsNewline →
      ∃ m ∈ saidIn events, ¬ IsLine m.render) ∧
    ((String.join (Shell.shown (saidIn events))).toList.splitOn '\n'
        = (saidIn events).map (fun m => m.render.toList) ++ [[]] ↔
      ∀ m ∈ saidIn events, IsLine m.render) ∧
    ((∀ request, .ask request ∈ steps → IsLine request.text) →
      (∀ c ∈ callsOf s steps, ¬ c.LoadsNewline) →
        (∀ m ∈ saidIn events, IsLine m.render) ∧
          (IsLine config.prompt → ∀ line ∈ linesIn events, IsLine line)) ∧
    (∀ (i : Invocation) (text : List Char),
      steps = (programRequests i (Shell.typed text)).map Step.ask →
      (∀ file ∈ i.log, IsLine file) → (∀ file ∈ i.files, IsLine file) →
      (∀ command ∈ i.commands, IsLine command) →
        ∀ request, .ask request ∈ steps → IsLine request.text) := by
  intro s events
  have hnames : s.automaton.HasLineNames :=
    ⟨Automaton.wellFormed_empty, Automaton.hasPlainStates_empty⟩
  have howed : ∀ m ∈ saidIn events, ¬ IsLine m.render →
      (∃ request, .ask request ∈ steps ∧ request.BringsNewline) ∨
        ∃ c ∈ callsOf s steps, c.LoadsNewline := by
    intro m hm hbreaks
    by_contra hnone
    rw [not_or] at hnone
    refine hbreaks (isLine_of_mem_saidIn hnames (fun c hc hbrings => ?_) m hm)
    rcases hbrings.cases with hrequest | hloads
    · rcases (isLine_of_mem_callsOf s steps c hc).2 with hasked | hline
      · exact hnone.1 ⟨c.request, hasked, hrequest⟩
      · exact hrequest.not_isLine_text hline
    · exact hnone.2 ⟨c, hc, hloads⟩
  refine ⟨howed, fun c hc t ht hshows => ?_, ?_, fun hasked hloads => ?_, ?_⟩
  · obtain ⟨bound, hsubset⟩ := exists_answerAt_subset hc
    obtain ⟨m, hm, hbreaks⟩ := hshows.exists_said (processAt bound)
    rw [← answerAt_of_task? ht] at hm
    exact ⟨m, hsubset hm, hbreaks⟩
  · have hlines := splitOn_lines_iff ((saidIn events).map Message.render)
    rw [List.map_map, List.map_map, List.forall_mem_map] at hlines
    exact hlines
  · have hsaid : ∀ m ∈ saidIn events, IsLine m.render := by
      intro m hm
      by_contra hbreaks
      rcases howed m hm hbreaks with ⟨request, hrequest, hbrings⟩ | ⟨c, hc, hbrings⟩
      · exact hbrings.not_isLine_text (hasked request hrequest)
      · exact hloads c hc hbrings
    exact ⟨hsaid, fun hprompt => isLine_of_mem_linesIn hprompt hasked hsaid⟩
  · rintro i text rfl hlog hfiles hcommands request hrequest
    obtain ⟨other, hother, heq⟩ := List.mem_map.1 hrequest
    obtain rfl := Step.ask.inj heq
    exact isLine_of_mem_programRequests hlog hfiles hcommands text other hother

/-- A command in a script, which is cut at the newline, and as it is typed, where the newline stays
in the group.  The script ends in the middle of another command. -/
theorem said_on_lines_of_replayed :
    let bytes := fun text : String => text.toList.map fun c => UInt8.ofNat c.toNat
    let s := Session.start Config.standard
      { home := ["w"], files := [(["w", "a"], bytes "TRANSITIONS a\nb; STATES")] }
    let replayed : List Step := [.ask (.file "a"), .close]
    let typed : List Step := [.ask (.command "TRANSITIONS a\nb" none)]
    ((∀ m ∈ saidIn (eventsOf s replayed), IsLine m.render) ∧
        ∀ line ∈ linesIn (eventsOf s replayed), IsLine line) ∧
      (saidIn (eventsOf s replayed)).map Message.render
        = ["Error (line 2): invalid transition \"a b\": expected symbol, source and target",
          "Warning (line 2): unterminated command at end of a: \"STATES\""] ∧
      ∃ m ∈ saidIn (eventsOf s typed), ¬ IsLine m.render := by
  intro bytes s replayed typed
  obtain ⟨-, -, -, hlines, -⟩ := said_on_lines Config.standard s.workspace replayed
  obtain ⟨-, hshown, -, -, -⟩ := said_on_lines Config.standard s.workspace typed
  refine ⟨?_, by decide +kernel, ?_⟩
  · have hasked : ∀ request, .ask request ∈ replayed → IsLine request.text := by
      intro request hrequest
      obtain rfl : request = .file "a" := by simpa [replayed] using hrequest
      decide
    have hscripts : ∀ c ∈ callsOf s replayed, c.task?.all (fun t =>
        t.file?.all fun file => !t.session.config.isBinary file) = true := by decide +kernel
    obtain ⟨hsaid, hlogged⟩ := hlines hasked fun c hc hloads => by
      obtain ⟨t, file, ht, hfile, hbinary, -⟩ := hloads
      have hscript := hscripts c hc
      simp [ht, hfile, hbinary] at hscript
    exact ⟨hsaid, hlogged (by decide)⟩
  · have hmem : ⟨s, .command "TRANSITIONS a\nb" none⟩ ∈ callsOf s typed :=
      List.mem_append_left _ List.mem_cons_self
    have hbroken : IsBroken "a\nb".toList := by decide
    have htask : (Call.task? ⟨s, .command "TRANSITIONS a\nb" none⟩).any (fun t =>
        t.keyword == .transitions && t.body == "a\nb".toList) = true := by decide +kernel
    obtain ⟨t, ht, hparts⟩ := (Option.any_eq_true _ _).1 htask
    obtain ⟨hkeyword, hbody⟩ := (Bool.and_eq_true _ _).mp hparts
    refine hshown _ hmem t ht (.group (beq_iff_eq.1 hkeyword) ?_ hbroken)
    rw [beq_iff_eq.1 hbody]
    decide

/-- A TRANSITIONS command with a newline between the two words of its group. -/
theorem exists_message_of_two_lines :
    let s := Session.start Config.standard { home := ["w"] }
    let reply := s.process "TRANSITIONS a\nb" none
    reply.failure = none ∧ reply.output.map Message.render
        = ["Error: invalid transition \"a\nb\": expected symbol, source and target"] ∧
      ∃ m ∈ reply.output, ¬ IsLine m.render := by
  decide +kernel

end AutomatonShell.Session
