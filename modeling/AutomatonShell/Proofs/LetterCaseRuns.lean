import AutomatonShell.Proofs.LetterCase

/-!
# Letter case never matters

Two runs of commands that work on the automaton alone, with texts that differ in nothing but the
case of ASCII letters.  The two sessions keep abreast: command by command they hold the same
automaton and say as much, equally serious and about the same lines.  Only the log can tell them
apart, and none of these commands reads it.

The keyword is looked up in upper case, so the same command is carried out in both
(`parts?_eq`, `ofText?_same`), and of the command alone there is a lemma for every keyword behind
`perform_agree`.  The rest is an induction on the commands.

* `Command.parts?`, `worksOnAutomaton` — what a command text asks for.
* `Session.Abreast` — sessions that only the files can tell apart.
* **`Session.process_agree`** — one command.
* `Session.answers`, **`Session.letterCase_irrelevant`** — runs of commands.
-/

namespace AutomatonShell

/-! ## Command texts -/

/-- What a command text asks for: the keyword and the words behind it. -/
def Command.parts? (text : String) : Option (Keyword × List String) :=
  (Command.ofText? (trimCommand text.toList)).bind fun command =>
    (Keyword.ofName? command.first).map (·, command.words)

/-- Whether a command with these words works on the automaton alone: a declaration, CLEAR, EXECUTE
or the bare PRINT. -/
def Keyword.worksOnAutomaton (words : List String) : Keyword → Bool
  | symbols | states | initialState | finalStates | transitions | clear | execute => true
  | print => words.isEmpty
  | compile | load | log | exit => false

/-- Whether a text is a command that works on the automaton alone, or none at all. -/
def worksOnAutomaton (text : String) : Bool :=
  (Command.parts? text).all fun parts => parts.1.worksOnAutomaton parts.2

/-- Commands that differ in letter case. -/
structure SameCommand (c d : Command) : Prop where
  first : SameName c.first d.first
  words : List.Forall₂ SameName c.words d.words
  body : SameLetters c.body d.body

lemma ofText?_same {text text' : List Char} (h : SameLetters text text') :
    Option.Rel SameCommand (Command.ofText? text) (Command.ofText? text') := by
  rw [Command.ofText?, Command.ofText?]
  have hwords := h.words
  generalize Text.words text = words at hwords ⊢
  generalize Text.words text' = words' at hwords ⊢
  cases hwords with
  | nil => exact .none
  | cons hfirst hrest =>
    have hrest' := hrest.imp fun _ _ => sameName_ofList
    refine .some ⟨sameName_ofList hfirst,
      List.forall₂_map_left_iff.2 (List.forall₂_map_right_iff.2 hrest'), ?_⟩
    rw [← hfirst.length_eq]
    exact SameLetters.strip (List.forall₂_drop _ (h.dropWhile fun _ => isBlank_of_isAlpha))

lemma ofName?_eq {x y : String} (h : SameName x y) : Keyword.ofName? x = Keyword.ofName? y := by
  rw [Keyword.ofName?, Keyword.ofName?, upper_eq h]

/-! ## Messages -/

/-- Messages that are equally serious and about the same line, and differ in their wording only if
they are warnings or errors. -/
structure SameMessage (m n : Message) : Prop where
  severity : m.severity = n.severity
  line : m.line = n.line
  info : m.severity = .info → m = n

lemma sameMessage_message {d e : Diagnostic} (h : SameKind d e) (line : Option Int) :
    SameMessage (d.message line) (e.message line) where
  severity := h.1
  line := by rw [Diagnostic.message, Diagnostic.message, h.1]
  info hinfo := by rw [h.2 hinfo]

lemma eq_of_sameMessage {ms ns : List Message} (h : List.Forall₂ SameMessage ms ns)
    (hinfo : ∀ m ∈ ms, m.severity = .info) : ms = ns := by
  induction h with
  | nil => rfl
  | cons hm _ ih =>
    rw [hm.info (hinfo _ List.mem_cons_self), ih fun m hm => hinfo m (List.mem_cons_of_mem _ hm)]

namespace Session

open Outcome

/-! ## One command -/

/-- Sessions that only the files and the log can tell apart. -/
structure Abreast (s s' : Session) : Prop where
  automaton : s.automaton = s'.automaton
  finished : s.finished = s'.finished

variable {s s' : Session} {line : Option Int}

lemma Abreast.record (h : Abreast s s') (text text' : String) :
    Abreast (s.record text) (s'.record text') := ⟨h.automaton, h.finished⟩

lemma say_agree (h : Abreast s s') {d e : Diagnostic} (hsaid : SameKind d e) :
    Agree Abreast SameMessage (s.say line d) (s'.say line e) :=
  ⟨h.record _ _, .cons (sameMessage_message hsaid line) .nil, rfl, rfl⟩

lemma sayAll_agree (h : Abreast s s') {ds es : List Diagnostic}
    (hsaid : List.Forall₂ SameKind ds es) :
    Agree Abreast SameMessage (s.sayAll line ds) (s'.sayAll line es) :=
  Agree.forEach (R := Abreast) (P := SameKind) (fun _ _ _ _ ht hd => say_agree ht hd) h hsaid

lemma declare_agree (h : Abreast s s') {d d' : Declaration} (hd : Agree Eq SameKind d d') :
    Agree Abreast SameMessage (s.declare line d) (s'.declare line d') := by
  have hstate : Abreast { s with automaton := d.state } { s' with automaton := d'.state } :=
    ⟨hd.state, h.finished⟩
  refine (sayAll_agree hstate hd.output).andThen fun ht => ?_
  simp only [hd.completed, hd.completed']
  exact agree_done ht

lemma withOne_agree (h : Abreast s s') {keyword : Keyword} {none several : Arity}
    {action action' : String → Reply}
    (haction : ∀ word word', SameName word word' →
      Agree Abreast SameMessage (action word) (action' word'))
    {words words' : List String} (hwords : List.Forall₂ SameName words words') :
    Agree Abreast SameMessage (s.withOne keyword line none several words action)
      (s'.withOne keyword line none several words' action') := by
  rcases hwords with _ | ⟨hword, _ | _⟩
  · exact say_agree h (sameKind_refl _)
  · exact haction _ _ hword
  · exact say_agree h (sameKind_refl _)

lemma listAll_agree (h : Abreast s s') :
    Agree Abreast SameMessage (s.listAll line) (s'.listAll line) := by
  rw [listAll, listAll, h.automaton]
  split
  · exact say_agree h (sameKind_refl _)
  · exact sayAll_agree h (List.forall₂_same.2 fun _ _ => sameKind_refl _)

lemma execute_agree (h : Abreast s s') (hwf : s.automaton.WellFormed) {text text' : String}
    (htext : SameName text text') :
    Agree Abreast SameMessage (s.execute text line) (s'.execute text' line) := by
  rw [execute_eq hwf, execute_eq (h.automaton ▸ hwf), h.automaton]
  refine say_agree h ?_
  cases s'.automaton.initial with
  | none => exact sameKind_refl _
  | some q => exact Automaton.walkFrom_same htext q

/-- **Commands that differ in letter case**, carried out. -/
lemma perform_agree (h : Abreast s s') (hwf : s.automaton.WellFormed) (load : Action)
    {keyword : Keyword} {words words' : List String} {body body' : List Char}
    (hwords : List.Forall₂ SameName words words') (hbody : SameLetters body body')
    (hown : keyword.worksOnAutomaton words = true) :
    Agree Abreast SameMessage (s.perform load keyword words body line)
      (s'.perform load keyword words' body' line) := by
  have hsay : ∀ d, Agree Abreast SameMessage (s.say line d) (s'.say line d) :=
    fun d => say_agree h (sameKind_refl d)
  cases keyword with
  | symbols =>
    cases hwords with
    | nil => simpa only [perform, carryOut, h.automaton] using hsay _
    | cons hword hrest =>
      simp only [perform, carryOut, h.automaton]
      exact declare_agree h (Automaton.declareSymbols_agree (.cons hword hrest))
  | states =>
    cases hwords with
    | nil => simpa only [perform, carryOut, h.automaton] using hsay _
    | cons hword hrest =>
      simp only [perform, carryOut, h.automaton]
      exact declare_agree h (Automaton.declareStates_agree (.cons hword hrest))
  | initialState =>
    simp only [perform, carryOut, h.automaton]
    exact withOne_agree h
      (fun _ _ hword => declare_agree h (Automaton.declareInitial_agree hword)) hwords
  | finalStates =>
    cases hwords with
    | nil => simpa only [perform, carryOut] using hsay _
    | cons hword hrest =>
      simp only [perform, carryOut, h.automaton]
      exact declare_agree h (Automaton.declareFinals_agree (.cons hword hrest))
  | transitions =>
    simp only [perform, carryOut, h.automaton]
    exact declare_agree h (Automaton.declareTransitions_agree hbody)
  | print =>
    obtain rfl := List.isEmpty_iff.1 hown
    obtain rfl := List.forall₂_nil_left_iff.1 hwords
    simpa only [perform, carryOut] using listAll_agree h
  | execute =>
    simp only [perform, carryOut]
    exact withOne_agree h (fun _ _ hword => execute_agree h hwf hword) hwords
  | clear =>
    cases hwords with
    | nil => exact agree_done ⟨rfl, h.finished⟩
    | cons => simpa only [perform, carryOut] using hsay _
  | compile | load | log | exit => cases hown

/-- **Command texts that differ in letter case**, processed. -/
theorem process_agree (h : Abreast s s') (hwf : s.automaton.WellFormed) {text text' : String}
    (htext : SameName text text') (hown : worksOnAutomaton text = true) (line : Option Int) :
    Agree Abreast SameMessage (s.process text line) (s'.process text' line) := by
  rw [worksOnAutomaton, Command.parts?] at hown
  have hcommand := ofText?_same (SameLetters.trimCommand htext)
  rw [process_eq, process_eq]
  simp only [processAt, processWith, h.finished]
  split_ifs
  · exact agree_done h
  · generalize Command.ofText? (trimCommand text.toList) = command at hcommand hown ⊢
    generalize Command.ofText? (trimCommand text'.toList) = command' at hcommand ⊢
    cases hcommand with
    | none => exact agree_done h
    | some hcommand =>
      dsimp only [Option.bind_some] at hown ⊢
      rw [ofName?_eq hcommand.first] at hown ⊢
      split
      · exact say_agree (h.record _ _) (sameKind_of_error rfl rfl)
      · next keyword hkeyword =>
        rw [hkeyword] at hown
        exact perform_agree (h.record _ _) hwf _ hcommand.words hcommand.body hown

/-! ## Runs of commands -/

/-- Commands processed one after the other, each with what it is answered. -/
def answers (s : Session) : List (String × Option Int) → List (String × Reply)
  | [] => []
  | (text, line) :: rest =>
    (text, s.process text line) :: answers (s.process text line).state rest

/-- **Two commands answered alike**: neither breaks off, they leave the same automaton, and say as
much, equally serious and about the same lines.  The answers are the same word for word to the bare
PRINT, and wherever nothing is amiss, as in an EXECUTE that reads its whole text. -/
structure AnsweredAlike (x y : String × Reply) : Prop where
  completed : x.2.failure = none ∧ y.2.failure = none
  automaton : x.2.state.automaton = y.2.state.automaton
  output : List.Forall₂ (fun m n => m.severity = n.severity ∧ m.line = n.line) x.2.output y.2.output
  print : Command.parts? x.1 = some (.print, []) → x.2.output = y.2.output
  info : (∀ m ∈ x.2.output, m.severity = .info) → x.2.output = y.2.output

lemma info_of_mem_listAll {m : Message} (hm : m ∈ (s.listAll line).output) :
    m.severity = .info := by
  rw [listAll] at hm
  split at hm
  · rw [List.mem_singleton.1 hm]
    rfl
  · rw [(sayAll_eq _ _ _).2.1, List.map_map] at hm
    obtain ⟨_, -, rfl⟩ := List.mem_map.1 hm
    rfl

/-- The bare PRINT has nothing but information to give. -/
lemma info_of_mem_print {text : String} (h : Command.parts? text = some (.print, [])) {m : Message}
    (hm : m ∈ (s.process text line).output) : m.severity = .info := by
  obtain ⟨command, hcommand, hparts⟩ := Option.bind_eq_some_iff.1 h
  obtain ⟨keyword, hkeyword, hparts⟩ := Option.map_eq_some_iff.1 hparts
  obtain ⟨rfl, hwords⟩ := Prod.mk.inj hparts
  rw [process_eq] at hm
  simp only [processAt, processWith, hcommand, hkeyword, hwords, perform, carryOut] at hm
  split_ifs at hm
  · cases hm
  · exact info_of_mem_listAll hm

lemma answeredAlike_of_agree {s s' : Session} {text text' : String}
    (h : Agree Abreast SameMessage (s.process text line) (s'.process text' line)) :
    AnsweredAlike (text, s.process text line) (text', s'.process text' line) where
  completed := ⟨h.completed, h.completed'⟩
  automaton := h.state.automaton
  output := h.output.imp fun _ _ hm => ⟨hm.severity, hm.line⟩
  print hprint := eq_of_sameMessage h.output fun _ => info_of_mem_print hprint
  info hinfo := eq_of_sameMessage h.output hinfo

lemma answers_alike {steps steps' : List (String × Option Int)}
    (h : List.Forall₂ (fun x y => SameName x.1 y.1 ∧ x.2 = y.2) steps steps')
    (hown : ∀ step ∈ steps, worksOnAutomaton step.1 = true) (hs : Abreast s s')
    (hwf : s.automaton.WellFormed) :
    List.Forall₂ AnsweredAlike (s.answers steps) (s'.answers steps') := by
  induction h generalizing s s' with
  | nil => exact .nil
  | @cons x y _ _ hstep _ ih =>
    obtain ⟨text, line⟩ := x
    obtain ⟨text', line'⟩ := y
    obtain ⟨htext, rfl : line = line'⟩ := hstep
    have hagree := process_agree hs hwf htext (hown _ List.mem_cons_self) line
    exact .cons (answeredAlike_of_agree hagree)
      (ih (fun step hrest => hown step (List.mem_cons_of_mem _ hrest)) hagree.state
        (process_wellFormed hwf text line))

/-- **Letter case never matters.**  Commands that work on the automaton alone, given to the same
session with the same lines in texts that differ in letter case only, are answered alike one by
one. -/
theorem letterCase_irrelevant (hs : s.Reachable) {steps steps' : List (String × Option Int)}
    (h : List.Forall₂ (fun x y => SameName x.1 y.1 ∧ x.2 = y.2) steps steps')
    (hown : ∀ step ∈ steps, worksOnAutomaton step.1 = true) :
    List.Forall₂ AnsweredAlike (s.answers steps) (s.answers steps') :=
  answers_alike h hown ⟨rfl, rfl⟩ hs.wellFormed

/-- Declarations, a run and a listing in small letters and in capitals. -/
theorem letterCase_irrelevant_of_capitals :
    let s := Session.start Config.standard { home := [], files := [] }
    let steps : List (String × Option Int) := [("symbols a, b", some 1), ("States p; q p", some 2),
      ("final-states q", some 3), ("transitions a p q, c p q", some 4), ("execute aA", some 5),
      ("execute a", none), ("print", none)]
    let steps' : List (String × Option Int) := [("SYMBOLS A, B", some 1), ("sTATES P; Q P", some 2),
      ("FINAL-STATES Q", some 3), ("TRANSITIONS A P Q, C P Q", some 4), ("EXECUTE Aa", some 5),
      ("EXECUTE A", none), ("PRINT", none)]
    let said := fun steps => (s.answers steps).map fun x => x.2.output.map Message.render
    List.Forall₂ AnsweredAlike (s.answers steps) (s.answers steps') ∧
      (said steps).take 6 = [[], ["Warning (line 2): state P was already declared"], [],
        ["Error (line 4): symbol c is not declared"],
        ["Error (line 5): no transition for A in state Q"], ["P Q YES"]] ∧
      (said steps').take 6 = [[], ["Warning (line 2): state P was already declared"], [],
        ["Error (line 4): symbol C is not declared"],
        ["Error (line 5): no transition for a in state Q"], ["P Q YES"]] := by
  intro s steps steps' said
  refine ⟨letterCase_irrelevant (.start validate_standard _) ?_ (by decide +kernel), ?_, ?_⟩
  · simp only [steps, steps', List.forall₂_cons, SameName, sameLetters_iff]
    decide +kernel
  · decide +kernel
  · decide +kernel

end Session

end AutomatonShell
