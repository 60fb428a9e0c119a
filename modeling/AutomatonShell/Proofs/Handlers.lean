import AutomatonShell.Proofs.Processing

/-!
# What commands come to

Twelve keywords, each with its own rules for the words behind it, come to ten things that a session
can do.  They are laid out here once (`Handles`, `exists_handles`), and what is to be shown of all
commands is shown of these ten.

The commands that define an automaton are functions of it, carried over into the session.  Most of
the others change the files, the log or the automaton first and then answer with one message or one
fault (`Brief`).  What is to be shown of such an answer comes down to the session in which it is
given, and to what it may say.

* `Keyword.definitions`, `Automaton.define` — the commands that define an automaton.
* `Keyword.allows` — how many words a command takes.
* **`Session.exists_handles`** — what a command comes to, by its keyword and its words.
* `Session.Brief`, `Session.brief_print` and its siblings — the commands that answer briefly.
-/

namespace AutomatonShell

namespace Keyword

/-- The commands that define an automaton. -/
def definitions : List Keyword :=
  [.symbols, .states, .initialState, .finalStates, .transitions, .clear]

/-- **How many words a command takes.** -/
def allows : Keyword → Nat → Bool
  | symbols, _ | states, _ | transitions, _ => true
  | finalStates, words => words != 0
  | initialState, words | execute, words | compile, words | load, words => words == 1
  | print, words | log, words => words ≤ 1
  | clear, words | exit, words => words == 0

end Keyword

/-- **A definition command on an automaton**: what it leaves, and what it says. -/
def Automaton.define (a : Automaton) (keyword : Keyword) (words : List String) (body : List Char) :
    Declaration :=
  match keyword, words with
  | .symbols, [] => a.say (.declared .symbols a.symbols)
  | .symbols, words => a.declareSymbols words
  | .states, [] => a.say (.declared .states a.states)
  | .states, words => a.declareStates words
  | .initialState, [] => a.say (.arity .initialState .needsStateName)
  | .initialState, [word] => a.declareInitial word
  | .initialState, _ => a.say (.arity .initialState .oneStateName)
  | .finalStates, [] => a.say (.arity .finalStates .someStateNames)
  | .finalStates, words => a.declareFinals words
  | .transitions, _ => a.declareTransitions body
  | .clear, [] => .done {}
  | .clear, _ => a.say (.arity .clear .noArguments)
  | _, _ => .done a

namespace Session

variable {s : Session}

/-! ## Ten things to do -/

/-- What a session does about a command, given what LOAD does. -/
abbrev Handler := Action → Session → Option Int → Reply

/-- **What a command comes to**, by its keyword, its words and its body. -/
inductive Handles (body : List Char) : Keyword → List String → Handler → Prop
  | define {keyword : Keyword} {words : List String} (defines : keyword ∈ Keyword.definitions) :
    Handles body keyword words fun _ s line =>
      s.declare line (s.automaton.define keyword words body)
  | arity {keyword : Keyword} {words : List String} (rule : Arity)
      (refused : keyword.allows words.length = false) :
    Handles body keyword words fun _ s line => s.say line (.arity keyword rule)
  | listAll : Handles body .print [] fun _ s line => s.listAll line
  | print (file : String) : Handles body .print [file] fun _ s line => s.print file line
  | execute (text : String) : Handles body .execute [text] fun _ s line => s.execute text line
  | compile (file : String) : Handles body .compile [file] fun _ s line => s.compile file line
  | load (file : String) : Handles body .load [file] fun load s line => load s file line
  | stopLog : Handles body .log [] fun _ s line => s.stopLog line
  | openLog (file : String) : Handles body .log [file] fun _ s line => s.openLog file line
  | exit : Handles body .exit [] fun _ s line => s.exit line

/-- **A session carries definition commands over.** -/
lemma perform_eq_declare {keyword : Keyword} (h : keyword ∈ Keyword.definitions) (load : Action)
    (words : List String) (body : List Char) (line : Option Int) :
    s.perform load keyword words body line
      = s.declare line (s.automaton.define keyword words body) := by
  cases keyword with
  | symbols | states | finalStates | transitions | clear => cases words <;> rfl
  | initialState => rcases words with _ | ⟨word, _ | _⟩ <;> rfl
  | print | execute | compile | load | log | exit => exact absurd h (by decide)

/-- **Every command comes to one of the ten**, whatever the session and whatever LOAD does. -/
theorem exists_handles (keyword : Keyword) (words : List String) (body : List Char) :
    ∃ handler, Handles body keyword words handler ∧
      ∀ load s line, perform load s keyword words body line = handler load s line := by
  by_cases hdefines : keyword ∈ Keyword.definitions
  · exact ⟨_, .define hdefines, fun load s line => perform_eq_declare hdefines load words body line⟩
  cases keyword with
  | symbols | states | initialState | finalStates | transitions | clear =>
    exact absurd (by decide) hdefines
  | print =>
    rcases words with _ | ⟨file, _ | _⟩
    · exact ⟨_, .listAll, fun _ _ _ => rfl⟩
    · exact ⟨_, .print file, fun _ _ _ => rfl⟩
    · exact ⟨_, .arity .atMostOneFile (by simp [Keyword.allows]), fun _ _ _ => rfl⟩
  | execute =>
    rcases words with _ | ⟨text, _ | _⟩
    · exact ⟨_, .arity .needsInput rfl, fun _ _ _ => rfl⟩
    · exact ⟨_, .execute text, fun _ _ _ => rfl⟩
    · exact ⟨_, .arity .oneInput (by simp [Keyword.allows]), fun _ _ _ => rfl⟩
  | compile =>
    rcases words with _ | ⟨file, _ | _⟩
    · exact ⟨_, .arity .needsFile rfl, fun _ _ _ => rfl⟩
    · exact ⟨_, .compile file, fun _ _ _ => rfl⟩
    · exact ⟨_, .arity .oneFile (by simp [Keyword.allows]), fun _ _ _ => rfl⟩
  | load =>
    rcases words with _ | ⟨file, _ | _⟩
    · exact ⟨_, .arity .needsFile rfl, fun _ _ _ => rfl⟩
    · exact ⟨_, .load file, fun _ _ _ => rfl⟩
    · exact ⟨_, .arity .oneFile (by simp [Keyword.allows]), fun _ _ _ => rfl⟩
  | log =>
    rcases words with _ | ⟨file, _ | _⟩
    · exact ⟨_, .stopLog, fun _ _ _ => rfl⟩
    · exact ⟨_, .openLog file, fun _ _ _ => rfl⟩
    · exact ⟨_, .arity .atMostOneFile (by simp [Keyword.allows]), fun _ _ _ => rfl⟩
  | exit =>
    rcases words with _ | ⟨word, rest⟩
    · exact ⟨_, .exit, fun _ _ _ => rfl⟩
    · exact ⟨_, .arity .noArguments (by simp [Keyword.allows]), fun _ _ _ => rfl⟩

/-! ## Brief answers -/

/-- **A brief answer** in a session: nothing, one message, or a fault that has nothing to do with
nesting.  What may be said is a parameter. -/
inductive Brief (s : Session) (line : Option Int) (answers : Diagnostic → Prop) : Reply → Prop
  | done : Brief s line answers (.done s)
  | say {d : Diagnostic} (expected : answers d) : Brief s line answers (s.say line d)
  | stop {fault : Fault} (other : fault ≠ .nesting) : Brief s line answers (.stop s fault)

/-- PRINT answers when the listing has been written. -/
lemma brief_print (s : Session) (file : String) (line : Option Int) :
    Brief { s with workspace := (s.workspace.writeText s.config.encoding (s.target file)
        s.automaton.listingText s.config.codec?).1 }
      line (fun d => d = .written file ∨ d = .cannotWrite file) (s.print file line) := by
  simp only [print]
  split
  · exact .say (Or.inl rfl)
  · exact .stop (by simp)
  · exact .say (Or.inr rfl)
  · exact .stop (by simp)
  · exact .stop (by simp)

lemma brief_execute (s : Session) (text : String) (line : Option Int) :
    Brief s line (fun _ => True) (s.execute text line) := by
  rw [execute]
  split
  · exact .say trivial
  · split
    · exact .stop (by simp)
    · exact .say trivial
    · exact .say trivial

/-- COMPILE answers when the snapshot has been written, if the name of its file is allowed. -/
lemma brief_compile (s : Session) (file : String) (line : Option Int) :
    Brief { s with workspace := if s.config.isCompileTarget file then
        (s.workspace.saveSnapshot s.automaton (s.target file) s.config.library).1 else s.workspace }
      line (fun d => d = .invalidTarget file ∨ d = .compiled file ∨ d = .cannotCreate file)
      (s.compile file line) := by
  rw [compile]
  cases s.config.isCompileTarget file with
  | false => exact .say (Or.inl rfl)
  | true =>
    simp only [Bool.not_true, Bool.false_eq_true, if_false, if_true]
    split
    · exact .say (Or.inr (Or.inl rfl))
    · exact .stop (by simp)
    · exact .say (Or.inr (Or.inr rfl))

/-- LOAD of a snapshot answers when the automaton has been replaced, if it could be read. -/
lemma brief_restore (s : Session) (file : String) (line : Option Int) :
    Brief { s with automaton :=
        (s.snapshotAt file).toOption.getD s.automaton }
      line (fun d => d = .loaded file ∨ d = .cannotOpen file ∨ d = .cannotRead file ∨
        ∃ e, s.snapshotAt file = .error (.snapshot e) ∧
          (∀ kind, e ≠ .notNumber kind) ∧ (∀ f, e ≠ .unreadable f) ∧ d = .cannotLoad file e)
      (s.restore file line) := by
  unfold restore
  generalize s.snapshotAt file = loaded
  split
  · exact .say (Or.inl rfl)
  · exact .say (Or.inr (Or.inl rfl))
  · exact .say (Or.inr (Or.inl rfl))
  · exact .stop (by simp)
  · exact .say (Or.inr (Or.inr (Or.inl rfl)))
  · exact .stop (by simp)
  · exact .stop (by simp)
  · split_ifs
    · exact .say (Or.inr (Or.inr (Or.inl rfl)))
    · exact .stop (by simp)
  · next e _ hkind hread =>
      exact .say (Or.inr (Or.inr (Or.inr ⟨e, rfl, hkind, hread, rfl⟩)))

/-- LOG answers when the log has been opened. -/
lemma brief_openLog (s : Session) (file : String) (line : Option Int) :
    ∃ opened, s.log.openAt s.workspace (s.target file) = opened ∧
      Brief { s with workspace := opened.1, log := opened.2.1 } line (· = .cannotLog file)
        (s.openLog file line) := by
  refine ⟨_, rfl, ?_⟩
  rw [openLog]
  generalize s.log.openAt s.workspace (s.target file) = opened
  obtain ⟨workspace, log, failure⟩ := opened
  dsimp only
  split
  · exact .done
  · exact .stop (by simp)
  · exact .say rfl
  · exact .stop (by simp)
  · exact .stop (by simp)

lemma brief_stopLog (s : Session) (line : Option Int) :
    Brief (if s.log.active then s.closeLog else s) line
      (fun d => d = .logStopped ∨ d = .logNotEnabled) (s.stopLog line) := by
  rw [stopLog]
  split_ifs
  · exact .say (Or.inl rfl)
  · exact .say (Or.inr rfl)

end Session

end AutomatonShell
