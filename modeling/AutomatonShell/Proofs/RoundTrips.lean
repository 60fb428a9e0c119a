import AutomatonShell.Proofs.CompileLoad
import AutomatonShell.Proofs.DefinedSessions

/-!
# Files that are written are loaded again

PRINT writes a script that declares the automaton anew, and COMPILE writes a snapshot.  Whether LOAD
makes the same automaton of them depends on the configuration, and an accepted configuration may
well get it wrong.  A script is cut short by its own words if the comment marker occurs in them, and
a snapshot is taken for a script if its name has none of the endings of snapshots; and a codec that
does not read ASCII back as it wrote it loses a script too (`exists_config_without_round_trips`).
Nothing else can go wrong: the listing of an automaton is ASCII, and none of its commands is a LOAD,
so it does not matter how deeply scripts may be nested.

* `replay_of_holds` — a listing replayed from its file.
* **`load_written`** — PRINT or COMPILE and then LOAD.
-/

namespace AutomatonShell

/-! ## Listings -/

lemma Automaton.exists_of_mem_listingCommands {a : Automaton} {command : List Char}
    (h : command ∈ a.listingCommands) :
    ∃ keyword body, keyword ≠ Keyword.load ∧ command = commandText keyword body := by
  have hsection : ∀ {keyword : Keyword} {between : List Char} {entries : List String},
      keyword ≠ .load → command ∈ sectionCommands keyword between entries →
        ∃ keyword body, keyword ≠ Keyword.load ∧ command = commandText keyword body := by
    intro keyword between entries hkeyword hmem
    rw [sectionCommands] at hmem
    split_ifs at hmem
    · cases hmem
    · exact ⟨keyword, _, hkeyword, List.mem_singleton.1 hmem⟩
  simp only [listingCommands, List.mem_append] at h
  rcases h with h | h | h | h | h <;> exact hsection (by decide) h

namespace Session

variable {s : Session} {file : String} {line : Option Int}

/-- A command that is no LOAD does not look at how deeply scripts may be nested. -/
lemma processAt_commandText {keyword : Keyword} (hkeyword : keyword ≠ .load) {body : List Char}
    (hsep : ';' ∉ commandText keyword body) (bound : Nat) (s : Session) (line : Option Int) :
    processAt (bound + 1) s (String.ofList (commandText keyword body)) line
      = s.process (String.ofList (commandText keyword body)) line := by
  have hperform : ∀ (t : Session) words rest, perform (load (processAt bound)) t keyword words rest
      line = perform (load (processAt maxNesting)) t keyword words rest line := by
    intro t words rest
    have hfile : (Task.mk t keyword words rest line).file? = none := by
      cases keyword <;> first | rfl | exact absurd rfl hkeyword
    exact Task.run_of_file?_eq_none hfile _ _
  rw [process_eq, processAt, processAt, processWith, processWith]
  dsimp only
  rw [String.toList_ofList, commandText, Command.ofText?_trimCommand (isWord_name _) hsep]
  dsimp only
  rw [String.ofList_toList, Keyword.ofName?_name]
  dsimp only
  rw [hperform]

lemma processAll_congr {process process' : Action} {commands : List NumberedCommand}
    (h : ∀ c ∈ commands, ∀ s, process s c.2 (some c.1) = process' s c.2 (some c.1)) (s : Session) :
    processAll process s commands = processAll process' s commands := by
  induction commands generalizing s with
  | nil => rfl
  | cons c rest ih =>
    rw [List.forall_mem_cons] at h
    show (process s c.2 (some c.1)).andThen (fun t => processAll process t rest)
      = (process' s c.2 (some c.1)).andThen fun t => processAll process' t rest
    rw [h.1]
    exact Outcome.andThen_congr (ih h.2 _)

/-- **A listing replayed from its file**, in a session with nothing declared. -/
lemma replay_of_holds {place : Location} {a : Automaton} (ha : a.WellFormed)
    (hplain : a.HasPlainStates) (hs : s.finished = false) (hempty : s.automaton = {})
    (hloading : s.loading = [])
    (hmarker : ∀ l ∈ a.listing, ¬ s.config.commentPrefix.toList <:+: l.toList)
    {codec : Text.Codec} (hcodec : s.config.codec? = some codec) (hascii : codec.KeepsAscii)
    (hholds : s.workspace.Holds (s.target file) place
      (codec.written (a.listingText.map String.toList))) (bound : Nat) (line : Option Int) :
    (s.replay (processAt (bound + 1)) file line).failure = none ∧
      (s.replay (processAt (bound + 1)) file line).output = [] ∧
      (s.replay (processAt (bound + 1)) file line).state.automaton.IsRearrangementOf a := by
  have hread : s.scriptAt file = .ok (a.listingText.map String.toList).flatten := by
    rw [scriptAt, hcodec]
    exact hholds.readText (ha.decode_listingText hascii) _
  set entered : Session :=
    { s with loading := s.loading ++ [Location.ofText s.workspace.home (s.target file)] }
  obtain ⟨commands, hfeed, htexts⟩ :=
    Automaton.feedAll_listing (ha.plainNames hplain) hmarker 1
  rw [← Automaton.lines_listingText (ha.plainNames hplain)] at hfeed
  have hecho := processAll_listing (s := entered) ha hplain htexts hs
  rw [Automaton.redeclare_eq ha hplain, show entered.automaton = {} from hempty,
    Automaton.repetitions_empty] at hecho
  -- the commands are those of the listing, and so none of them is a LOAD
  have hall : processAll (processAt (bound + 1)) entered commands
      = processAll process entered commands := by
    refine processAll_congr (fun c hc t => ?_) entered
    have hmem : c.2 ∈ a.listingCommands.map String.ofList := htexts ▸ List.mem_map_of_mem hc
    obtain ⟨text, htext, heq⟩ := List.mem_map.1 hmem
    obtain ⟨keyword, body, hkeyword, rfl⟩ := Automaton.exists_of_mem_listingCommands htext
    have hsep : ';' ∉ commandText keyword body := fun hsep =>
      (((ha.plainNames hplain).isTrimmed_of_mem htext).2 _ hsep).ne_separator rfl
    rw [← heq, processAt_commandText hkeyword hsep]
  have hreplay : s.replay (processAt (bound + 1)) file line
      = (processAll process entered commands).mapState fun t =>
          { t with loading := s.loading } := by
    rw [replay]
    dsimp only
    rw [if_neg hholds.not_contains_nul, if_neg (by simp [hloading]), hread]
    dsimp only
    rw [replayLines, hfeed]
    dsimp only
    rw [hall]
    -- no command is left unfinished
    simp only [List.isEmpty_nil, Bool.or_true, if_true]
    exact Outcome.andThen_done _
  rw [hreplay]
  refine ⟨hecho.failure_eq, List.map_eq_nil_iff.1 hecho.output_eq, ?_⟩
  show (processAll process entered commands).state.automaton.IsRearrangementOf a
  rw [hecho.automaton_eq]
  exact Automaton.isRearrangementOf_overlay a

/-! ## Writing and loading -/

/-- **A listing written to a file that can be created.** -/
lemma print_of_create {codec : Text.Codec} (ha : s.automaton.WellFormed)
    (hcodec : s.config.codec? = some codec) (hascii : codec.KeepsAscii)
    {place : Location} {w : Workspace}
    (hcreate : s.workspace.create (s.target file) = .ok (place, w)) :
    s.print file line = say { s with
      workspace := w.put place (codec.written (s.automaton.listingText.map String.toList)) }
      line (.written file) := by
  rw [print, Workspace.writeText, Workspace.createText, hcreate, hcodec]
  dsimp only
  rw [ha.emit_listingText hascii]
  rfl

variable {config : Config} {workspace : Workspace} {text text' : String} {line' : Option Int}

/-- A LOAD of a script, in a session that begins. -/
lemma process_load_script (hload : Asks text' .load file) (hbinary : config.isBinary file = false)
    (w : Workspace) : (Session.start config w).process text' line'
      = (Session.start config w).replay (processAt maxNesting) file line' := by
  obtain ⟨entry, body, hprocess⟩ := process_asks (s := Session.start config w) rfl hload line'
  refine hprocess.trans ?_
  rw [record_of_no_log rfl]
  exact if_neg (by simp [Session.start, hbinary])

/-- **PRINT and then LOAD**, in a session that begins anew. -/
lemma load_printed (hs : IsDefined config workspace s) {codec : Text.Codec}
    (hcodec : config.codec? = some codec) (hascii : codec.KeepsAscii)
    (hprint : Asks text .print file) (hload : Asks text' .load file)
    (hbinary : config.isBinary file = false)
    (hwritable : (s.workspace.create (s.target file)).isOk = true)
    (hmarker : ∀ l ∈ s.automaton.listing, ¬ config.commentPrefix.toList <:+: l.toList) :
    let printed := s.process text line
    let loaded := (Session.start config printed.state.workspace).process text' line'
    printed.output = [(Diagnostic.written file).message line] ∧
      loaded.failure = none ∧ loaded.output = [] ∧
      loaded.state.automaton.IsRearrangementOf s.automaton := by
  obtain ⟨hconfig, hopen, hlog⟩ := hs.settled
  obtain ⟨entry, body, hprocess⟩ := process_asks hopen hprint line
  rw [record_of_no_log hlog] at hprocess
  have hprocess : s.process text line = s.print file line := hprocess
  cases hcreate : s.workspace.create (s.target file) with
  | error e => rw [hcreate] at hwritable; cases hwritable
  | ok created =>
    obtain ⟨place, emptied⟩ := created
    have hprinted : s.print file line = _ :=
      print_of_create hs.wellFormed (hconfig ▸ hcodec) hascii hcreate
    obtain ⟨-, hholds⟩ := Workspace.holds_of_create hcreate
      (codec.written (s.automaton.listingText.map String.toList))
    rw [target, hconfig] at hholds
    intro printed loaded
    have hworkspace : printed.state.workspace
        = emptied.put place (codec.written (s.automaton.listingText.map String.toList)) := by
      rw [show printed = _ from hprocess.trans hprinted]
      exact congrArg Session.workspace (record_of_no_log (by exact hlog) _)
    refine ⟨by rw [show printed = _ from hprocess.trans hprinted]; rfl, ?_⟩
    rw [show loaded = _ from process_load_script hload hbinary _]
    rw [← hworkspace] at hholds
    exact replay_of_holds (s := Session.start config _) hs.wellFormed hs.eq_start.1 rfl rfl rfl
      hmarker hcodec hascii hholds _ line'

/-- **COMPILE and then LOAD**, in any session with the same configuration and the same files. -/
lemma load_compiled_elsewhere (hs : IsDefined config workspace s)
    (hcompile : Asks text .compile file) (hload : Asks text' .load file)
    (hbinary : config.isBinary file = true) (hlibrary : config.library.KeepsAutomata)
    (hcompiled : (Diagnostic.compiled file).message line ∈ (s.process text line).output)
    {t : Session} (ht : t.finished = false) (hconfig : t.config = config)
    (hlog : t.log.current = none) (hfiles : t.workspace = (s.process text line).state.workspace) :
    (t.process text' line').failure = none ∧
      (t.process text' line').output = [(Diagnostic.loaded file).message line'] ∧
      (t.process text' line').state.automaton.IsCopyOf s.automaton := by
  obtain ⟨hconfig', hopen, hlog'⟩ := hs.settled
  obtain ⟨-, place, bytes, hbytes, -, -, hholds⟩ := compiled_of_reported hopen hcompile hcompiled
  have hholds := hholds (by simp [logPlace?, hlog'])
  have htarget : s.target file = t.target file := by rw [target, target, hconfig, hconfig']
  rw [← hfiles, htarget] at hholds
  rw [hconfig', ← hconfig] at hbytes
  exact load_of_holds (hconfig ▸ hlibrary) hs.wellFormed hbytes ht hload (hconfig ▸ hbinary)
    (by simp [logPlace?, hlog]) hholds line'

/-- **Files that are written are loaded again**, in every configuration and on every platform.  Let
a session have been given definition commands only.  If the encoding is one that keeps ASCII texts,
the comment marker occurs in no line of the listing, and PRINT is given a file that can be created
and does not have the name of a snapshot, it reports success; and a session that begins anew makes
the same automaton of the file and has nothing to say about it.  If COMPILE reports success for a
file whose name is that of a snapshot, and the library keeps automata, any open session without a
log restores the automaton from it.  UTF-8, Latin-1 and ASCII are such encodings, and what is built
in is such a library. -/
theorem load_written (hs : IsDefined config workspace s) (hload : Asks text' .load file) :
    (∀ code, (Text.Codec.ofEncoding code).KeepsAscii) ∧ Snapshot.Library.standard.KeepsAutomata ∧
    (∀ codec, config.codec? = some codec → codec.KeepsAscii → Asks text .print file →
      config.isBinary file = false → (s.workspace.create (s.target file)).isOk = true →
      (∀ l ∈ s.automaton.listing, ¬ config.commentPrefix.toList <:+: l.toList) →
        let printed := s.process text line
        let loaded := (Session.start config printed.state.workspace).process text' line'
        printed.output = [(Diagnostic.written file).message line] ∧
          loaded.failure = none ∧ loaded.output = [] ∧
          loaded.state.automaton.IsRearrangementOf s.automaton) ∧
    (Asks text .compile file → config.isBinary file = true → config.library.KeepsAutomata →
      (Diagnostic.compiled file).message line ∈ (s.process text line).output →
        ∀ t : Session, t.finished = false → t.config = config → t.log.current = none →
          t.workspace = (s.process text line).state.workspace →
            (t.process text' line').failure = none ∧
              (t.process text' line').output = [(Diagnostic.loaded file).message line'] ∧
              (t.process text' line').state.automaton.IsCopyOf s.automaton) :=
  ⟨Text.Codec.keepsAscii_ofEncoding, Snapshot.Library.keepsAutomata_standard,
    fun _ hcodec hascii hprint hbinary hwritable hmarker =>
      load_printed hs hcodec hascii hprint hload hbinary hwritable hmarker,
    fun hcompile hbinary hlibrary hcompiled _ ht hconfig hlog hfiles =>
      load_compiled_elsewhere hs hcompile hload hbinary hlibrary hcompiled ht hconfig hlog hfiles⟩

/-- An automaton written to a script and to a snapshot. -/
theorem load_written_default :
    let s := ((Session.start Config.standard { home := ["w"] }).process "STATES b a" none).state
    let printed := s.process "PRINT d" none
    let compiled := s.process "COMPILE m.fsm" none
    s.automaton.states = ["B", "A"] ∧
      ((Session.start Config.standard printed.state.workspace).process
        "LOAD d" none).state.automaton.IsRearrangementOf s.automaton ∧
      ((Session.start Config.standard compiled.state.workspace).process
        "load m.fsm;" none).state.automaton.IsCopyOf s.automaton := by
  intro s
  have hs : IsDefined Config.standard { home := ["w"] } s :=
    .command .start (by decide +kernel) none
  have hstates : s.automaton.states = ["B", "A"] := by decide +kernel
  have hwritable : (s.workspace.create (s.target "d")).isOk = true := by decide +kernel
  have hcompiled : (Diagnostic.compiled "m.fsm").message none
      ∈ (s.process "COMPILE m.fsm" none).output := by decide +kernel
  clear_value s
  have hcodec : Config.standard.codec? = some (.ofEncoding .utf8) := rfl
  have hmarker : ∀ l ∈ s.automaton.listing, ¬ "#".toList <:+: l.toList :=
    Automaton.not_infix_listing (c := '#') (hs.wellFormed.plainNames hs.eq_start.1) (by simp)
      (by decide) (by decide)
  have hprint : Asks "PRINT d" .print "d" := by decide +kernel
  have hload : Asks "LOAD d" .load "d" := by decide +kernel
  have hload' : Asks "load m.fsm;" .load "m.fsm" := by decide +kernel
  obtain ⟨-, -, -, hprinted⟩ := (load_written hs hload).2.2.1 _ hcodec
    (Text.Codec.keepsAscii_ofEncoding .utf8) hprint (by decide +kernel) hwritable hmarker
  obtain ⟨-, -, hcopy⟩ := (load_written hs hload').2.2.2 (by decide +kernel) (by decide +kernel)
    Snapshot.Library.keepsAutomata_standard hcompiled (Session.start Config.standard _) rfl rfl rfl
    rfl
  exact ⟨hstates, hprinted, hcopy⟩

/-! ## Configurations that do not agree with their files -/

lemma mapM_eq_none {α β : Type} {f : α → Option β} {xs : List α} {x : α} (hmem : x ∈ xs)
    (hx : f x = none) : xs.mapM f = none := by
  induction xs with
  | nil => exact (List.not_mem_nil hmem).elim
  | cons y rest ih =>
    rw [List.mapM_cons]
    rcases List.mem_cons.1 hmem with rfl | hmem
    · rw [hx]
      rfl
    · rw [ih hmem]
      cases f y <;> rfl

/-- A script that is no text is not replayed. -/
lemma replay_of_undecodable {place : Location} {bytes : List UInt8} {codec : Text.Codec}
    (hloading : s.loading = []) (hcodec : s.config.codec? = some codec)
    (hdecode : codec.decode bytes = .error .refused)
    (hholds : s.workspace.Holds (s.target file) place bytes) (process : Action)
    (line : Option Int) : s.replay process file line = s.say line (.cannotOpen file) := by
  have hread : s.scriptAt file = .error (@TextFileError.undecodable .refused) := by
    rw [scriptAt, Workspace.readText, hholds.read, hcodec]
    simp [hdecode]
  rw [replay]
  dsimp only
  rw [if_neg hholds.not_contains_nul, if_neg (by simp [hloading]), hread]

/-- **COMPILE and then LOAD under a name that is not that of a snapshot**, where texts are in
ASCII. -/
lemma load_misnamed (hs : IsDefined config workspace s)
    (hcodec : config.codec? = some (.ofEncoding .ascii)) (hlibrary : config.library = .standard)
    (hcompile : Asks text .compile file) (hload : Asks text' .load file)
    (hbinary : config.isBinary file = false)
    (hcompiled : (Diagnostic.compiled file).message line ∈ (s.process text line).output) :
    let loaded := (Session.start config (s.process text line).state.workspace).process text' line'
    loaded.output = [(Diagnostic.cannotOpen file).message line'] ∧
      loaded.state.automaton = {} := by
  obtain ⟨hconfig, hopen, hlog⟩ := hs.settled
  obtain ⟨-, place, bytes, hbytes, -, -, hholds⟩ := compiled_of_reported hopen hcompile hcompiled
  have hholds := hholds (by simp [logPlace?, hlog])
  rw [target, hconfig] at hholds
  rw [hconfig, hlibrary] at hbytes
  have hdecode : (Text.Codec.ofEncoding .ascii).decode bytes = .error .refused := by
    have hnone : Text.Encoding.ascii.decode bytes = none :=
      mapM_eq_none (Snapshot.mem_of_encode hbytes) rfl
    simp [Text.Codec.ofEncoding, hnone]
  intro loaded
  have hloaded : loaded = (Session.start config (s.process text line).state.workspace).say line'
      (.cannotOpen file) := (process_load_script hload hbinary _).trans
    (replay_of_undecodable (s := Session.start config _) rfl hcodec hdecode hholds _ line')
  rw [hloaded]
  exact ⟨rfl, congrArg automaton (state_say (s := Session.start config _) rfl line' _)⟩

/-- What a pattern of three letters accepts. -/
lemma pattern_abc : Platform.standard.pattern "abc"
    = .ok (Pattern.accepts (.word ['a', 'b', 'c'])) := by
  rw [Platform.pattern_standard,
    show Pattern.parse "abc" = .ok (.word ['a', 'b', 'c']) by decide +kernel]
  rfl

/-- **Three accepted configurations that do not read back what they wrote.**  In the first the
marker of comments begins inside the keywords of a listing.  In the second the encoding puts a
character in front of every command but the first, so that the states are lost.  In the third the
pattern allows a name without an ending. -/
theorem exists_config_without_round_trips :
    (∃ config, ({ commentPrefix := "S" } : Settings).validate = .ok config ∧
      config.codec? = some (.ofEncoding .utf8) ∧ config.isBinary "d" = false ∧
      let s := ((Session.start config { home := ["w"] }).process "STATES a" none).state
      let printed := s.process "PRINT d" none
      let loaded := (Session.start config printed.state.workspace).process "LOAD d" none
      printed.output = [(Diagnostic.written "d").message none] ∧ s.automaton.states = ["A"] ∧
        loaded.state.automaton = {}) ∧
    (∃ config, ({ encoding := "punycode" } : Settings).validate = .ok config ∧
      config.codec? = some .punycode ∧ ¬ Text.Codec.punycode.KeepsAscii ∧
      config.isBinary "d" = false ∧
      let begun := (Session.start config { home := ["w"] }).process "SYMBOLS 0" none
      let s := (begun.state.process "STATES a" none).state
      let printed := s.process "PRINT d" none
      let loaded := (Session.start config printed.state.workspace).process "LOAD d" none
      printed.output = [(Diagnostic.written "d").message none] ∧ s.automaton.states = ["A"] ∧
        loaded.state.automaton.states = []) ∧
    ∃ config, ({ compilePattern := "abc", encoding := "ascii" } : Settings).validate = .ok config ∧
      config.codec? = some (.ofEncoding .ascii) ∧
      let s := ((Session.start config { home := ["w"] }).process "STATES a" none).state
      let compiled := s.process "COMPILE abc" none
      let loaded := (Session.start config compiled.state.workspace).process "LOAD abc" none
      compiled.output = [(Diagnostic.compiled "abc").message none] ∧
        s.automaton.states = ["A"] ∧
        loaded.output = [(Diagnostic.cannotOpen "abc").message none] ∧
        loaded.state.automaton = {} := by
  refine ⟨⟨_, validate_eq_ok rfl pattern_default ⟨by decide, by decide⟩,
      rfl, by decide +kernel, by decide +kernel⟩,
    ⟨_, validate_encoding "punycode", rfl, Text.Codec.not_keepsAscii_punycode, by decide +kernel,
      by decide +kernel⟩,
    ⟨_, validate_eq_ok rfl pattern_abc ⟨by decide, by decide⟩, rfl, ?_⟩⟩
  intro s
  have hs : IsDefined _ _ s := .command .start (by decide +kernel) none
  obtain ⟨hreported, hstates⟩ : (s.process "COMPILE abc" none).output
      = [(Diagnostic.compiled "abc").message none] ∧ s.automaton.states = ["A"] := by
    decide +kernel
  clear_value s
  exact ⟨hreported, hstates, load_misnamed hs rfl rfl (by decide +kernel) (by decide +kernel)
    (by decide +kernel) (hreported ▸ List.mem_singleton_self _)⟩

end Session

end AutomatonShell
