import AutomatonShell.Proofs.Cutting
import AutomatonShell.Proofs.ListingText
import AutomatonShell.Proofs.Reachable

/-!
# Replaying a listing

Carrying out a declaration command in an open session echoes the declaration: the session gets the
automaton that the declaration leaves, and says what the declaration says (`Session.Echoes`).
Echoes follow one another, so processing the commands of a listing echoes `Automaton.redeclare`, and
what that leaves is known.

* `Session.Echoes` — a reply says and leaves what a declaration says and leaves.
* **`Session.process_command`** — one declaration command is echoed.
* **`Session.processAll_listing`** — so are the commands of a listing.
* **`Session.replay_listing`** — replaying a listing, from its lines to the automaton.
-/

namespace AutomatonShell

namespace Session

variable {s : Session}

/-! ## Echoes -/

/-- **A reply echoes a declaration**: it ran to its end in a session that stays open, left the
automaton that the declaration leaves, and said what the declaration says. -/
structure Echoes (r : Reply) (d : Declaration) : Prop where
  failure_eq : r.failure = none
  finished_eq : r.state.finished = false
  automaton_eq : r.state.automaton = d.state
  output_eq : r.output.map (fun m => (m.severity, m.text))
    = d.output.map fun d => (d.severity, d.text)

lemma echoes_done (hs : s.finished = false) : Echoes (.done s) (.done s.automaton) :=
  ⟨rfl, hs, rfl, rfl⟩

/-- Echoes follow one another, as long as the declarations are not refused. -/
lemma Echoes.andThen {r : Reply} {d : Declaration} {next : Session → Reply}
    {next' : Automaton → Declaration} (hd : (d.andThen next').failure = none)
    (hfirst : d.failure = none → Echoes r d)
    (hnext : ∀ t : Session, t.finished = false → (next' t.automaton).failure = none →
      Echoes (next t) (next' t.automaton)) :
    Echoes (r.andThen next) (d.andThen next') := by
  cases hfailure : d.failure with
  | some reason =>
    rw [Outcome.andThen_of_failure_eq_some hfailure, hfailure] at hd
    exact nomatch hd
  | none =>
    have h := hfirst hfailure
    rw [Outcome.andThen_of_failure_eq_none hfailure] at hd ⊢
    rw [Outcome.andThen_of_failure_eq_none h.failure_eq]
    have h' := hnext r.state h.finished_eq (by rwa [h.automaton_eq])
    rw [h.automaton_eq] at h'
    refine ⟨h'.failure_eq, h'.finished_eq, h'.automaton_eq, ?_⟩
    rw [List.map_append, List.map_append, h.output_eq, h'.output_eq]

/-! ## Declaration commands -/

/-- Diagnostics are said in their order, and change nothing but the log. -/
lemma sayAll_eq (s : Session) (line : Option Int) (ds : List Diagnostic) :
    (s.sayAll line ds).failure = none ∧
      (s.sayAll line ds).output = ds.map (·.message line) ∧
      (s.sayAll line ds).state.finished = s.finished := by
  induction ds generalizing s with
  | nil => exact ⟨rfl, rfl, rfl⟩
  | cons d rest ih =>
    obtain ⟨hfailure, houtput, hfinished⟩ := ih (s.say line d).state
    have hcons : s.sayAll line (d :: rest)
        = (s.say line d).andThen fun t => t.sayAll line rest := rfl
    rw [hcons, Outcome.andThen_of_failure_eq_none rfl]
    refine ⟨hfailure, ?_, hfinished⟩
    rw [houtput]
    rfl

/-- What a declaration that is not refused makes of a session. -/
lemma declare_eq {d : Declaration} (hd : d.failure = none) (s : Session) (line : Option Int) :
    (s.declare line d).failure = none ∧ (s.declare line d).state.finished = s.finished ∧
      (s.declare line d).output = d.output.map (·.message line) := by
  obtain ⟨hfailure, houtput, hfinished⟩ := sayAll_eq { s with automaton := d.state } line d.output
  have heq : s.declare line d = sayAll { s with automaton := d.state } line d.output := by
    rw [declare, hd]
    exact Outcome.andThen_done _
  rw [heq]
  exact ⟨hfailure, hfinished, houtput⟩

/-- The outcome of a declaration, carried over into an open session, echoes it. -/
lemma declare_echoes {d : Declaration} (hd : d.failure = none) (hs : s.finished = false)
    (line : Option Int) : Echoes (s.declare line d) d := by
  obtain ⟨hfailure, hfinished, houtput⟩ := declare_eq hd s line
  refine ⟨hfailure, by rw [hfinished, hs], automaton_declare s line d, ?_⟩
  rw [houtput, List.map_map]
  rfl

/-- A command that begins with a keyword, from its text to what is carried out. -/
lemma process_keyword (hs : s.finished = false) (keyword : Keyword) {body : List Char}
    (hsep : ';' ∉ body) (line : Option Int) : ∃ entry : String,
      s.process (String.ofList (commandText keyword body)) line
        = (s.record entry).perform (load (processAt maxNesting)) keyword
            ((Text.words body).map String.ofList) (Text.strip body) line := by
  have hsemicolon : ';' ∉ keyword.name.toList ++ ' ' :: body := by
    intro hmem
    rcases List.mem_append.1 hmem with hmem | hmem
    · exact (isListed_of_mem_name _ hmem).ne_separator rfl
    · rcases List.mem_cons.1 hmem with h | hmem
      · exact absurd h (by decide)
      · exact hsep hmem
  refine ⟨s.config.prompt ++ String.ofList (trimCommand (commandText keyword body)), ?_⟩
  rw [process_eq, processAt, processWith, if_neg (by simp [hs])]
  dsimp only
  rw [String.toList_ofList, commandText, Command.ofText?_trimCommand (isWord_name _) hsemicolon]
  dsimp only
  rw [String.ofList_toList, Keyword.ofName?_name]

/-- **One declaration command is echoed**, from its text to the automaton it leaves. -/
theorem process_command {keyword : Keyword} {body : List Char} (hbody : Text.IsTrimmed body)
    (hsep : ∀ c ∈ body, IsListed c) {d : Automaton → Declaration}
    (hperform : ∀ (load : Action) (t : Session) (line : Option Int),
      t.perform load keyword ((Text.words body).map String.ofList) body line
        = t.declare line (d t.automaton))
    (hs : s.finished = false) (hd : (d s.automaton).failure = none) (line : Option Int) :
    Echoes (s.process (String.ofList (commandText keyword body)) line) (d s.automaton) := by
  have hsemicolon : ';' ∉ body := fun hmem => (hsep _ hmem).ne_separator rfl
  obtain ⟨entry, hprocess⟩ := process_keyword hs keyword hsemicolon line
  rw [hprocess, hbody.strip, hperform, record_automaton]
  exact declare_echoes (s := s.record _) hd hs line

/-! ## The commands of a listing -/

lemma processAll_append (process : Action) (s : Session) (first rest : List NumberedCommand) :
    processAll process s (first ++ rest)
      = (processAll process s first).andThen fun t => processAll process t rest :=
  Outcome.forEach_append _ s first rest

/-- One section of a listing: no command if it has no entries, otherwise one. -/
lemma processAll_section {keyword : Keyword} {between : List Char} {entries : List String}
    (hbetween : ∀ c ∈ between, IsListed c) (hentries : ∀ e ∈ entries, IsEntry e)
    (d : Automaton → Declaration) (hnone : entries = [] → ∀ a, d a = .done a)
    (hperform : entries ≠ [] → ∀ (load : Action) (t : Session) (line : Option Int),
      t.perform load keyword
          ((Text.words (between.intercalate (entries.map String.toList))).map String.ofList)
          (between.intercalate (entries.map String.toList)) line
        = t.declare line (d t.automaton))
    {commands : List NumberedCommand}
    (hcommands : commands.map Prod.snd
      = (Automaton.sectionCommands keyword between entries).map String.ofList)
    (hs : s.finished = false) (hd : (d s.automaton).failure = none) :
    Echoes (processAll process s commands) (d s.automaton) := by
  rw [Automaton.sectionCommands] at hcommands
  split_ifs at hcommands with hempty
  · obtain rfl : commands = [] := by simpa using hcommands
    rw [hnone (List.isEmpty_iff.1 hempty)]
    exact echoes_done hs
  · have hne : entries ≠ [] := fun h => hempty (List.isEmpty_iff.2 h)
    obtain ⟨number, rfl⟩ : ∃ number, commands = [(number, String.ofList
        (commandText keyword (between.intercalate (entries.map String.toList))))] := by
      simpa [List.map_eq_cons_iff] using hcommands
    obtain ⟨hbody, hlisted⟩ := isEntry_intercalate hbetween hne hentries
    have hone : processAll process s [(number, String.ofList
        (commandText keyword (between.intercalate (entries.map String.toList))))]
          = s.process (String.ofList
              (commandText keyword (between.intercalate (entries.map String.toList)))) number :=
      Outcome.andThen_done _
    rw [hone]
    exact process_command hbody hlisted (hperform hne) hs hd _

/-- A section of plain names, whose command takes them in as its words. -/
lemma processAll_names {keyword : Keyword} {names : List String}
    (hplain : ∀ n ∈ names, IsPlainName n) (d : Automaton → List String → Declaration)
    (hnone : ∀ a, d a [] = .done a)
    (hperform : ∀ word rest, names = word :: rest →
      ∀ (load : Action) (t : Session) (body : List Char) (line : Option Int),
        t.perform load keyword names body line = t.declare line (d t.automaton names))
    {commands : List NumberedCommand}
    (hcommands : commands.map Prod.snd
      = (Automaton.sectionCommands keyword [' '] names).map String.ofList)
    (hs : s.finished = false) (hd : (d s.automaton names).failure = none) :
    Echoes (processAll process s commands) (d s.automaton names) := by
  have hwords : (Text.words ([' '].intercalate (names.map String.toList))).map String.ofList
      = names := by
    rw [Text.words_intercalate, List.map_map]
    · simp
    · intro w hw
      obtain ⟨n, hn, rfl⟩ := List.mem_map.1 hw
      exact (hplain n hn).isWord
  refine processAll_section isListed_space (fun n hn => (hplain n hn).isEntry)
    (fun a => d a names) ?_ ?_ hcommands hs hd
  · intro hnil a
    rw [hnil, hnone]
  · intro hne load t line
    obtain ⟨word, rest, hnames⟩ := List.exists_cons_of_ne_nil hne
    rw [hwords]
    exact hperform word rest hnames load t _ line

/-- **The commands of a listing redeclare the automaton** in whatever open session they are
processed. -/
theorem processAll_listing {a : Automaton} (h : a.WellFormed)
    (hplain : ∀ q ∈ a.states, IsPlainName q) {commands : List NumberedCommand}
    (hcommands : commands.map Prod.snd = a.listingCommands.map String.ofList)
    (hs : s.finished = false) :
    Echoes (processAll process s commands) (s.automaton.redeclare a) := by
  have hnames := h.plainNames hplain
  have hd : (s.automaton.redeclare a).failure = none := by
    rw [Automaton.redeclare_eq h hplain]
  rw [Automaton.listingCommands] at hcommands
  simp only [List.map_append, List.map_eq_append_iff] at hcommands
  obtain ⟨first, rest, rfl, hfirst, second, rest, rfl, hsecond, third, rest, rfl, hthird, fourth,
    fifth, rfl, hfourth, hfifth⟩ := hcommands
  simp only [processAll_append]
  -- one section after the other, as `redeclare` has them
  refine Echoes.andThen hd (fun hd => ?_) fun t ht hd => ?_
  · refine processAll_names hnames.symbols Automaton.declareSymbols (fun _ => rfl) ?_ hfirst hs hd
    rintro word rest hcons load u body line
    rw [hcons]
    rfl
  refine Echoes.andThen hd (fun hd => ?_) fun t ht hd => ?_
  · refine processAll_names hnames.states Automaton.declareStates (fun _ => rfl) ?_ hsecond ht hd
    rintro word rest hcons load u body line
    rw [hcons]
    rfl
  refine Echoes.andThen hd (fun hd => ?_) fun t ht hd => ?_
  · refine processAll_names hnames.initial (Outcome.forEach Automaton.declareInitial)
      (fun _ => rfl) ?_ hthird ht hd
    -- there is at most one initial state, as the command asks for
    rintro word rest hcons load u body line
    cases hq : a.initial with
    | none => simp [hq] at hcons
    | some q => exact congrArg (u.declare line) (Outcome.andThen_done _).symm
  refine Echoes.andThen hd (fun hd => ?_) fun t ht hd => ?_
  · refine processAll_names hnames.finals Automaton.declareFinals (fun _ => rfl) ?_ hfourth ht hd
    rintro word rest hcons load u body line
    rw [hcons]
    rfl
  · refine processAll_section isListed_comma hnames.isEntry_transitions
      (fun b => b.declareTransitions (Transition.body a.sortedTransitions)) ?_ ?_ hfifth ht hd
    · intro hnil b
      rw [List.map_eq_nil_iff.1 hnil]
      rfl
    · intro hne load u line
      rw [List.map_map]
      rfl

/-- **A listing replayed.**  The lines of the file that a listing was written to are cut into
commands without a rest.  Processing them in any open session runs to its end without an error.
The missing symbols and states stand behind those of the session, the initial state of the listing
takes precedence, the final states are united, and the transitions of the listing replace those with
their keys. -/
theorem replay_listing {a : Automaton} (h : a.WellFormed)
    (hplain : ∀ q ∈ a.states, IsPlainName q) {s : Session} (hs : s.finished = false)
    {marker : String} (hmarker : ∀ line ∈ a.listing, ¬ marker.toList <:+: line.toList)
    (start : Int) :
    ∃ commands r,
      ({ commentPrefix := marker } : Assembler).feedAll start
          ((Text.lines (Text.unifyNewlines (a.listingText.map String.toList).flatten)).map
            String.ofList)
        = .ok (commands, { commentPrefix := marker, pieces := [] }) ∧
      processAll process s commands = r ∧
      r.failure = none ∧ r.state.finished = false ∧ (∀ m ∈ r.output, m.isError = false) ∧
      r.state.automaton.symbols = s.automaton.symbols
        ++ (Automaton.sorted a.symbols).filter (fun x => x ∉ s.automaton.symbols) ∧
      r.state.automaton.states = s.automaton.states
        ++ (Automaton.sorted a.states).filter (fun q => q ∉ s.automaton.states) ∧
      r.state.automaton.initial = (a.initial <|> s.automaton.initial) ∧
      (∀ q, q ∈ r.state.automaton.finals ↔ q ∈ s.automaton.finals ∨ q ∈ a.finals) ∧
      r.state.automaton.transitions
        = s.automaton.transitions.filter (fun t => t.key ∉ a.transitions.map Transition.key)
          ++ a.sortedTransitions ∧
      (s.automaton = {} → r.output = [] ∧
        r.state.automaton.symbols.Perm a.symbols ∧ r.state.automaton.states.Perm a.states ∧
        r.state.automaton.initial = a.initial ∧ r.state.automaton.finals.Perm a.finals ∧
        r.state.automaton.transitions.Perm a.transitions) ∧
      (s.automaton = a → r.state.automaton.same a = true) := by
  obtain ⟨commands, hcommands, htexts⟩ :=
    Automaton.feedAll_listing (h.plainNames hplain) hmarker start
  have hecho := processAll_listing h hplain htexts hs
  rw [Automaton.redeclare_eq h hplain] at hecho
  have hautomaton : (processAll process s commands).state.automaton = s.automaton.overlay a :=
    hecho.automaton_eq
  refine ⟨commands, processAll process s commands, ?_, rfl, hecho.failure_eq, hecho.finished_eq, ?_⟩
  · rw [Automaton.lines_listingText (h.plainNames hplain), hcommands]
  rw [hautomaton]
  refine ⟨?_, rfl, rfl, rfl, ?_, rfl, ?_, ?_⟩
  · intro m hm
    have hmem : (m.severity, m.text)
        ∈ (s.automaton.repetitions a).map fun d => (d.severity, d.text) :=
      hecho.output_eq ▸ List.mem_map_of_mem hm
    obtain ⟨d, hd, hsame⟩ := List.mem_map.1 hmem
    have hseverity : m.severity = .warning :=
      (congrArg Prod.fst hsame).symm.trans (Automaton.severity_of_mem_repetitions hd)
    rw [Message.isError, hseverity]
    rfl
  · intro q
    by_cases hold : q ∈ s.automaton.finals <;> simp [Automaton.overlay, Automaton.mem_sorted, hold]
  · intro hempty
    have hsilent := hecho.output_eq
    rw [hempty, Automaton.repetitions_empty, List.map_nil, List.map_eq_nil_iff] at hsilent
    rw [hempty, Automaton.empty_overlay]
    exact ⟨hsilent, Automaton.sorted_perm _, Automaton.sorted_perm _, rfl, Automaton.sorted_perm _,
      Automaton.sortedTransitions_perm a⟩
  · intro hself
    rw [hself]
    exact Automaton.overlay_self a

/-- A listing replayed over an automaton that shares a state and a key with it. -/
theorem replay_listing_over_shared_state :
    let a : Automaton :=
      { symbols := ["0"], states := ["A", "B"], initial := some "B", finals := ["A"],
        transitions := [⟨"0", "A", "B"⟩] }
    let b : Automaton :=
      { symbols := ["1"], states := ["A"], initial := some "A", finals := ["A"],
        transitions := [⟨"0", "A", "A"⟩, ⟨"1", "A", "A"⟩] }
    let s := { Session.start Config.standard { home := [], files := [] } with automaton := b }
    ∃ commands r,
      ({ commentPrefix := "#" } : Assembler).feedAll 1
          ((Text.lines (Text.unifyNewlines (a.listingText.map String.toList).flatten)).map
            String.ofList)
        = .ok (commands, { commentPrefix := "#", pieces := [] }) ∧
      processAll process s commands = r ∧ (∀ m ∈ r.output, m.isError = false) ∧
      r.state.automaton.states = ["A", "B"] ∧ r.state.automaton.initial = some "B" ∧
      r.state.automaton.transitions = [⟨"1", "A", "A"⟩, ⟨"0", "A", "B"⟩] := by
  intro a b s
  have ha : a.Reachable :=
    ((((Automaton.reachable_empty.call (.addSymbols ["0"])).call (.addStates ["a", "b"])).call
      (.setInitialState "b")).call (.addFinalStates ["a"])).call (.addRows [("0", "a", "b")])
  have hplain : ∀ q ∈ a.states, IsPlainName q := by
    have hA : IsPlainName "A" := isPlainName_singleton (c := 'A') (Or.inl rfl)
    have hB : IsPlainName "B" := isPlainName_singleton (c := 'B') (Or.inl rfl)
    simpa [a] using ⟨hA, hB⟩
  have hmarker : ∀ line ∈ a.listing, ¬ "#".toList <:+: line.toList :=
    Automaton.not_infix_listing (c := '#') (ha.wellFormed.plainNames hplain) (by simp) (by decide)
      (by decide)
  obtain ⟨commands, r, hlines, hr, -, -, herror, -, hstates, hinitial, -, htransitions, -⟩ :=
    replay_listing ha.wellFormed hplain (s := s) rfl hmarker 1
  have hsorted : Automaton.sorted ["A", "B"] = ["A", "B"] :=
    List.mergeSort_of_pairwise (by decide)
  have hsingle : a.sortedTransitions = [⟨"0", "A", "B"⟩] := List.mergeSort_singleton _
  refine ⟨commands, r, hlines, hr, herror, hstates.trans ?_, hinitial, htransitions.trans ?_⟩
  · show b.states ++ (Automaton.sorted ["A", "B"]).filter (fun q => q ∉ b.states) = _
    rw [hsorted]
    decide
  · rw [hsingle]
    decide

end Session

end AutomatonShell
