import AutomatonShell.Proofs.ListingReplay

/-!
# Groups of transitions

A TRANSITIONS command with several groups checks each group against the automaton and a batch of
what the groups before it declared, and inserts the batch at the end.  Commands with one group each
insert at once.  The two agree because **staging commutes with inserting**: an automaton with a
batch inserted looks up a key the way the automaton and the batch do together
(`existing?_withBatch`), and a transition put behind the batch is a transition inserted behind it
(`withBatch_append_singleton`).  All that is asked of the batch is that it could be inserted as it
stands (`Automaton.IsStaged`), and every group keeps this.

* `Automaton.withBatch` — the automaton with a batch inserted.
* **`Automaton.stageGroup_cases`** — what a group can do.
* `Automaton.stageGroup_withBatch` — the step: one group staged, and declared by itself.
* `Automaton.forEach_stageGroup_eq`, `declareTransitions_intercalate` — all groups.
* **`Session.process_transitions_groups`** — the commands themselves, from their texts.
-/

namespace AutomatonShell

namespace Automaton

variable {a : Automaton}

/-! ## The automaton below a batch -/

/-- Whether a batch can be inserted as it stands: it has a key only once, and refers to nothing
undeclared. -/
structure IsStaged (a : Automaton) (batch : List Transition) : Prop where
  keys_nodup : (batch.map Transition.key).Nodup
  declares : ∀ t ∈ batch, a.Declares t

/-- The automaton with a batch inserted. -/
def withBatch (a : Automaton) (batch : List Transition) : Automaton := (a.addTransitions batch).1

lemma isStaged_nil (a : Automaton) : a.IsStaged [] := ⟨by simp, by simp⟩

lemma withBatch_eq {batch : List Transition} (h : a.IsStaged batch) :
    a.withBatch batch = { a with
      transitions :=
        (a.transitions.filter fun t => t.key ∉ batch.map Transition.key) ++ batch } := by
  rw [withBatch, addTransitions_eq h.keys_nodup h.declares]

/-- A transition put behind the others of a batch. -/
lemma IsStaged.append_singleton {batch : List Transition} (h : a.IsStaged batch) {t : Transition}
    (ht : a.Declares t) : a.IsStaged (batch.filter (·.key != t.key) ++ [t]) := by
  refine ⟨keys_insertTransition_nodup h.keys_nodup t, ?_⟩
  intro u hu
  rcases List.mem_append.1 hu with hu | hu
  · exact h.declares u (List.mem_filter.1 hu).1
  · rw [List.mem_singleton.1 hu]
    exact ht

/-- A transition put behind the batch is a transition inserted behind it. -/
lemma withBatch_append_singleton {batch : List Transition} (h : a.IsStaged batch) {t : Transition}
    (ht : a.Declares t) :
    a.withBatch (batch.filter (·.key != t.key) ++ [t])
      = (a.withBatch batch).insertTransition t := by
  have hkeys : ∀ k : String × String,
      k ∈ (batch.filter (·.key != t.key) ++ [t]).map Transition.key
        ↔ k ∈ batch.map Transition.key ∨ k = t.key := by
    intro k
    by_cases hk : k = t.key
    · simp [hk]
    · have hne : ∀ u : Transition, u.key = k → u.key ≠ t.key := fun u hu => hu ▸ hk
      simp only [List.map_append, List.map_cons, List.map_nil, List.mem_append, List.mem_map,
        List.mem_filter, bne_iff_ne, List.mem_singleton, hk, or_false]
      exact ⟨fun ⟨u, hu, he⟩ => ⟨u, hu.1, he⟩, fun ⟨u, hu, he⟩ => ⟨u, ⟨hu, hne u he⟩, he⟩⟩
  have hfilter : (a.transitions.filter fun u =>
        u.key ∉ (batch.filter (·.key != t.key) ++ [t]).map Transition.key)
      = (a.transitions.filter fun u => u.key ∉ batch.map Transition.key).filter
          (·.key != t.key) := by
    rw [List.filter_filter]
    refine List.filter_congr fun u _ => ?_
    by_cases hu : u.key = t.key
    · simp [hu]
    · have hne : (u.key != t.key) = true := by simpa using hu
      simp only [hkeys, hu, or_false, hne, Bool.true_and]
  rw [withBatch_eq h, withBatch_eq (h.append_singleton ht)]
  simp only [insertTransition, hfilter, List.filter_append, List.append_assoc]

/-- With a batch inserted, a key leads where it leads in the batch, or else in the automaton. -/
lemma existing?_withBatch {batch : List Transition} (h : a.IsStaged batch) {t : Transition}
    (ht : (Text.upper t.symbol, Text.upper t.source) = t.key) :
    (a.withBatch batch).existing? [] t = a.existing? batch t := by
  have hlookup : (a.withBatch batch).existing? [] t
      = (((a.transitions.filter fun u => u.key ∉ batch.map Transition.key).find? (·.key == t.key))
        <|> batch.find? (·.key == t.key)) := by
    simp only [existing?, transitionFor, ht, withBatch_eq h, List.find?_nil, List.find?_append,
      Option.orElse_eq_orElse, Option.orElse_eq_or, Option.none_or]
  rw [hlookup, existing?, transitionFor, ht]
  by_cases hmem : t.key ∈ batch.map Transition.key
  · -- the automaton has lost its transitions with keys of the batch
    obtain ⟨u, hu, hkey⟩ := List.mem_map.1 hmem
    have hlost : ((a.transitions.filter fun v => v.key ∉ batch.map Transition.key).find?
        (·.key == t.key)) = none := by
      refine List.find?_eq_none.2 fun v hv he => ?_
      rw [beq_iff_eq] at he
      exact of_decide_eq_true (List.mem_filter.1 hv).2 (he ▸ hmem)
    obtain ⟨v, hv⟩ : ∃ v, batch.find? (·.key == t.key) = some v :=
      Option.isSome_iff_exists.1 (List.find?_isSome.2 ⟨u, hu, by simpa using hkey⟩)
    rw [hlost, hv]
    rfl
  · -- the batch says nothing about the key, and its insertion has moved nothing with it
    have hbatch : batch.find? (·.key == t.key) = none := by
      refine List.find?_eq_none.2 fun v hv he => ?_
      rw [beq_iff_eq] at he
      exact hmem (he ▸ List.mem_map_of_mem hv)
    have hkept : (a.transitions.filter fun v => v.key ∉ batch.map Transition.key).find?
        (·.key == t.key) = a.transitions.find? (·.key == t.key) := by
      rw [List.find?_filter]
      refine List.find?_congr fun v _ => ?_
      by_cases hv : v.key = t.key <;> simp [hv, hmem]
    rw [hbatch, hkept]
    simp

/-! ## One group -/

/-- **Names that pass the checks describe a transition** between declared names, and it is found by
its own key. -/
lemma of?_of_checks {symbol source target : String} (hsymbol : isSymbol symbol = true)
    (hdeclared : a.hasSymbol symbol = true) (hstates : a.undeclaredStates source target = []) :
    ∃ t, Transition.of? symbol source target = .ok t ∧ a.Declares t ∧
      (Text.upper t.symbol, Text.upper t.source) = t.key := by
  simp only [undeclaredStates, List.filter_eq_nil_iff, List.forall_mem_cons,
    Bool.or_eq_true, Bool.not_eq_true', not_or, Bool.not_eq_false] at hstates
  obtain ⟨⟨hsource, hsource'⟩, ⟨htarget, htarget'⟩, -⟩ := hstates
  refine ⟨⟨Text.upper symbol, Text.upper source, Text.upper target⟩, ?_, ?_, ?_⟩
  · rw [Transition.of?, canonicalSymbol_of_isSymbol hsymbol, canonicalName_of_isStateName hsource,
      canonicalName_of_isStateName htarget]
    rfl
  · exact ⟨List.contains_iff_mem.1 hdeclared, List.contains_iff_mem.1 hsource',
      List.contains_iff_mem.1 htarget'⟩
  · exact Prod.ext (isStateName_upper (isStateName_of_isSymbol hsymbol)).2
      (isStateName_upper hsource).2

/-- **What a group can do**: say something and nothing else, or stage a transition between declared
names.  Which of the two depends on the declared names only, not on the transitions. -/
lemma stageGroup_cases (a : Automaton) (group : List Char) :
    (∃ ds, ∀ b : Automaton, b.symbols = a.symbols → b.states = a.states → ∀ batch,
        b.stageGroup batch group = { state := batch, output := ds }) ∨
      ∃ t : Transition, a.Declares t ∧ (Text.upper t.symbol, Text.upper t.source) = t.key ∧
        ∀ b : Automaton, b.symbols = a.symbols → b.states = a.states → ∀ batch,
          b.stageGroup batch group = b.stage batch t := by
  simp only [stageGroup]
  generalize (Text.words group).map (fun word => stripPunctuation (String.ofList word)) = names
  -- by the number of words
  rcases names with _ | ⟨symbol, _ | ⟨source, _ | ⟨target, _ | ⟨extra, rest⟩⟩⟩⟩
  · exact Or.inl ⟨[], fun b _ _ batch => rfl⟩
  · exact Or.inl ⟨_, fun b _ _ batch => rfl⟩
  · exact Or.inl ⟨_, fun b _ _ batch => rfl⟩
  · have hsymbolOf : ∀ b : Automaton, b.symbols = a.symbols →
        b.hasSymbol symbol = a.hasSymbol symbol := fun b hb => by rw [hasSymbol, hasSymbol, hb]
    have hstatesOf : ∀ b : Automaton, b.states = a.states →
        b.undeclaredStates source target = a.undeclaredStates source target := by
      intro b hb
      simp only [undeclaredStates, hasState, hb]
    by_cases hsymbol : (!isSymbol symbol || !a.hasSymbol symbol) = true
    · refine Or.inl ⟨[.undeclaredSymbol symbol], fun b hb _ batch => ?_⟩
      simp only [hsymbolOf b hb, if_pos hsymbol]
    · cases hstates : a.undeclaredStates source target with
      | cons name rest =>
        refine Or.inl ⟨(name :: rest).map .undeclaredState, fun b hb hb' batch => ?_⟩
        simp only [hsymbolOf b hb, if_neg hsymbol, hstatesOf b hb', hstates]
      | nil =>
        have hrule := hsymbol
        simp only [Bool.or_eq_true, Bool.not_eq_true', not_or, Bool.not_eq_false] at hrule
        obtain ⟨t, hof, hdeclares, hkey⟩ := of?_of_checks hrule.1 hrule.2 hstates
        refine Or.inr ⟨t, hdeclares, hkey, fun b hb hb' batch => ?_⟩
        simp only [hsymbolOf b hb, if_neg hsymbol, hstatesOf b hb', hstates, hof]
  · exact Or.inl ⟨_, fun b _ _ batch => rfl⟩

/-- **A group staged in a batch is a command of its own**, in the automaton with the batch
inserted. -/
lemma stageGroup_withBatch {batch : List Transition} (h : a.IsStaged batch) {group : List Char}
    (hcomma : ',' ∉ group) :
    (a.stageGroup batch group).failure = none ∧ a.IsStaged (a.stageGroup batch group).state ∧
      (a.withBatch batch).declareTransitions group
        = { state := a.withBatch (a.stageGroup batch group).state
            output := (a.stageGroup batch group).output } := by
  have hsingle : ∀ b : Automaton, Outcome.forEach b.stageGroup [] (group.splitOn ',')
      = b.stageGroup [] group := by
    intro b
    rw [List.splitOn_eq_singleton hcomma]
    exact Outcome.andThen_done _
  have hsymbols : (a.withBatch batch).symbols = a.symbols := by rw [withBatch_eq h]
  have hstates : (a.withBatch batch).states = a.states := by rw [withBatch_eq h]
  rcases stageGroup_cases a group with ⟨ds, hgroup⟩ | ⟨t, hdeclares, hkey, hgroup⟩
  · rw [declareTransitions, hsingle, hgroup a rfl rfl, hgroup _ hsymbols hstates]
    exact ⟨rfl, h, rfl⟩
  · rw [declareTransitions, hsingle, hgroup a rfl rfl, hgroup _ hsymbols hstates]
    refine ⟨rfl, h.append_singleton hdeclares, ?_⟩
    have hnone : (a.withBatch batch).undeclared? t = none := by
      rw [undeclared?_eq_none, hsymbols, hstates]
      exact hdeclares
    have hadd : (a.withBatch batch).addTransitions [t]
        = ((a.withBatch batch).insertTransition t, none) := by
      rw [addTransitions, hnone]
      rfl
    simp only [stage, List.filter_nil, List.nil_append, existing?_withBatch h hkey, hadd,
      withBatch_append_singleton h hdeclares]

/-! ## All groups -/

/-- **Staging groups and inserting them together is declaring them one at a time**, by induction on
the groups.  The automaton below is the one with the batch inserted. -/
theorem forEach_stageGroup_eq {groups : List (List Char)} (hcomma : ∀ g ∈ groups, ',' ∉ g)
    {batch : List Transition} (h : a.IsStaged batch) :
    (Outcome.forEach a.stageGroup batch groups).failure = none ∧
      a.IsStaged (Outcome.forEach a.stageGroup batch groups).state ∧
      Outcome.forEach declareTransitions (a.withBatch batch) groups
        = { state := a.withBatch (Outcome.forEach a.stageGroup batch groups).state
            output := (Outcome.forEach a.stageGroup batch groups).output } := by
  induction groups generalizing batch with
  | nil => exact ⟨rfl, h, rfl⟩
  | cons g rest ih =>
    obtain ⟨hfailure, hstaged, hsingle⟩ := stageGroup_withBatch h (hcomma g List.mem_cons_self)
    obtain ⟨hfailure', hstaged', hrest⟩ :=
      ih (fun k hk => hcomma k (List.mem_cons_of_mem g hk)) hstaged
    simp only [Outcome.forEach, Outcome.andThen_of_failure_eq_none hfailure, hsingle]
    refine ⟨hfailure', hstaged', ?_⟩
    simp only [Outcome.andThen, hrest]

/-- **TRANSITIONS declares its groups one at a time.** -/
theorem declareTransitions_intercalate (a : Automaton) {groups : List (List Char)}
    (hcomma : ∀ g ∈ groups, ',' ∉ g) :
    a.declareTransitions ([','].intercalate groups)
      = Outcome.forEach declareTransitions a groups ∧
    (Outcome.forEach declareTransitions a groups).failure = none := by
  have hgroups : Outcome.forEach a.stageGroup [] (([','].intercalate groups).splitOn ',')
      = Outcome.forEach a.stageGroup [] groups := by
    by_cases hne : groups = []
    · -- an empty body has one group, which holds no words
      subst hne
      rfl
    · rw [List.splitOn_intercalate ',' hcomma hne]
  obtain ⟨hfailure, hstaged, hsingle⟩ := forEach_stageGroup_eq hcomma (isStaged_nil a)
  have hnil : a.withBatch [] = a := rfl
  rw [hnil] at hsingle
  refine ⟨?_, by rw [hsingle]⟩
  rw [declareTransitions, hgroups, hsingle]
  simp only [hfailure, withBatch_eq hstaged, addTransitions_eq hstaged.keys_nodup hstaged.declares]

lemma stageGroup_strip (a : Automaton) (batch : List Transition) (group : List Char) :
    a.stageGroup batch (Text.strip group) = a.stageGroup batch group := by
  rw [stageGroup, stageGroup, Text.words_strip, Text.strip_strip]

lemma declareTransitions_strip (a : Automaton) (body : List Char) :
    a.declareTransitions (Text.strip body) = a.declareTransitions body := by
  have hgroups : ∀ groups : List (List Char),
      Outcome.forEach a.stageGroup [] (groups.map Text.strip)
        = Outcome.forEach a.stageGroup [] groups := by
    intro groups
    generalize ([] : List Transition) = batch
    induction groups generalizing batch with
    | nil => rfl
    | cons g rest ih =>
      simp only [List.map_cons, Outcome.forEach, stageGroup_strip]
      exact congrArg _ (funext fun next => ih next)
  rw [declareTransitions, declareTransitions, ← hgroups, Text.map_strip_splitOn rfl, hgroups]

end Automaton

/-! ## Commands -/

namespace Session

variable {s : Session}

/-- A TRANSITIONS command, from its text to what it declares. -/
lemma process_transitions (hs : s.finished = false) {body : String} (hsep : ';' ∉ body.toList)
    (line : Option Int) : ∃ entry : String,
      s.process ("TRANSITIONS " ++ body) line
        = (s.record entry).declare line (s.automaton.declareTransitions body.toList) := by
  have htext : ("TRANSITIONS " ++ body).toList = commandText .transitions body.toList := by
    rw [String.toList_append]
    rfl
  obtain ⟨entry, hprocess⟩ := process_keyword hs .transitions hsep line
  rw [← htext, String.ofList_toList] at hprocess
  have hdeclare := @perform_eq_declare (s.record entry) .transitions (by decide)
    (load (processAt maxNesting)) ((Text.words body.toList).map String.ofList)
    (Text.strip body.toList) line
  refine ⟨entry, hprocess.trans (hdeclare.trans ?_)⟩
  rw [Automaton.define, Automaton.declareTransitions_strip, record_automaton]

/-- TRANSITIONS commands processed one after the other declare one after the other. -/
lemma forEach_process_transitions (hs : s.finished = false) {groups : List String}
    (hsep : ∀ g ∈ groups, ';' ∉ g.toList)
    (hd : (Outcome.forEach Automaton.declareTransitions s.automaton
      (groups.map String.toList)).failure = none) (line : Option Int) :
    (Outcome.forEach (fun t g => process t ("TRANSITIONS " ++ g) line) s groups).failure = none ∧
      (Outcome.forEach (fun t g => process t ("TRANSITIONS " ++ g) line) s groups).state.automaton
        = (Outcome.forEach Automaton.declareTransitions s.automaton
            (groups.map String.toList)).state ∧
      (Outcome.forEach (fun t g => process t ("TRANSITIONS " ++ g) line) s groups).output
        = (Outcome.forEach Automaton.declareTransitions s.automaton
            (groups.map String.toList)).output.map (·.message line) := by
  induction groups generalizing s with
  | nil => exact ⟨rfl, rfl, rfl⟩
  | cons g rest ih =>
    rw [List.map_cons, Outcome.forEach, Outcome.andThen_failure_eq_none] at hd
    obtain ⟨hfirst, hrest⟩ := hd
    obtain ⟨entry, hprocess⟩ := process_transitions hs (hsep g List.mem_cons_self) line
    obtain ⟨hfailure, hfinished, houtput⟩ := declare_eq hfirst (s.record entry) line
    have hautomaton := automaton_declare (s.record entry) line
      (s.automaton.declareTransitions g.toList)
    have ih := ih (s := (s.process ("TRANSITIONS " ++ g) line).state)
      (by rw [hprocess, hfinished]; exact hs)
      (fun k hk => hsep k (List.mem_cons_of_mem g hk))
      (by rwa [hprocess, hautomaton])
    rw [hprocess, hautomaton] at ih
    simp only [List.map_cons, Outcome.forEach, hprocess,
      Outcome.andThen_of_failure_eq_none hfailure, Outcome.andThen_of_failure_eq_none hfirst,
      houtput, List.map_append, ih, and_self]

lemma process_of_finished (hs : s.finished = true) (text : String) (line : Option Int) :
    s.process text line = .done s := by
  rw [process_eq, processAt, processWith, if_pos hs]

/-- **A TRANSITIONS command with several groups** leaves the automaton and says the messages that
commands with one group each leave and say, processed one after the other with the same line. -/
theorem process_transitions_groups (s : Session) (line : Option Int) {groups : List String}
    (hplain : ∀ g ∈ groups, ',' ∉ g.toList ∧ ';' ∉ g.toList) :
    let whole := s.process ("TRANSITIONS " ++ String.intercalate "," groups) line
    let parts := Outcome.forEach (fun t g => process t ("TRANSITIONS " ++ g) line) s groups
    whole.failure = none ∧ parts.failure = none ∧
      whole.state.automaton = parts.state.automaton ∧ whole.output = parts.output := by
  intro whole parts
  cases hs : s.finished with
  | true =>
    have hwhole : whole = .done s := process_of_finished hs _ line
    have hparts : parts = .done s := by
      show Outcome.forEach _ s groups = _
      clear hplain whole parts hwhole
      induction groups with
      | nil => rfl
      | cons g rest ih => rw [Outcome.forEach, process_of_finished hs, Outcome.done_andThen, ih]
    rw [hwhole, hparts]
    exact ⟨rfl, rfl, rfl, rfl⟩
  | false =>
    have hcomma : ∀ g ∈ groups.map String.toList, ',' ∉ g := by
      intro g hg
      obtain ⟨text, htext, rfl⟩ := List.mem_map.1 hg
      exact (hplain text htext).1
    have hbody : (String.intercalate "," groups).toList
        = [','].intercalate (groups.map String.toList) := String.toList_intercalate
    have hsep : ';' ∉ (String.intercalate "," groups).toList := by
      intro hmem
      rw [hbody] at hmem
      rcases mem_intercalate hmem with hmem | ⟨g, hg, hmem⟩
      · exact absurd hmem (by decide)
      · obtain ⟨text, htext, rfl⟩ := List.mem_map.1 hg
        exact (hplain text htext).2 hmem
    obtain ⟨heq, hd⟩ := s.automaton.declareTransitions_intercalate hcomma
    obtain ⟨entry, hprocess⟩ := process_transitions hs hsep line
    rw [hbody, heq] at hprocess
    obtain ⟨hfailure, -, houtput⟩ := declare_eq hd (s.record entry) line
    obtain ⟨hfailure', hautomaton', houtput'⟩ :=
      forEach_process_transitions hs (fun g hg => (hplain g hg).2) hd line
    refine ⟨?_, hfailure', ?_, ?_⟩
    · exact (congrArg Outcome.failure hprocess).trans hfailure
    · rw [hautomaton', ← automaton_declare (s.record entry) line]
      exact congrArg (·.state.automaton) hprocess
    · rw [houtput', ← houtput]
      exact congrArg Outcome.output hprocess

/-- Groups of every kind: two that compete for a key, one that is repeated, one with a word too
many, one that is empty and one with a state that is not declared. -/
theorem process_transitions_groups_of_conflicts :
    let a : Automaton :=
      { symbols := ["0"], states := ["A", "B"], initial := some "A",
        transitions := [⟨"0", "A", "A"⟩, ⟨"0", "B", "A"⟩] }
    let s := { Session.start Config.standard { home := [] } with automaton := a }
    let groups := ["0 a b", " 0 A\ta", "0 a a", "0 a b c", " ", "0 b x"]
    let whole := s.process ("TRANSITIONS " ++ String.intercalate "," groups) (some 7)
    let parts := Outcome.forEach (fun t g => process t ("TRANSITIONS " ++ g) (some 7)) s groups
    whole.state.automaton = parts.state.automaton ∧ whole.output = parts.output ∧
      whole.state.automaton.transitions = [⟨"0", "B", "A"⟩, ⟨"0", "A", "A"⟩] ∧
      whole.output.length = 5 := by
  intro a s groups whole parts
  have hplain : ∀ g ∈ groups, ',' ∉ g.toList ∧ ';' ∉ g.toList := by decide
  obtain ⟨-, -, hautomaton, houtput⟩ := process_transitions_groups s (some 7) hplain
  exact ⟨hautomaton, houtput, by decide +kernel, by decide +kernel⟩

end Session

end AutomatonShell
