import AutomatonShell.Proofs.ClosedForm
import AutomatonShell.Proofs.Cutting
import AutomatonShell.Proofs.Nesting
import AutomatonShell.Proofs.SpelledPaths
import AutomatonShell.Proofs.TaskFaults

/-!
# Restoring a snapshot is all or nothing

A LOAD of a snapshot builds a second automaton and puts it in the place of the first at the very
end, so whatever goes wrong before that leaves the first one alone.  Two things are shown: what the
second automaton is, read off the lists in the file, and that nothing in between is possible.

The first comes from the closed form of declarations, since a snapshot is declared from nothing by
calls none of which may be refused.  The second takes all the ways in which reading can fail.  On
arrays there are two that are no refusals.  An element that is a single code point beyond the last
one cannot be taken over (`exists_restore_broken_off`), and a version that is a span of time need
not be a number.  In both cases the command is broken off.

* `Listed.Restores` — what lists leave in an automaton.
* `restores_of_toAutomaton` — accepted arrays are restored from their lists.
* `BreaksOff` — why reading a file is broken off.
* **`restore_all_or_nothing`** — LOAD of a snapshot, in any session.
-/

namespace AutomatonShell

namespace Snapshot

open Archive Automaton

variable {entries : List (String × Entry)}

/-! ## What lists leave -/

/-- The first character of a text. -/
def firstOf (text : String) : String := String.ofList (text.toList.take 1)

/-- **What lists leave**: the states as they are listed, of each symbol its first character and none
of them twice, the initial state or else the first state, the final states, and for every symbol and
source the last row that has them in upper case. -/
structure Listed.Restores (l : Listed) (a : Automaton) : Prop where
  symbols : a.symbols = (l.symbols.map firstOf).eraseDups
  states : a.states = l.states
  initial : a.initial = (l.initial.head? <|> l.states.head?)
  finals : a.finals = l.finals.eraseDups
  transitions : a.transitions = latest (l.rows.map rowTransition)

/-- A symbol with a newline behind it declares its letter. -/
lemma lettersOf_of_isSpelled {x : String} {ch : Char} (h : IsSpelled [ch] x) :
    lettersOf x = [firstOf x] := by
  have hch := h.1 ch List.mem_cons_self
  have hupper : ch.toUpper = ch := Char.toUpper_eq_of_not_isLower (by simp [hch.isLower_eq_false])
  have hnewline : ('\n' : Char).isAlphanum = false := not_isAlphanum_newline
  rcases h.2 with htext | htext <;>
    simp [lettersOf, firstOf, htext, hch.isAlphanum, hupper, hnewline]

lemma flatMap_lettersOf {symbols : List String} (h : ∀ x ∈ symbols, ∃ ch, IsSpelled [ch] x) :
    symbols.flatMap lettersOf = symbols.map firstOf := by
  induction symbols with
  | nil => rfl
  | cons x rest ih =>
    obtain ⟨ch, hx⟩ := h x List.mem_cons_self
    rw [List.flatMap_cons, lettersOf_of_isSpelled hx, List.map_cons,
      ih fun y hy => h y (List.mem_cons_of_mem x hy)]
    rfl

lemma insertRows_automaton (d : Declarations) (rows : List (String × String × String)) :
    d.automaton.insertRows rows
      = (d.append { transitions := rows.map rowTransition }).automaton := by
  induction rows generalizing d with
  | nil => exact congrArg Declarations.automaton (Declarations.append_empty d).symm
  | cons row rest ih =>
    show (d.automaton.insertTransition (rowTransition row)).insertRows rest = _
    rw [Declarations.insertTransition_automaton, ih]
    simp [Declarations.append]

/-- What a call that is not refused has declared, if its names are canonical. -/
lemma automaton_of_call {d e : Declarations} {a : Automaton} {c : Call}
    (hclear : .clear ∉ c.items) (hitems : declarations c.items = e)
    (h : d.automaton.call c = (a, none)) : a = (d.append e).automaton := by
  rw [call_eq_runItems] at h
  rw [runItems_of_declares hclear h, hitems]

lemma flatMap_upper {names : List String} (h : ∀ q ∈ names, Text.upper q = q) :
    (names.flatMap fun q => [Text.upper q]) = names :=
  (List.flatMap_congr fun q hq => by rw [h q hq]).trans (List.flatMap_singleton' names)

/-- Everything that lists declare on the way. -/
def Listed.declared (l : Listed) : Declarations where
  symbols := l.symbols.map firstOf
  states := l.states ++ l.initial ++ l.finals
  initials := l.initial
  finals := l.finals
  transitions := l.rows.map rowTransition

/-- **What is declared from acceptable lists**, if nothing is refused. -/
lemma build_eq_ok {l : Listed} (hl : l.IsAcceptable) {table : NdArray} {a : Automaton}
    (hrows : rows table.labels = l.rows.map labelsOfRow)
    (h : build (l.symbols.map Label.text) (l.states.map Label.text) (l.initial.map Label.text)
      (l.finals.map Label.text) table = .ok a) : a = l.declared.automaton := by
  have hcanonical : ∀ q ∈ l.states, IsCanonicalName q :=
    fun q hq => exists_isSpelled_iff.1 (hl.states q hq)
  have hupper : ∀ q ∈ l.states, Text.upper q = q := fun q hq => (hcanonical q hq).2
  have hempty : (({} : Automaton).addSymbols l.symbols).states = [] := states_addSymbols _ _
  -- symbols and states, declared from nothing
  have hsymbols : ({} : Automaton).addSymbols l.symbols
      = ({ symbols := l.symbols.map firstOf } : Declarations).automaton := by
    have hletters := Declarations.addSymbols_automaton (d := {}) l.symbols
    rw [flatMap_lettersOf hl.symbols] at hletters
    exact hletters
  have hstates : (({} : Automaton).addSymbols l.symbols).withStates l.states
      = ({ symbols := l.symbols.map firstOf, states := l.states } : Declarations).automaton := by
    have hcall := addStates_eq (a := ({} : Automaton).addSymbols l.symbols) hl.states_nodup
      hcanonical (by simp [hempty])
    rw [hsymbols] at hcall ⊢
    refine (automaton_of_call (c := .addStates l.states) (e := { states := l.states })
      (by simp [Call.items]) ?_ hcall).trans (by simp [Declarations.append])
    simp [declarations, Call.items, List.flatMap_map, Item.declares, flatMap_upper hupper]
  -- final states and rows, whatever was declared before
  have hlast : ∀ {d : Declarations},
      (do let b ← declared (d.automaton.addFinalStates l.finals)
          declareRows b (rows (← labelsOf table))) = .ok a →
      a = (d.append { states := l.finals, finals := l.finals,
                      transitions := l.rows.map rowTransition }).automaton := by
    intro d h
    simp only [bind_eq_ok, declared_eq_ok_iff, labelsOf_eq_ok] at h
    obtain ⟨b, hb, labels, ⟨-, rfl⟩, h⟩ := h
    have hfinals := automaton_of_call (c := .addFinalStates l.finals)
      (e := { states := l.finals, finals := l.finals }) (by simp [Call.items]) (by
        simp [declarations, Call.items, List.flatMap_map, Item.declares,
          flatMap_upper fun q hq => hupper q (hl.finals q hq)]) hb
    obtain ⟨rs, hrs, -, rfl⟩ := declareRows_eq_ok.1 h
    obtain rfl : l.rows = rs := by
      refine Function.Injective.list_map ?_ (hrows.symm.trans hrs)
      rintro ⟨symbol, source, target⟩ ⟨symbol', source', target'⟩ h
      simpa [labelsOfRow] using h
    rw [hfinals, insertRows_automaton]
    simp [Declarations.append]
  simp only [build, filterMap_text?] at h
  rw [declareStates_labels (a := { states := l.states }) hl.states_nodup hcanonical _ hempty] at h
  rcases hinitial : l.initial with _ | ⟨q, rest⟩ <;> simp only [hinitial, hstates] at h
  · refine (hlast h).trans ?_
    simp [Declarations.append, Listed.declared, hinitial]
  · obtain rfl : rest = [] := by simpa [hinitial] using hl.initial_le
    have hmem : q ∈ l.states := hl.initial q (hinitial ▸ List.mem_cons_self)
    obtain ⟨b, hb, h⟩ : ∃ b, declared (Automaton.setInitialState _ q) = .ok b ∧ _ := bind_eq_ok.1 h
    have hset := automaton_of_call (c := .setInitialState q)
      (e := { states := [q], initials := [q] }) (by simp [Call.items]) (by
        simp [declarations, Call.items, Item.declares, hupper q hmem]) (declared_eq_ok hb)
    rw [hset] at h
    refine (hlast h).trans ?_
    simp [Declarations.append, Listed.declared, hinitial]

lemma restores_declared {l : Listed} (hl : l.IsAcceptable)
    (hstates : l.declared.automaton.states = l.states) : l.Restores l.declared.automaton := by
  refine ⟨rfl, hstates, ?_, rfl, rfl⟩
  show (l.initial.getLast? <|> (l.states ++ l.initial ++ l.finals).head?)
    = (l.initial.head? <|> l.states.head?)
  have hle := hl.initial_le
  rcases hq : l.initial with _ | ⟨q, _ | _⟩
  · -- without states there are no final ones either
    cases hp : l.states with
    | nil =>
      have hnone : l.finals = [] :=
        List.eq_nil_iff_forall_not_mem.2 fun q hq => by simpa [hp] using hl.finals q hq
      simp [hnone]
    | cons p rest => rfl
  · rfl
  · simp [hq] at hle

/-- **Accepted arrays are restored from their lists.** -/
theorem restores_of_toAutomaton {a : Automaton} (h : toAutomaton entries = .ok a) :
    ∃ l, Lists entries l ∧ l.IsAcceptable ∧ l.Restores a := by
  obtain ⟨l, hlists, hl⟩ := exists_isAcceptable h
  simp only [toAutomaton, bind_eq_ok, labelsOf_eq_ok] at h
  obtain ⟨-, -, symbols, hsymbols, states, hstates, initial, hinitial, finals, hfinals, table,
    htable, -, ⟨-, rfl⟩, -, ⟨-, rfl⟩, -, ⟨-, rfl⟩, -, ⟨-, rfl⟩, h⟩ := h
  have hrow : ∀ {name : String} {x : NdArray} {texts : List String},
      RowLists entries name texts → rowOf entries name = .ok x →
        x.labels = texts.map Label.text := by
    rintro name x texts ⟨y, hy, htexts⟩ hx
    rwa [Except.ok.inj (hx.symm.trans hy)]
  obtain ⟨y, hy, -, hrows⟩ := hlists.table
  obtain rfl := Except.ok.inj (htable.symm.trans hy)
  rw [hrow hlists.symbols hsymbols, hrow hlists.states hstates, hrow hlists.initial hinitial,
    hrow hlists.finals hfinals] at h
  split_ifs at h
  split at h
  · cases h
  · split at h
    · cases h
    · obtain ⟨b, hb, h⟩ := bind_eq_ok.1 h
      split_ifs at h with hsame
      obtain rfl := Except.ok.inj h
      obtain rfl := build_eq_ok hl hrows hb
      exact ⟨l, hlists, hl, restores_declared hl (text_injective.list_map hsame)⟩

/-! ## Files -/

lemma exists_of_mapM_error {α β ε : Type} {f : α → Except ε β} {xs : List α} {e : ε}
    (h : xs.mapM f = .error e) : ∃ x ∈ xs, f x = .error e := by
  induction xs with
  | nil => cases h
  | cons x rest ih =>
    rw [List.mapM_cons, bind_eq_error] at h
    rcases h with h | ⟨y, -, h⟩
    · exact ⟨x, List.mem_cons_self, h⟩
    · rcases bind_eq_error.1 h with h | ⟨ys, -, h⟩
      · obtain ⟨z, hz, hfz⟩ := ih h
        exact ⟨z, List.mem_cons_of_mem x hz, hfz⟩
      · cases h

/-- What taking the arrays out of a file can fail for, as far as it is about the file. -/
inductive IsFileError (path : String) : SnapshotError → Prop
  | notSnapshot : IsFileError path (.notSnapshot path)
  | missingEntries (names : List String) : IsFileError path (.missingEntries names)
  | corrupt : IsFileError path (.corrupt path)
  | unreadable (f : ReadFault) : IsFileError path (.unreadable f)

variable {library : Library} {path : String} {bytes : List UInt8}

lemma isFileError_of_orElseError {α : Type} {damage e : SnapshotError} {x : Archive.Reading α}
    (h : orElseError damage x = .error e) (hdamage : IsFileError path damage) :
    IsFileError path e := by
  rcases x with (_ | f) | y
  · rwa [← Except.error.inj h]
  · rw [← Except.error.inj h]
    exact .unreadable f
  · cases h

/-- Taking the arrays out of a file, no content is looked at yet. -/
lemma isFileError_of_entriesOf {e : SnapshotError} (h : entriesOf path bytes library = .error e) :
    IsFileError path e := by
  rw [entriesOf] at h
  rcases bind_eq_error.1 h with h | ⟨opened, -, h⟩
  · exact isFileError_of_orElseError h .notSnapshot
  · cases opened with
    | single =>
      rw [← Except.error.inj h]
      exact .notSnapshot
    | archive find? =>
      dsimp only at h
      split_ifs at h
      · rw [← Except.error.inj h]
        exact .missingEntries _
      · obtain ⟨name, -, h⟩ := exists_of_mapM_error h
        rcases bind_eq_error.1 h with h | ⟨_, -, h⟩
        · exact isFileError_of_orElseError h .corrupt
        · cases h

/-- **Why reading a file is broken off.**  The archive cannot be read for a reason of its own, or it
holds something that is no array, or an element of an array cannot be taken over, or the version is
a span of time that is no number. -/
def BreaksOff (path : String) (bytes : List UInt8) (library : Library) (fault : Fault) : Prop :=
  (∃ f, entriesOf path bytes library = .error (.unreadable f) ∧ fault = .archive f) ∨
    ∃ entries, entriesOf path bytes library = .ok entries ∧
      (¬ HasArrays entries ∨
        HasBeyond entries ∧ fault = .archive .codeOutOfRange ∨
        HasTimeVersion entries ∧ ∃ kind, fault = @Fault.snapshotEntry (.notNumber kind))

/-- The faults that errors of reading come out as. -/
inductive FaultOf : SnapshotError → Fault → Prop
  | notArray : FaultOf .notArray (@Fault.snapshotEntry .notArray)
  | notNumber (kind : String) :
    FaultOf (.notNumber kind) (@Fault.snapshotEntry (.notNumber kind))
  | unreadable (f : ReadFault) : FaultOf (.unreadable f) (.archive f)

lemma breaksOff_of_decode {e : SnapshotError} {fault : Fault}
    (h : decode path bytes library = .error e) (he : FaultOf e fault) :
    BreaksOff path bytes library fault := by
  rcases bind_eq_error.1 h with h | ⟨entries, hentries, h⟩
  · have hfile := isFileError_of_entriesOf h
    cases he with
    | notArray => cases hfile
    | notNumber => cases hfile
    | unreadable f => exact Or.inl ⟨f, h, rfl⟩
  · refine Or.inr ⟨entries, hentries, ?_⟩
    by_cases harrays : HasArrays entries
    · refine Or.inr ?_
      rcases onlyBlames_toAutomaton harrays e h with
        hrefusal | ⟨rfl, hbeyond⟩ | ⟨⟨kind, rfl⟩, htime⟩
      · cases he <;> exact hrefusal.elim
      · cases he
        exact Or.inl ⟨hbeyond, rfl⟩
      · cases he
        exact Or.inr ⟨htime, kind, rfl⟩
    · exact Or.inl harrays

end Snapshot

namespace Session

open Snapshot

/-- Replacing the automaton does not get into the way of the log. -/
lemma Appends.withAutomaton {s t : Session} (h : Appends s t) (a : Automaton) :
    Appends { s with automaton := a } { t with automaton := a } := by
  rcases h with rfl | ⟨log, lines, hlog, rfl⟩
  · exact Or.inl rfl
  · exact Or.inr ⟨log, lines, hlog, rfl⟩

/-- A file that is found has no NUL in its path. -/
lemma read_ne_nulInName {w : Workspace} {path : String}
    (h : w.pathExists (Path.ofString path).toString = .ok true) :
    w.read path ≠ .error .nulInName := by
  intro hread
  have hlocate : w.locate path = .error .nulInName := by
    rcases bind_eq_error.1 hread with h | ⟨place, -, h⟩
    · exact h
    · split_ifs at h
      · cases h
      all_goals split at h <;> cases h
  have hnul : Char.ofNat 0 ∈ path.toList := by simpa using locate_eq_nulInName.1 hlocate
  have hspelled : w.locate (Path.ofString path).toString = .error .nulInName :=
    locate_eq_nulInName.2 (by
      simpa using Path.mem_toString_ofString hnul (by decide) (by decide))
  rw [Workspace.pathExists, hspelled] at h
  cases h

/-- What LOAD of a snapshot comes to, in the session that has recorded it. -/
lemma restore_cases (s : Session) (file : String) (line : Option Int) :
    (∃ text, s.restore file line
        = { state := s.record (Message.error text line).render, output := [.error text line] }) ∨
      (∃ bytes a, s.workspace.read (s.target file) = .ok bytes ∧
        decode (s.target file) bytes s.config.library = .ok a ∧ s.restore file line
          = { state := Session.record { s with automaton := a } ("loaded " ++ file)
              output := [.info ("loaded " ++ file)] }) ∨
      ∃ bytes fault, s.workspace.read (s.target file) = .ok bytes ∧
        BreaksOff (s.target file) bytes s.config.library fault ∧
          s.restore file line = .stop s fault := by
  unfold restore snapshotAt Workspace.loadSnapshot
  rcases hexists : s.workspace.pathExists (Path.ofString (s.target file)).toString with e | _ | _
  · -- of all that is wrong with a path only its length shows here
    refine Or.inl ?_
    rw [Workspace.pathExists] at hexists
    split at hexists <;> cases hexists
    exact ⟨_, rfl⟩
  · exact Or.inl ⟨_, rfl⟩
  · rcases hread : s.workspace.read (s.target file) with e | bytes
    · refine Or.inl ?_
      cases e with
      | nulInName => exact absurd hread (read_ne_nulInName hexists)
      | _ => exact ⟨_, rfl⟩
    · dsimp only
      rcases hdecode : decode (s.target file) bytes s.config.library with e | a
      · cases e with
        | notArray =>
          exact Or.inr (Or.inr
            ⟨bytes, _, rfl, breaksOff_of_decode hdecode .notArray, rfl⟩)
        | notNumber kind =>
          exact Or.inr (Or.inr
            ⟨bytes, _, rfl, breaksOff_of_decode hdecode (.notNumber kind), rfl⟩)
        | unreadable f =>
          dsimp only
          split_ifs
          · exact Or.inl ⟨_, rfl⟩
          · exact Or.inr (Or.inr
              ⟨bytes, _, rfl, breaksOff_of_decode hdecode (.unreadable f), rfl⟩)
        | _ => exact Or.inl ⟨_, rfl⟩
      · exact Or.inr (Or.inl ⟨bytes, a, rfl, hdecode, rfl⟩)

/-- **LOAD of a snapshot is all or nothing.**  Either there is one error message and nothing has
changed but the log; or there is one message of success, the automaton is the one that the lists in
the file leave, whatever was there before, and nothing else has changed but the log; or reading the
file was broken off, and again nothing has changed but the log.  Arrays are never refused but by
naming a rule, for an element that cannot be taken over, or for a version that is no number. -/
theorem restore_all_or_nothing {c : Call} {t : Task} {file : String} (ht : c.task? = some t)
    (hfile : t.file? = some file) (hbinary : t.session.config.isBinary file = true) (bound : Nat) :
    let path := t.session.target file
    let library := t.session.config.library
    let reply := answerAt (bound + 1) c
    (reply.failure = none ∧ (∃ text, reply.output = [.error text t.line]) ∧
        Appends c.session reply.state ∨
      reply.failure = none ∧ reply.output = [.info ("loaded " ++ file)] ∧
        (∃ bytes entries l a, t.session.workspace.read path = .ok bytes ∧
          entriesOf path bytes library = .ok entries ∧ Lists entries l ∧ l.Restores a ∧
          Appends { c.session with automaton := a } reply.state) ∨
      reply.output = [] ∧ Appends c.session reply.state ∧
        ∃ bytes fault, t.session.workspace.read path = .ok bytes ∧ reply.failure = some fault ∧
          BreaksOff path bytes library fault) ∧
    ∀ entries, HasArrays entries → ∀ e, toAutomaton entries = .error e →
      IsRefusal e ∨ e = .unreadable .codeOutOfRange ∧ HasBeyond entries ∨
        (∃ kind, e = .notNumber kind) ∧ HasTimeVersion entries := by
  intro path library reply
  have hreply : reply = t.session.restore file t.line := by
    show answerAt (bound + 1) c = _
    rw [answerAt_of_task? ht, Task.run_of_file? hfile, load, if_pos hbinary]
  have hrecorded := Call.appends_of_task? ht
  refine ⟨?_, fun entries harrays => onlyBlames_toAutomaton harrays⟩
  rw [hreply]
  rcases restore_cases t.session file t.line with ⟨text, h⟩ | ⟨bytes, a, hread, hdecode, h⟩ |
    ⟨bytes, fault, hread, hbreaks, h⟩ <;> rw [h]
  · exact Or.inl ⟨rfl, ⟨text, rfl⟩, hrecorded.trans (appends_record _ _)⟩
  · obtain ⟨entries, hentries, ha⟩ := bind_eq_ok.1 hdecode
    obtain ⟨l, hlists, -, hrestores⟩ := restores_of_toAutomaton ha
    exact Or.inr (Or.inl ⟨rfl, rfl, bytes, entries, l, a, hread, hentries, hlists, hrestores,
      (hrecorded.withAutomaton a).trans (appends_record _ _)⟩)
  · exact Or.inr (Or.inr ⟨rfl, hrecorded, bytes, fault, hread, rfl, hbreaks⟩)

/-- A file of the right name that is no snapshot, named in the third line of a script. -/
theorem restore_all_or_nothing_of_text :
    let s : Session := { Session.start Config.standard
      { home := ["w"], files := [(["w", "m.fsm"], [0x53, 0x54])] } with
      automaton := { symbols := ["0"], states := ["OLD"], initial := some "OLD" } }
    let reply := answerAt 1 ⟨s, .command "load m.fsm;" (some 3)⟩
    reply.failure = none ∧ Appends s reply.state ∧
      reply.output = [.error "cannot load m.fsm: not a snapshot file: m.fsm" (some 3)] := by
  intro s reply
  have houtput : reply.output
      = [.error "cannot load m.fsm: not a snapshot file: m.fsm" (some 3)] := by decide +kernel
  rcases (restore_all_or_nothing (c := ⟨s, .command "load m.fsm;" (some 3)⟩) rfl
    rfl (by decide +kernel) 0).1 with ⟨hfailure, -, happends⟩ | ⟨-, hinfo, -⟩ | ⟨hnone, -, -⟩
  · exact ⟨hfailure, happends, houtput⟩
  · exact absurd (houtput.symm.trans hinfo) (by simp [Message.info, Message.error])
  · exact absurd (houtput.symm.trans hnone) (by simp)

/-- **The content of an array can break a LOAD off.**  Here the one state is a code point beyond the
last one. -/
theorem exists_restore_broken_off :
    let states : Archive.NdArray := ⟨.textOf 1, [1], [.garbled [0x110000]]⟩
    let entries := (⟨[], [], [], [], []⟩ : Listed).asEntries.map fun (name, entry) =>
      (name, if name = "states" then .array states else entry)
    HasArrays entries ∧ ∃ e, toAutomaton entries = .error e ∧ ¬ IsRefusal e := by
  intro states entries
  refine ⟨fun name hname => ?_, .unreadable .codeOutOfRange, by decide +kernel, id⟩
  fin_cases hname <;> exact ⟨_, rfl⟩

end Session

end AutomatonShell
