import AutomatonShell.Proofs.LoggedLines
import AutomatonShell.Proofs.SideBySide
import AutomatonShell.Proofs.TaskFaults

/-!
# What the log holds

Two sessions that differ in what some files hold, and in how far the logs in these files have got.
Commands write files without reading them, and a log is only ever written to.  So nothing but LOAD
can tell the two sessions apart, and it can only if its path leads to one of these files or past
it.

* `Workspace.Alike`, `Workspace.OnTheWay` — files that differ at some places, and the places that a
  path leads to and past.
* `Alike.create`, `Alike.loadSnapshot` and their siblings — files written and read.
* `Session.Alike`, `Task.Passes` — sessions that differ in some files, and the places that a LOAD
  looks at.
* **`answer_alike`** — one request that replays no script.
-/

namespace AutomatonShell

/-! ## Files -/

namespace Workspace

/-- Files that are the same but at some places. -/
structure Alike (L : Set Location) (w w' : Workspace) : Prop where
  home : w'.home = w.home
  folders : w'.folders = w.folders
  content : ∀ place ∉ L, w'.get? place = w.get? place

/-- Where a path starts. -/
def startOf (w : Workspace) (path : String) : Location :=
  if path.toList.head? = some '/' then [] else w.home

/-- A place that a path leads to or past. -/
def OnTheWay (w : Workspace) (path : String) (place : Location) : Prop :=
  ∃ n, place = Location.follow (w.startOf path) ((Path.namesOf path).take n)

variable {L : Set Location} {w w' : Workspace} {path : String}

lemma Alike.refl (L : Set Location) (w : Workspace) : Alike L w w := ⟨rfl, rfl, fun _ _ => rfl⟩

lemma Alike.isFolder (h : Alike L w w') (place : Location) :
    w'.isFolder place = w.isFolder place := by
  rw [Workspace.isFolder, Workspace.isFolder, h.home, h.folders]

lemma Alike.put (h : Alike L w w') {place : Location} {content content' : List UInt8}
    (hcontent : place ∉ L → content' = content) :
    Alike L (w.put place content) (w'.put place content') := by
  refine ⟨h.home, h.folders, fun other hother => ?_⟩
  by_cases he : other = place
  · subst he
    rw [get?_put_self, get?_put_self, hcontent hother]
  · rw [get?_put_of_ne _ _ he, get?_put_of_ne _ _ he, h.content other hother]

lemma Alike.put_same (h : Alike L w w') (place : Location) (content : List UInt8) :
    Alike L (w.put place content) (w'.put place content) := h.put fun _ => rfl

/-- A file of one of the places written in one of the two. -/
lemma Alike.put_left (h : Alike L w w') {place : Location} (hplace : place ∈ L)
    (content : List UInt8) : Alike L (w.put place content) w' := by
  refine ⟨h.home, h.folders, fun other hother => ?_⟩
  rw [h.content other hother, get?_put_of_ne]
  rintro rfl
  exact hother hplace

/-- Lines that one of two logs gets, in a file of one of the places. -/
lemma Alike.putInto_left (h : Alike L w w') {log : OpenLog} (hplace : log.place ∈ L)
    (lines : List String) : Alike L (log.putInto w lines) w' := by
  rw [OpenLog.putInto]
  split_ifs
  · exact h
  · exact h.put_left hplace _

/-- Names that lead somewhere lead to the same place. -/
lemma Alike.descend (h : Alike L w w') (here : Location) (names : List String) :
    w'.descend here names = w.descend here names ∨
      ∃ e f, w.descend here names = .error e ∧ w'.descend here names = .error f := by
  induction names generalizing here with
  | nil => exact Or.inl rfl
  | cons name rest ih =>
    rw [Workspace.descend, Workspace.descend, h.isFolder]
    split_ifs
    · exact Or.inl rfl
    · exact ih _
    all_goals exact Or.inr ⟨_, _, rfl, rfl⟩

/-- Names that lead past none of the places lead to the same place, or nowhere for the same
reason. -/
lemma Alike.descend_eq (h : Alike L w w') {here : Location} {names : List String}
    (hway : ∀ n, Location.follow here (names.take n) ∉ L) :
    w'.descend here names = w.descend here names := by
  induction names generalizing here with
  | nil => rfl
  | cons name rest ih =>
    have hhere := hway 0
    rw [List.take_zero, Location.follow, List.foldl_nil] at hhere
    rw [Workspace.descend, Workspace.descend, h.isFolder, h.content here hhere,
      ih fun n => hway (n + 1)]

lemma descend_eq_ok {here place : Location} {names : List String}
    (h : w.descend here names = .ok place) : place = Location.follow here names := by
  induction names generalizing here with
  | nil => exact (Except.ok.inj h).symm
  | cons name rest ih =>
    rw [Workspace.descend] at h
    split_ifs at h
    exact ih h

lemma Alike.locate (h : Alike L w w') (path : String) :
    w'.locate path = w.locate path ∨
      ∃ e f, w.locate path = .error e ∧ w'.locate path = .error f := by
  rw [Workspace.locate, Workspace.locate, h.home]
  split_ifs
  · exact Or.inl rfl
  · exact Or.inl rfl
  · exact Or.inl rfl
  · exact h.descend _ _
  · exact h.descend _ _

section

variable (h : Alike L w w') (hway : ∀ place, w.OnTheWay path place → place ∉ L)

include h hway

lemma Alike.locate_eq : w'.locate path = w.locate path := by
  have hstart : (if path.toList.head? = some '/' then [] else w'.home) = w.startOf path := by
    rw [startOf, h.home]
  rw [Workspace.locate, Workspace.locate, hstart, ← startOf,
    h.descend_eq fun n => hway _ ⟨n, rfl⟩]

lemma Alike.get?_eq {place : Location} (hplace : w.locate path = .ok place) :
    w'.get? place = w.get? place := by
  refine h.content place (hway place ⟨(Path.namesOf path).length, ?_⟩)
  rw [Workspace.locate] at hplace
  split_ifs at hplace with _ _ _ hroot
  all_goals
    rw [List.take_length, startOf]
    simpa [hroot] using descend_eq_ok hplace

lemma Alike.read_eq : w'.read path = w.read path := by
  rw [Workspace.read, Workspace.read, h.locate_eq hway]
  cases hplace : w.locate path with
  | error e => rfl
  | ok place =>
    simp only [bind, Except.bind, h.isFolder, h.get?_eq hway hplace]

lemma Alike.pathExists_eq : w'.pathExists path = w.pathExists path := by
  rw [Workspace.pathExists, Workspace.pathExists, h.locate_eq hway]
  cases hplace : w.locate path with
  | error e => cases e <;> rfl
  | ok place => simp only [h.isFolder, h.get?_eq hway hplace]

lemma Alike.readText_eq (encoding : String) (codec? : Option Text.Codec) :
    w'.readText encoding path codec? = w.readText encoding path codec? := by
  rw [Workspace.readText, Workspace.readText, h.read_eq hway]

end

/-- **A snapshot read.** -/
lemma Alike.loadSnapshot_eq (h : Alike L w w')
    (hway : ∀ place, w.OnTheWay path place → place ∉ L)
    (hspelled : ∀ place, w.OnTheWay (Path.ofString path).toString place → place ∉ L)
    (library : Snapshot.Library) :
    w'.loadSnapshot path library = w.loadSnapshot path library := by
  rw [Workspace.loadSnapshot, Workspace.loadSnapshot, h.pathExists_eq hspelled, h.read_eq hway]

/-- **A file created**, or not: the reason may be another one. -/
lemma Alike.create (h : Alike L w w') (path : String) :
    (∃ place, w.create path = .ok (place, w.put place []) ∧
        w'.create path = .ok (place, w'.put place [])) ∨
      ∃ e f, w.create path = .error e ∧ w'.create path = .error f ∧
        (e = .nulInName ↔ f = .nulInName) := by
  have hnul : w.create path = .error .nulInName ↔ w'.create path = .error .nulInName := by
    rw [Session.create_eq_nulInName, Session.create_eq_nulInName]
  rw [Workspace.create, Workspace.create] at hnul ⊢
  rcases h.locate path with hlocate | ⟨e, f, he, hf⟩
  · rw [hlocate] at hnul ⊢
    cases w.locate path with
    | error e => exact Or.inr ⟨e, e, rfl, rfl, Iff.rfl⟩
    | ok place =>
      simp only [bind, Except.bind, h.isFolder]
      split_ifs
      · exact Or.inr ⟨_, _, rfl, rfl, Iff.rfl⟩
      · exact Or.inl ⟨place, rfl, rfl⟩
  · rw [he, hf] at hnul ⊢
    exact Or.inr ⟨e, f, rfl, rfl, by simpa [bind, Except.bind] using hnul⟩

/-- Reasons for which a file is not opened, with the same consequences for a command. -/
def SameReason (e f : FileError) : Prop := e = .nulInName ↔ f = .nulInName

lemma Alike.writeText (h : Alike L w w') (encoding path : String) (lines : List String)
    (codec? : Option Text.Codec) :
    Alike L (w.writeText encoding path lines codec?).1 (w'.writeText encoding path lines codec?).1 ∧
      ((w'.writeText encoding path lines codec?).2 = (w.writeText encoding path lines codec?).2 ∨
        ∃ e f, (w.writeText encoding path lines codec?).2 = some (.file e) ∧
          (w'.writeText encoding path lines codec?).2 = some (.file f) ∧ SameReason e f) := by
  rw [Workspace.writeText, Workspace.writeText, Workspace.createText, Workspace.createText]
  rcases h.create path with ⟨place, hcreate, hcreate'⟩ | ⟨e, f, hcreate, hcreate', hnul⟩
  · rw [hcreate, hcreate']
    cases codec? with
    | none => exact ⟨h.put_same place [], Or.inl rfl⟩
    | some codec => exact ⟨(h.put_same place []).put_same place _, Or.inl rfl⟩
  · rw [hcreate, hcreate']
    exact ⟨h, Or.inr ⟨e, f, rfl, rfl, hnul⟩⟩

lemma Alike.saveSnapshot (h : Alike L w w') (a : Automaton) (path : String)
    (library : Snapshot.Library) :
    Alike L (w.saveSnapshot a path library).1 (w'.saveSnapshot a path library).1 ∧
      ((w'.saveSnapshot a path library).2 = (w.saveSnapshot a path library).2 ∨
        ∃ e f, (w.saveSnapshot a path library).2 = some (.file e) ∧
          (w'.saveSnapshot a path library).2 = some (.file f) ∧ SameReason e f) := by
  rw [Workspace.saveSnapshot, Workspace.saveSnapshot]
  rcases h.create path with ⟨place, hcreate, hcreate'⟩ | ⟨e, f, hcreate, hcreate', hnul⟩
  · rw [hcreate, hcreate']
    dsimp only
    cases Snapshot.encode a library with
    | none => exact ⟨h.put_same place [], Or.inl rfl⟩
    | some bytes => exact ⟨(h.put_same place []).put_same place bytes, Or.inl rfl⟩
  · rw [hcreate, hcreate']
    exact ⟨h, Or.inr ⟨e, f, rfl, rfl, hnul⟩⟩

end Workspace

/-! ## Sessions -/

namespace Session

open Outcome

/-- Logs in the same file that have got equally far, but in a file at one of the places. -/
structure SameLog (L : Set Location) (log log' : OpenLog) : Prop where
  path : log'.path = log.path
  place : log'.place = log.place
  codec : log'.codec = log.codec
  given : log.place ∉ L → log'.given = log.given
  position : log.place ∉ L → log'.position = log.position

/-- **Sessions that are the same** but for the files at some places and for how far a log in one of
these files has got. -/
structure Alike (L : Set Location) (s s' : Session) : Prop where
  config : s'.config = s.config
  automaton : s'.automaton = s.automaton
  loading : s'.loading = s.loading
  finished : s'.finished = s.finished
  workspace : Workspace.Alike L s.workspace s'.workspace
  sink : s'.log.close = s.log.close
  log : Option.Rel (SameLog L) s.log.current s'.log.current

/-- A place that a LOAD looks at, or past which its path leads. -/
def Task.Passes (t : Task) (place : Location) : Prop :=
  ∃ file, t.file? = some file ∧
    (t.session.workspace.OnTheWay (t.session.target file) place ∨
      t.session.workspace.OnTheWay (Path.ofString (t.session.target file)).toString place)

section

variable {L : Set Location} {s s' : Session} {line : Option Int}

lemma Alike.refl (L : Set Location) (s : Session) : Alike L s s := by
  refine ⟨rfl, rfl, rfl, rfl, Workspace.Alike.refl L _, rfl, ?_⟩
  cases s.log.current with
  | none => exact .none
  | some log => exact .some ⟨rfl, rfl, rfl, fun _ => rfl, fun _ => rfl⟩

lemma Alike.target (h : Alike L s s') (file : String) : s'.target file = s.target file := by
  rw [Session.target, Session.target, h.config]

/-- Lines that both logs get. -/
lemma SameLog.putInto {log log' : OpenLog} (hlog : SameLog L log log') {w w' : Workspace}
    (h : Workspace.Alike L w w') (lines : List String) :
    Workspace.Alike L (log.putInto w lines) (log'.putInto w' lines) := by
  by_cases hplace : log.place ∈ L
  · refine ⟨?_, ?_, fun place hother => ?_⟩
    · rw [OpenLog.home_putInto, OpenLog.home_putInto, h.home]
    · rw [OpenLog.folders_putInto, OpenLog.folders_putInto, h.folders]
    · have hne : place ≠ log.place := fun heq => hother (heq ▸ hplace)
      rw [OpenLog.get?_putInto_of_ne (hlog.place ▸ hne), OpenLog.get?_putInto_of_ne hne,
        h.content place hother]
  · obtain ⟨path, place, codec, given, position⟩ := log
    obtain ⟨path', place', codec', given', position'⟩ := log'
    obtain ⟨rfl, rfl, rfl, hgiven, hposition⟩ := hlog
    obtain rfl := hgiven hplace
    obtain rfl := hposition hplace
    rw [OpenLog.putInto, OpenLog.putInto, h.content _ hplace]
    split_ifs
    · exact h
    · exact h.put_same _ _

/-- A line that both logs get. -/
lemma Alike.record (h : Alike L s s') (text : String) :
    Alike L (s.record text) (s'.record text) := by
  have hlog := h.log
  generalize hcurrent : s.log.current = current at hlog
  generalize hcurrent' : s'.log.current = current' at hlog
  cases hlog with
  | none =>
    rw [Session.record, Session.record, LogSink.write_of_closed hcurrent,
      LogSink.write_of_closed hcurrent']
    exact h
  | @some log log' hsame =>
    rw [Session.record, Session.record, LogSink.write_of_current hcurrent,
      LogSink.write_of_current hcurrent']
    refine { h with
      workspace := hsame.putInto h.workspace [text]
      log := .some ⟨hsame.path, hsame.place, hsame.codec, fun hplace => ?_, fun hplace => ?_⟩ }
    · exact congrArg (· ++ _) (hsame.given hplace)
    · simp only [OpenLog.handed, OpenLog.added, hsame.codec, hsame.given hplace,
        hsame.position hplace]

/-- A line that one of the logs gets, in a file at one of the places. -/
lemma Alike.record_left (h : Alike L s s')
    (hlog : ∀ log, s.log.current = some log → log.place ∈ L) (text : String) :
    Alike L (s.record text) s' := by
  have hsame := h.log
  generalize hcurrent : s.log.current = current at hsame hlog
  generalize hcurrent' : s'.log.current = current' at hsame
  cases hsame with
  | none =>
    rw [Session.record, LogSink.write_of_closed hcurrent]
    exact h
  | @some log log' hsame =>
    have hplace := hlog log rfl
    rw [Session.record, LogSink.write_of_current hcurrent]
    refine { h with workspace := h.workspace.putInto_left hplace [text], log := ?_ }
    rw [hcurrent']
    exact .some ⟨hsame.path, hsame.place, hsame.codec, fun hnot => absurd hplace hnot,
      fun hnot => absurd hplace hnot⟩

/-! ## One command -/

lemma Alike.say (h : Alike L s s') (d : Diagnostic) :
    Agree (Alike L) Eq (s.say line d) (s'.say line d) :=
  ⟨h.record _, .cons rfl .nil, rfl, rfl⟩

lemma Alike.sayAll (h : Alike L s s') (ds : List Diagnostic) :
    Agree (Alike L) Eq (s.sayAll line ds) (s'.sayAll line ds) :=
  Agree.forEach (R := Alike L) (P := Eq) (fun _ _ d _ ht hd => hd ▸ ht.say d) h
    (List.forall₂_same.2 fun _ _ => rfl)

lemma Alike.declare (h : Alike L s s') {d : Declaration} (hd : d.failure = none) :
    Agree (Alike L) Eq (s.declare line d) (s'.declare line d) := by
  have hstate : Alike L { s with automaton := d.state } { s' with automaton := d.state } :=
    { h with automaton := rfl }
  refine (hstate.sayAll d.output).andThen fun ht => ?_
  rw [hd]
  exact agree_done ht

lemma Alike.listAll (h : Alike L s s') :
    Agree (Alike L) Eq (s.listAll line) (s'.listAll line) := by
  rw [Session.listAll, Session.listAll, h.automaton]
  split
  · exact h.say _
  · exact h.sayAll _

lemma Alike.execute (h : Alike L s s') (text : String)
    (hruns : (s.execute text line).failure = none) :
    Agree (Alike L) Eq (s.execute text line) (s'.execute text line) := by
  rw [Session.execute] at hruns ⊢
  rw [Session.execute, h.automaton]
  split at hruns
  · exact h.say _
  · split at hruns
    · cases hruns
    · exact h.say _
    · exact h.say _

/-- A file is not opened in either session, and for the same thing to say. -/
lemma ne_nulInName_of_sameReason {e f : FileError} (h : Workspace.SameReason e f)
    (he : e ≠ .nulInName) : f ≠ .nulInName := fun hf => he (h.2 hf)

lemma Alike.print (h : Alike L s s') (file : String)
    (hruns : (s.print file line).failure = none) :
    Agree (Alike L) Eq (s.print file line) (s'.print file line) := by
  have hsame : s'.workspace.writeText s'.config.encoding (s'.target file)
        s'.automaton.listingText s'.config.codec?
      = s'.workspace.writeText s.config.encoding (s.target file) s.automaton.listingText
        s.config.codec? := by
    rw [h.target, h.config, h.automaton]
  have hwritten := h.workspace.writeText s.config.encoding (s.target file) s.automaton.listingText
    s.config.codec?
  simp only [Session.print, hsame] at hruns ⊢
  generalize s.workspace.writeText _ _ _ _ = written at hwritten hruns ⊢
  generalize s'.workspace.writeText _ _ _ _ = written' at hwritten ⊢
  obtain ⟨w, reason⟩ := written
  obtain ⟨w', reason'⟩ := written'
  obtain ⟨hw, rfl | ⟨e, f, rfl, rfl, hnul⟩⟩ := hwritten
  all_goals
    have hstate : Alike L { s with workspace := w } { s' with workspace := w' } :=
      { h with workspace := hw }
  · rcases reason' with _ | (e | _ | _ | _)
    · exact hstate.say _
    · cases e <;> first | exact hstate.say _ | cases hruns
    all_goals cases hruns
  · have he : e ≠ .nulInName := by
      rintro rfl
      cases hruns
    have hf := ne_nulInName_of_sameReason hnul he
    cases e <;> cases f <;> first
      | exact absurd rfl he
      | exact absurd rfl hf
      | exact hstate.say _

lemma Alike.compile (h : Alike L s s') (file : String)
    (hruns : (s.compile file line).failure = none) :
    Agree (Alike L) Eq (s.compile file line) (s'.compile file line) := by
  have hsame : s'.workspace.saveSnapshot s'.automaton (s'.target file) s'.config.library
      = s'.workspace.saveSnapshot s.automaton (s.target file) s.config.library := by
    rw [h.target, h.automaton, h.config]
  have hallowed : s'.config.isCompileTarget file = s.config.isCompileTarget file := by rw [h.config]
  have hsaved := h.workspace.saveSnapshot s.automaton (s.target file) s.config.library
  simp only [Session.compile, hsame, hallowed] at hruns ⊢
  split_ifs at hruns ⊢
  · exact h.say _
  · generalize s.workspace.saveSnapshot _ _ _ = saved at hsaved hruns ⊢
    generalize s'.workspace.saveSnapshot _ _ _ = saved' at hsaved ⊢
    obtain ⟨w, reason⟩ := saved
    obtain ⟨w', reason'⟩ := saved'
    obtain ⟨hw, rfl | ⟨e, f, rfl, rfl, hnul⟩⟩ := hsaved
    all_goals
      have hstate : Alike L { s with workspace := w } { s' with workspace := w' } :=
        { h with workspace := hw }
    · rcases reason' with _ | (e | _)
      · exact hstate.say _
      · cases e <;> first | exact hstate.say _ | cases hruns
      · exact hstate.say _
    · have he : e ≠ .nulInName := by
        rintro rfl
        cases hruns
      have hf := ne_nulInName_of_sameReason hnul he
      cases e <;> cases f <;> first
        | exact absurd rfl he
        | exact absurd rfl hf
        | exact hstate.say _

/-- A log opened in both. -/
lemma Alike.openAt (h : Alike L s s') (path : String) :
    let opened := s.log.openAt s.workspace path
    let opened' := s'.log.openAt s'.workspace path
    Alike L { s with workspace := opened.1, log := opened.2.1 }
        { s' with workspace := opened'.1, log := opened'.2.1 } ∧
      (opened'.2.2 = opened.2.2 ∨ ∃ e f, opened.2.2 = some (.file e) ∧
        opened'.2.2 = some (.file f) ∧ Workspace.SameReason e f) := by
  have hencoding : s'.log.encoding = s.log.encoding := congrArg (·.encoding) h.sink
  have hcodec : s'.log.codec? = s.log.codec? := congrArg (·.codec?) h.sink
  unfold LogSink.openAt LogSink.openAs
  dsimp only
  rw [h.workspace.home]
  rcases h.workspace.create ("/" ++ String.intercalate "/"
      (Location.ofText s.workspace.home path)) with
    ⟨place, hcreate, hcreate'⟩ | ⟨e, f, hcreate, hcreate', hnul⟩
  · rw [hcreate, hcreate']
    have hput := (h.workspace.put_same place [])
    dsimp only [Except.map]
    rw [hcodec, hencoding]
    split
    · exact ⟨{ h with workspace := hput, sink := h.sink, log := .none }, Or.inl rfl⟩
    · exact ⟨{ h with
        workspace := hput
        sink := rfl
        log := .some ⟨rfl, rfl, rfl, fun _ => rfl, fun _ => rfl⟩ }, Or.inl rfl⟩
  · rw [hcreate, hcreate']
    exact ⟨{ h with sink := h.sink, log := .none }, Or.inr ⟨e, f, rfl, rfl, hnul⟩⟩

lemma Alike.openLog (h : Alike L s s') (file : String)
    (hruns : (s.openLog file line).failure = none) :
    Agree (Alike L) Eq (s.openLog file line) (s'.openLog file line) := by
  have hopened := h.openAt (s.target file)
  simp only [Session.openLog, h.target] at hruns ⊢
  generalize s.log.openAt s.workspace (s.target file) = opened at hopened hruns ⊢
  generalize s'.log.openAt s'.workspace (s.target file) = opened' at hopened ⊢
  obtain ⟨w, log, result⟩ := opened
  obtain ⟨w', log', result'⟩ := opened'
  obtain ⟨hstate, rfl | ⟨e, f, rfl, rfl, hnul⟩⟩ := hopened
  · rcases result' with _ | (e | _ | _ | _)
    · exact agree_done hstate
    · cases e <;> first | exact hstate.say _ | cases hruns
    all_goals cases hruns
  · have he : e ≠ .nulInName := by
      rintro rfl
      cases hruns
    have hf := ne_nulInName_of_sameReason hnul he
    cases e <;> cases f <;> first
      | exact absurd rfl he
      | exact absurd rfl hf
      | exact hstate.say _

lemma Alike.closeLog (h : Alike L s s') : Alike L s.closeLog s'.closeLog :=
  { h with sink := h.sink, log := .none }

lemma Alike.stopLog (h : Alike L s s') :
    Agree (Alike L) Eq (s.stopLog line) (s'.stopLog line) := by
  have hactive : s'.log.active = s.log.active := by
    have hlog := h.log
    rw [LogSink.active, LogSink.active]
    generalize s.log.current = current at hlog ⊢
    generalize s'.log.current = current' at hlog ⊢
    cases hlog <;> rfl
  rw [Session.stopLog, Session.stopLog, hactive]
  split_ifs
  · exact h.closeLog.say _
  · exact h.say _

lemma Alike.exit (h : Alike L s s') : Agree (Alike L) Eq (s.exit line) (s'.exit line) :=
  (h.say _).andThen fun ht => agree_done { ht.closeLog with finished := rfl }

lemma Alike.restore (h : Alike L s s') {file : String}
    (hload : s'.snapshotAt file = s.snapshotAt file)
    (hruns : (s.restore file line).failure = none) :
    Agree (Alike L) Eq (s.restore file line) (s'.restore file line) := by
  unfold Session.restore at hruns ⊢
  rw [hload]
  split at hruns
  · next a _ =>
    have hstate : Alike L { s with automaton := a } { s' with automaton := a } :=
      { h with automaton := rfl }
    exact hstate.say _
  · exact h.say _
  · exact h.say _
  · cases hruns
  · exact h.say _
  · cases hruns
  · cases hruns
  · split_ifs at hruns ⊢
    · exact h.say _
    · cases hruns
  · exact h.say _

/-- **A LOAD that replays no script.** -/
lemma Alike.load {t : Task} {file : String} (h : Alike L t.session s') (hfile : t.file? = some file)
    (hscript : t.script? = none) (hpasses : ∀ place, t.Passes place → place ∉ L)
    (process process' : Action) (hruns : (load process t.session file t.line).failure = none) :
    Agree (Alike L) Eq (load process t.session file t.line) (load process' s' file t.line) := by
  have hway := fun place hplace => hpasses place ⟨file, hfile, Or.inl hplace⟩
  have hspelled := fun place hplace => hpasses place ⟨file, hfile, Or.inr hplace⟩
  have hread : s'.scriptAt file = t.session.scriptAt file := by
    rw [scriptAt, scriptAt, h.config, h.target]
    exact h.workspace.readText_eq hway _ _
  have hsnapshot : s'.snapshotAt file = t.session.snapshotAt file := by
    rw [snapshotAt, snapshotAt, h.config, h.target]
    exact h.workspace.loadSnapshot_eq hway hspelled _
  simp only [Session.load, replay, h.config, h.target, h.loading, h.workspace.home, hread]
    at hruns ⊢
  simp only [Task.script?, Task.place?, hfile, Option.bind_some] at hscript
  split_ifs at hscript hruns ⊢ with hbinary hnul hlisted
  · exact h.restore hsnapshot hruns
  · cases hruns
  · exact h.say _
  · rw [Option.bind_some, if_neg hlisted] at hscript
    cases htext : t.session.scriptAt file with
    | error e =>
      rw [htext] at hruns
      cases e with
      | unknownEncoding name => cases hruns
      | file | unencodable => exact h.say _
      | @undecodable failure =>
        cases failure with
        | refused => exact h.say _
        | broken => cases hruns
    | ok text =>
      simp only [htext, replayLines] at hscript hruns
      generalize Assembler.feedAll _ _ _ = fed at hscript hruns
      cases fed with
      | error e => cases hruns
      | ok fed => cases hscript

/-- **A command carried out**, with what LOAD does left open. -/
lemma Alike.perform (h : Alike L s s') {load load' : Action} {keyword : Keyword}
    {words : List String} {body : List Char}
    (hload : ∀ file, keyword = .load → words = [file] → (load s file line).failure = none →
      Agree (Alike L) Eq (load s file line) (load' s' file line))
    (hruns : (s.perform load keyword words body line).failure = none) :
    Agree (Alike L) Eq (s.perform load keyword words body line)
      (s'.perform load' keyword words body line) := by
  obtain ⟨handler, hhandles, hperform⟩ := exists_handles keyword words body
  rw [hperform] at hruns ⊢
  rw [hperform]
  cases hhandles with dsimp only at hruns ⊢
  | define =>
    rw [h.automaton]
    exact h.declare (s.automaton.define_failure keyword words body)
  | arity => exact h.say _
  | listAll => exact h.listAll
  | print file => exact h.print file hruns
  | execute text => exact h.execute text hruns
  | compile file => exact h.compile file hruns
  | load file => exact hload file rfl rfl hruns
  | stopLog => exact h.stopLog
  | openLog file => exact h.openLog file hruns
  | exit => exact h.exit

/-- **A request that replays no script.** -/
theorem answer_alike (h : Alike L s s') {request : Request}
    (hopened : Call.opened? ⟨s, request⟩ = none)
    (hpasses : ∀ t place, Call.task? ⟨s, request⟩ = some t → t.Passes place → place ∉ L)
    (hruns : (s.answer request).failure = none) :
    Agree (Alike L) Eq (s.answer request) (s'.answer request) := by
  have hscript : ∀ t, Call.task? ⟨s, request⟩ = some t → t.script? = none := fun t ht => by
    simpa [Call.opened?, ht] using hopened
  cases request with
  | file name =>
    simp only [answer, runFile_eq, h.finished] at hruns ⊢
    split_ifs at hruns ⊢ with hfinished
    · exact agree_done h
    · have ht : Call.task? ⟨s, .file name⟩ = some ⟨s, .load, [name], name.toList, none⟩ := by
        rw [Call.task?, if_neg hfinished]
      exact Alike.load h rfl (hscript _ ht) (fun place => hpasses _ place ht) _ _ hruns
  | command text line =>
    simp only [answer, process_eq, processAt, processWith, h.finished] at hruns ⊢
    split_ifs at hruns ⊢ with hfinished
    · exact agree_done h
    · cases hcommand : Command.ofText? (trimCommand text.toList) with
      | none => exact agree_done h
      | some command =>
        simp only [hcommand, h.config] at hruns ⊢
        have hrecord := h.record (s.config.prompt ++ String.ofList (trimCommand text.toList))
        cases hkeyword : Keyword.ofName? command.first with
        | none => exact hrecord.say _
        | some keyword =>
          simp only [hkeyword] at hruns ⊢
          refine hrecord.perform (fun file hload hwords hruns => ?_) hruns
          have ht : Call.task? ⟨s, .command text line⟩ = some ⟨s.record (s.config.prompt
              ++ String.ofList (trimCommand text.toList)), keyword, command.words, command.body,
              line⟩ := by
            simp only [Call.task?, if_neg hfinished, hcommand, Option.bind_some, hkeyword,
              Option.map_some]
          have hfile : Task.file? ⟨s.record (s.config.prompt ++ String.ofList (trimCommand
              text.toList)), keyword, command.words, command.body, line⟩ = some file := by
            rw [Task.file?, hload, hwords]
          exact Alike.load hrecord hfile (hscript _ ht) (fun place => hpasses _ place ht) _ _ hruns

end

end Session

end AutomatonShell
