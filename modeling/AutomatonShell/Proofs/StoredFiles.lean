import AutomatonShell.Proofs.Recording
import AutomatonShell.Proofs.SnapshotFiles
import AutomatonShell.Proofs.SpelledPaths

/-!
# Files that are written and read again

A path at which a file was created is a path by which the file can be read.  It stays one whatever
happens to other files, because a session never makes or removes a folder: where a path leads is
decided by the folders alone.  What is read is what was written, as long as nobody else writes the
file, and the log is the one file that every command may write.

* `Workspace.Holds` — a file that can be read by a path, with its content.
* `Workspace.holds_of_create`, `Workspace.holds_saveSnapshot` — files that were written.
* **`Workspace.Holds.loadSnapshot`** — the automaton of a snapshot that was written.
* `Session.logPlace?`, `alike_record` — the file that a line goes to.
* **`alike_after`** — a run leaves the folders as they are.
-/

namespace AutomatonShell

namespace Workspace

variable {w w' : Workspace} {path : String} {place : Location} {bytes : List UInt8}

/-- **A file that can be read by a path**: the path leads to the place of the file, and is not
spelled as that of a folder. -/
structure Holds (w : Workspace) (path : String) (place : Location) (bytes : List UInt8) :
    Prop where
  locate : w.locate path = .ok place
  not_folder : w.isFolder place = false
  not_means_folder : meansFolder path = false
  content : w.get? place = some bytes

lemma Holds.read (h : w.Holds path place bytes) : w.read path = .ok bytes := by
  rw [Workspace.read, h.locate]
  simp [bind, Except.bind, h.not_folder, h.not_means_folder, h.content]

lemma Holds.not_contains_nul (h : w.Holds path place bytes) :
    ¬ path.toList.contains (Char.ofNat 0) = true := by
  rw [List.contains_iff_mem]
  exact (locate_eq_ok.1 h.locate).1

lemma Holds.readText (h : w.Holds path place bytes) {codec : Text.Codec} {text : List Char}
    (htext : codec.decode bytes = .ok text) (encoding : String) :
    w.readText encoding path (some codec) = .ok text := by
  rw [Workspace.readText, h.read]
  simp [htext]

/-- **The automaton of a snapshot that was written.** -/
lemma Holds.loadSnapshot (h : w.Holds path place bytes) {library : Snapshot.Library}
    (hlibrary : library.KeepsAutomata) {a : Automaton} (ha : a.WellFormed)
    (hbytes : Snapshot.encode a library = some bytes) :
    w.loadSnapshot path library = .ok { a with finals := Automaton.sorted a.finals } := by
  rw [Workspace.loadSnapshot, pathExists_toString_ofString h.locate (by simp [h.content])]
  dsimp only
  rw [h.read]
  dsimp only
  rw [Snapshot.decode_encode hlibrary ha hbytes]

/-! ## Other files -/

lemma alike_put (w : Workspace) {L : Set Location} (hplace : place ∈ L) (content : List UInt8) :
    Alike L w (w.put place content) := by
  refine ⟨rfl, rfl, fun other hother => get?_put_of_ne w content ?_⟩
  rintro rfl
  exact hother hplace

lemma Alike.trans {L : Set Location} {w'' : Workspace} (h : Alike L w w') (h' : Alike L w' w'') :
    Alike L w w'' :=
  ⟨h'.home.trans h.home, h'.folders.trans h.folders, fun other hother =>
    (h'.content other hother).trans (h.content other hother)⟩

lemma Alike.symm {L : Set Location} (h : Alike L w w') : Alike L w' w :=
  ⟨h.home.symm, h.folders.symm, fun other hother => (h.content other hother).symm⟩

lemma Alike.mono {L L' : Set Location} (h : Alike L w w') (hsubset : L ⊆ L') : Alike L' w w' :=
  ⟨h.home, h.folders, fun other hother => h.content other fun hmem => hother (hsubset hmem)⟩

/-- Where a path leads is decided by the folders. -/
lemma Alike.locate_eq_ok {L : Set Location} (h : Alike L w w')
    (hplace : w.locate path = .ok place) : w'.locate path = .ok place := by
  rcases h.locate path with heq | ⟨e, -, he, -⟩
  · rw [heq, hplace]
  · cases hplace.symm.trans he

/-- **A file can still be read** when files have been written. -/
lemma Holds.alike {L : Set Location} {bytes' : List UInt8} (h : w.Holds path place bytes)
    (halike : Alike L w w') (hcontent : w'.get? place = some bytes') :
    w'.Holds path place bytes' :=
  ⟨halike.locate_eq_ok h.locate, (halike.isFolder place).trans h.not_folder, h.not_means_folder,
    hcontent⟩

/-! ## Writing -/

/-- A file that was created and then written. -/
lemma holds_of_create (h : w.create path = .ok (place, w')) (bytes : List UInt8) :
    Alike {place} w (w'.put place bytes) ∧ (w'.put place bytes).Holds path place bytes := by
  have halike : Alike {place} w ((w.put place []).put place bytes) :=
    (alike_put w (Set.mem_singleton place) []).trans
      (alike_put (w.put place []) (Set.mem_singleton place) bytes)
  rw [create] at h
  obtain ⟨found, hfound, h⟩ := bind_eq_ok.1 h
  split_ifs at h with hfolder
  obtain ⟨rfl, rfl⟩ := Prod.mk.inj (Except.ok.inj h)
  obtain ⟨hnot, hmeans⟩ := Bool.or_eq_false_iff.1 (Bool.eq_false_iff.2 hfolder)
  exact ⟨halike, halike.locate_eq_ok hfound, (halike.isFolder found).trans hnot, hmeans,
    get?_put_self ..⟩

/-- **A snapshot that was saved.** -/
lemma holds_saveSnapshot {a : Automaton} {library : Snapshot.Library}
    (h : w.saveSnapshot a path library = (w', none)) :
    ∃ place bytes, Snapshot.encode a library = some bytes ∧ Alike {place} w w' ∧
      w'.Holds path place bytes := by
  rw [saveSnapshot] at h
  cases hcreate : w.create path with
  | error e => simp [hcreate] at h
  | ok created =>
    obtain ⟨place, emptied⟩ := created
    rw [hcreate] at h
    dsimp only at h
    cases hbytes : Snapshot.encode a library with
    | none => simp [hbytes] at h
    | some bytes =>
      rw [hbytes] at h
      obtain rfl := (Prod.mk.inj h).1
      exact ⟨place, bytes, rfl, holds_of_create hcreate bytes⟩

end Workspace

/-! ## Sessions -/

namespace Session

/-- The place of the file that the log is written to. -/
def logPlace? (s : Session) : Option Location := s.log.current.map OpenLog.place

/-- A line goes to the file of the log and nowhere else. -/
lemma alike_write (log : LogSink) (w : Workspace) (line : String) :
    Workspace.Alike {place | log.current.map OpenLog.place = some place} w
      (log.write w line).1 := by
  cases hlog : log.current with
  | none =>
    rw [LogSink.write_of_closed hlog]
    exact Workspace.Alike.refl _ w
  | some current =>
    have hplace : current.place ∈ {place | some current.place = some place} := rfl
    rw [LogSink.write_of_current hlog]
    exact ((Workspace.Alike.refl _ w).putInto_left hplace [line]).symm

lemma alike_record (s : Session) (line : String) :
    Workspace.Alike {place | s.logPlace? = some place} s.workspace (s.record line).workspace :=
  alike_write s.log s.workspace line

lemma logPlace?_record (s : Session) (line : String) :
    (s.record line).logPlace? = s.logPlace? := by
  show (s.log.write s.workspace line).2.current.map OpenLog.place = _
  cases hlog : s.log.current with
  | none => rw [LogSink.write_of_closed hlog, logPlace?]
  | some current => rw [LogSink.write_of_current hlog, logPlace?, hlog]; rfl

/-- A file that the log is not written to holds what it held before a line. -/
lemma get?_record {s : Session} {place : Location} (h : s.logPlace? ≠ some place) (line : String) :
    (s.record line).workspace.get? place = s.workspace.get? place :=
  (alike_record s line).content place h

/-- No event makes or removes a folder. -/
lemma Event.alike_apply (j : Journal) (e : Event) :
    Workspace.Alike Set.univ j.workspace (e.apply j).workspace := by
  cases e with
  | begun line => exact (alike_write j.log j.workspace line).mono (Set.subset_univ _)
  | said m => exact (alike_write j.log j.workspace m.render).mono (Set.subset_univ _)
  | stored place content => exact Workspace.alike_put j.workspace (Set.mem_univ place) content
  | opened path place codec => exact Workspace.alike_put j.workspace (Set.mem_univ place) []
  | closed => exact Workspace.Alike.refl _ _

/-- **A run leaves the folders as they are**, by induction on its events. -/
theorem alike_after (s : Session) (steps : List Step) :
    Workspace.Alike Set.univ s.workspace (after s steps).workspace := by
  have hevents : ∀ (events : List Event) (j : Journal),
      Workspace.Alike Set.univ j.workspace (j.after events).workspace := by
    intro events
    induction events with
    | nil => exact fun j => Workspace.Alike.refl _ _
    | cons e rest ih => exact fun j => (Event.alike_apply j e).trans (ih (e.apply j))
  have hjournal : (after s steps).workspace = (s.journal.after (eventsOf s steps)).workspace :=
    congrArg Journal.workspace (journal_after s steps)
  rw [hjournal]
  exact hevents (eventsOf s steps) s.journal

/-- A run keeps the configuration. -/
lemma frame_after (s : Session) (steps : List Step) : Frame s (after s steps) := by
  induction steps generalizing s with
  | nil => exact Frame.refl s
  | cons step rest ih => exact (step.frame_apply s).trans (ih (step.apply s))

end Session

end AutomatonShell
