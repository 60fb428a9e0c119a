import AutomatonShell.Proofs.StoredFiles
import AutomatonShell.Proofs.WrittenFiles

/-!
# Histories of a log sink

A sink is asked to open a log, to write a line, or to close the log, in any order.  Whether the file
of a log can be created is not up to the sink: a name that could be opened may fail to open the next
time.  So every open of a history comes with its outcome, and the whole history says what each file
holds in the end.

A file that is opened is emptied, and gets the lines that are written next (`Records.serve_lines`).
The next call that writes no line closes the log, whether it opens another one, fails to, or only
closes.  From then on nothing is written to the file until it is opened again (`adds_serve`).

* `Workspace.createLog`, `Workspace.logFile?` — what comes of creating the file of a log.
* `LogCall`, `Journal.serve` — the calls of a sink, and what they do one after the other.
* `EndsOpen` — the last call that opens or closes is an open that succeeds.
* `LastLines` — the lines between the last opening of a file and the next call that is no line.
* **`history_of_sink`** — what a history leaves, of the sink and of every file.
* `exists_history_with_seams` — a file that is not the text of its lines.
-/

namespace AutomatonShell

/-! ## The file of a log -/

namespace Workspace

variable {w w' : Workspace} {name other : String} {place : Location}

/-- **What comes of creating the file of a log by a name.** -/
def createLog (w : Workspace) (name : String) : Except FileError Location :=
  (w.create ("/" ++ String.intercalate "/" (Location.ofText w.home name))).map (·.1)

/-- **The place of the file that is created when a log is opened by a name**, if it can be. -/
def logFile? (w : Workspace) (name : String) : Option Location := (w.createLog name).toOption

lemma createLog_eq_ok : w.createLog name = .ok place ↔
    ∃ w', w.create ("/" ++ String.intercalate "/" (Location.ofText w.home name))
      = .ok (place, w') := by
  rw [createLog]
  cases w.create ("/" ++ String.intercalate "/" (Location.ofText w.home name)) <;>
    simp [Except.map, Prod.ext_iff]

lemma logFile?_eq_some : w.logFile? name = some place ↔ w.createLog name = .ok place := by
  rw [logFile?]
  cases w.createLog name <;> simp [Except.toOption]

/-- **Which logs can be opened, and where, is decided by the folders.** -/
lemma Alike.logFile?_eq {L : Set Location} (h : Alike L w w') (name : String) :
    w'.logFile? name = w.logFile? name := by
  rw [logFile?, logFile?, createLog, createLog, h.home]
  rcases h.create ("/" ++ String.intercalate "/" (Location.ofText w.home name)) with
    ⟨place, hcreate, hcreate'⟩ | ⟨e, f, hcreate, hcreate', -⟩
  · rw [hcreate, hcreate']
    rfl
  · rw [hcreate, hcreate']
    rfl

/-- Names that mean the same place open the same file. -/
lemma createLog_congr (h : Location.ofText w.home name = Location.ofText w.home other) :
    w.createLog name = w.createLog other := by
  rw [createLog, createLog, h]

/-- **The file of a log is at the place that its name means**, in a working directory as file
systems have them. -/
lemma place_of_createLog (hhome : w.home.IsProper) (h : w.createLog name = .ok place) :
    place = Location.ofText w.home name := by
  obtain ⟨w', hcreate⟩ := createLog_eq_ok.1 h
  rw [place_of_create hcreate, Location.ofText_slashes (hhome.ofText name)]

end Workspace

namespace Session

/-! ## Calls -/

/-- What a log sink is asked for. -/
inductive LogCall where
  /-- A log is opened by a name, with what comes of creating its file. -/
  | openAt (name : String) (created : Except FileError Location)
  /-- A line is written. -/
  | write (line : String)
  /-- The log is closed. -/
  | close

/-- **What a call does** to the files and the log. -/
def LogCall.apply (j : Journal) : LogCall → Journal
  | openAt name created =>
    ⟨(j.log.openAs j.workspace name created).1, (j.log.openAs j.workspace name created).2.1⟩
  | write line => ⟨(j.log.write j.workspace line).1, (j.log.write j.workspace line).2⟩
  | close => ⟨j.workspace, j.log.close⟩

/-- The files and the log after some calls. -/
def Journal.serve (j : Journal) (calls : List LogCall) : Journal := calls.foldl LogCall.apply j

/-- The events of a call, in a sink with a codec. -/
def LogCall.events (codec : Text.Codec) : LogCall → List Event
  | openAt _ (.error _) => [.closed]
  | openAt name (.ok place) => [.closed, .opened (Path.ofString name) place codec]
  | write line => [.begun line]
  | close => [.closed]

section

variable {j : Journal} {w : Workspace} {codec : Text.Codec} {place : Location}
  {calls : List LogCall} {lines : List String}

lemma LogCall.apply_eq_after (hcodec : j.log.codec? = some codec) (c : LogCall) :
    c.apply j = j.after (c.events codec) := by
  obtain ⟨w, encoding, codec?, current⟩ := j
  obtain rfl : codec? = some codec := hcodec
  cases c with
  | openAt name created => cases created <;> rfl
  | write line => rfl
  | close => rfl

lemma Journal.serve_append (j : Journal) (first second : List LogCall) :
    j.serve (first ++ second) = (j.serve first).serve second := List.foldl_append

lemma Journal.serve_cons (j : Journal) (c : LogCall) (rest : List LogCall) :
    j.serve (c :: rest) = (c.apply j).serve rest := rfl

lemma LogCall.codec?_apply (hcodec : j.log.codec? = some codec) (c : LogCall) :
    (c.apply j).log.codec? = some codec := by
  rw [c.apply_eq_after hcodec, codec?_after, hcodec]

lemma codec?_serve (hcodec : j.log.codec? = some codec) (calls : List LogCall) :
    (j.serve calls).log.codec? = some codec := by
  induction calls generalizing j with
  | nil => exact hcodec
  | cons c rest ih => exact ih (c.codec?_apply hcodec)

/-- **The folders stay the same.** -/
lemma alike_serve (hcodec : j.log.codec? = some codec) (calls : List LogCall) :
    Workspace.Alike Set.univ j.workspace (j.serve calls).workspace := by
  induction calls generalizing j with
  | nil => exact Workspace.Alike.refl _ _
  | cons c rest ih =>
    obtain ⟨hhome, hfolders⟩ := folders_after (c.events codec) j
    rw [← c.apply_eq_after hcodec] at hhome hfolders
    have hfirst : Workspace.Alike Set.univ j.workspace (c.apply j).workspace :=
      ⟨hhome, hfolders, fun place hplace => absurd (Set.mem_univ place) hplace⟩
    exact hfirst.trans (ih (c.codec?_apply hcodec))

/-! ## Opening -/

/-- **An open that succeeds**: the log of before is closed, and the new one is empty. -/
lemma LogCall.apply_openAt (hcodec : j.log.codec? = some codec) (name : String)
    (place : Location) :
    (openAt name (.ok place)).apply j
      = Event.apply (Event.apply j .closed) (.opened (Path.ofString name) place codec) :=
  LogCall.apply_eq_after hcodec _

/-- An open closes the log of before itself. -/
lemma LogCall.apply_openAt_of_close (j : Journal) (name : String)
    (created : Except FileError Location) :
    (openAt name created).apply ⟨j.workspace, j.log.close⟩ = (openAt name created).apply j := by
  obtain ⟨w, encoding, codec?, current⟩ := j
  cases created with
  | error e => rfl
  | ok place => cases codec? <;> rfl

/-- An open reports a failure just when no file was created. -/
lemma openAs_failure_eq_none_iff (hcodec : j.log.codec? = some codec) (name : String)
    (created : Except FileError Location) :
    (j.log.openAs j.workspace name created).2.2 = none ↔ ∃ place, created = .ok place := by
  cases created with
  | error e => simp [LogSink.openAs]
  | ok place => simp [LogSink.openAs, hcodec]

/-! ## Whether a log is open -/

/-- **The last call that opens or closes is an open that succeeds**: behind it, only lines are
written. -/
def EndsOpen (calls : List LogCall) (name : String) (place : Location) : Prop :=
  ∃ (before : List LogCall) (lines : List String),
    calls = before ++ .openAt name (.ok place) :: lines.map .write

lemma not_endsOpen_nil (name : String) (place : Location) : ¬ EndsOpen [] name place := by
  simp [EndsOpen]

/-- The last call of a history decides, unless it writes a line. -/
lemma endsOpen_concat {name : String} {c : LogCall} :
    EndsOpen (calls ++ [c]) name place ↔
      c = .openAt name (.ok place) ∨ (∃ line, c = .write line) ∧ EndsOpen calls name place := by
  constructor
  · rintro ⟨before, lines, h⟩
    rcases List.eq_nil_or_concat lines with rfl | ⟨front, line, rfl⟩
    · exact .inl (List.singleton_inj.1 (List.append_inj' h rfl).2)
    · rw [List.concat_eq_append, List.map_append, ← List.cons_append, ← List.append_assoc] at h
      obtain ⟨hcalls, hlast⟩ := List.append_inj' h rfl
      exact .inr ⟨⟨line, List.singleton_inj.1 hlast⟩, before, front, hcalls⟩
  · rintro (rfl | ⟨⟨line, rfl⟩, before, lines, rfl⟩)
    · exact ⟨calls, [], rfl⟩
    · exact ⟨before, lines ++ [line], by simp⟩

/-- A line that is written leaves the path of the log. -/
lemma path?_write (sink : LogSink) (w : Workspace) (line : String) :
    (sink.write w line).2.path? = sink.path? := by
  cases hcurrent : sink.current with
  | none => rw [LogSink.write_of_closed hcurrent]
  | some log =>
    rw [LogSink.write_of_current hcurrent, LogSink.path?, LogSink.path?, hcurrent]
    rfl

/-- **Which path a sink has**, by induction on the history, from its last call. -/
theorem path?_serve (encoding : String) (codec : Text.Codec) (w : Workspace)
    (calls : List LogCall) (path : Path) :
    ((Journal.mk w { encoding, codec? := some codec }).serve calls).log.path? = some path ↔
      ∃ name place, EndsOpen calls name place ∧ path = Path.ofString name := by
  induction calls using List.reverseRecOn with
  | nil => simp [Journal.serve, LogSink.path?, not_endsOpen_nil]
  | append_singleton calls c ih =>
    rw [Journal.serve_append]
    have hcodec := codec?_serve (j := ⟨w, { encoding, codec? := some codec }⟩) rfl calls
    generalize (Journal.mk w { encoding, codec? := some codec }).serve calls = j at ih hcodec ⊢
    simp only [endsOpen_concat]
    cases c with
    | write line =>
      simp only [reduceCtorEq, LogCall.write.injEq, exists_eq', true_and, false_or]
      rw [← ih, ← path?_write j.log j.workspace line]
      rfl
    | close => simp [Journal.serve, LogCall.apply, LogSink.close, LogSink.path?]
    | openAt other created =>
      change ((LogCall.openAt other created).apply j).log.path? = some path ↔ _
      cases created with
      | error e => simp [LogCall.apply, LogSink.openAs, LogSink.close, LogSink.path?]
      | ok place =>
        rw [LogCall.apply_openAt hcodec]
        simp [Event.apply, LogSink.path?, eq_comm]

/-! ## What a file holds -/

/-- Lines that are written go behind what an open log holds. -/
lemma Records.serve_lines {held : List String} (h : Records j place codec held)
    (lines : List String) :
    Records (j.serve (lines.map .write)) place codec (held ++ lines) := by
  induction lines generalizing j held with
  | nil => simpa [Journal.serve] using h
  | cons line rest ih =>
    have hrest := ih (h.write line)
    rw [List.append_assoc, List.singleton_append] at hrest
    exact hrest

/-- A call opens no log whose file is at a place. -/
def LogCall.OpensNot (place : Location) (c : LogCall) : Prop :=
  ∀ name, c ≠ openAt name (.ok place)

lemma LogCall.OpensNot.stores? {c : LogCall} (h : c.OpensNot place) {e : Event}
    (he : e ∈ c.events codec) : e.stores? ≠ some place := by
  cases c with
  | write line => simp [List.mem_singleton.1 he, Event.stores?]
  | close => simp [List.mem_singleton.1 he, Event.stores?]
  | openAt name created =>
    cases created with
    | error e => simp [List.mem_singleton.1 he, Event.stores?]
    | ok found =>
      have hfound : found ≠ place := fun heq => h name (heq ▸ rfl)
      rcases List.mem_cons.1 he with rfl | he
      · simp [Event.stores?]
      · rw [List.mem_singleton.1 he]
        simpa [Event.stores?] using hfound

/-- **Calls that do not open a file** add at most lines of its log to it, by induction on the
calls. -/
theorem adds_serve (hcodec : j.log.codec? = some codec) (h : ∀ c ∈ calls, c.OpensNot place) :
    j.Adds place (j.serve calls) := by
  induction calls generalizing j with
  | nil => exact .nothing rfl (Or.inl rfl)
  | cons c rest ih =>
    rw [List.forall_mem_cons] at h
    have hfirst : j.Adds place (c.apply j) := by
      rw [c.apply_eq_after hcodec]
      exact adds_after (fun e he => h.1.stores? he) j
    exact hfirst.trans (ih (c.codec?_apply hcodec) h.2)

/-- A file that is not that of the log stays the same until a log is opened there. -/
lemma get?_serve_of_elsewhere (hcodec : j.log.codec? = some codec)
    (h : ∀ c ∈ calls, c.OpensNot place) (helse : j.LogsElsewhere place) :
    (j.serve calls).workspace.get? place = j.workspace.get? place := by
  cases adds_serve hcodec h with
  | nothing content after => exact content
  | lines log lines before here content after => exact absurd here (helse log before)

/-- The log is closed by the next call that is no line. -/
lemma workspace_serve_closed (h : ∀ line, calls.head? ≠ some (.write line)) (j : Journal) :
    (j.serve calls).workspace = (Journal.serve ⟨j.workspace, j.log.close⟩ calls).workspace := by
  cases calls with
  | nil => rfl
  | cons c rest =>
    cases c with
    | openAt name created =>
      rw [Journal.serve_cons, Journal.serve_cons, LogCall.apply_openAt_of_close]
    | write line => exact absurd rfl (h line)
    | close => rfl

/-- What a log holds stays in its file when the next call is no line. -/
lemma Records.get?_serve (h : Records j place codec lines) (hcodec : j.log.codec? = some codec)
    (hhead : ∀ line, calls.head? ≠ some (.write line)) (hcalls : ∀ c ∈ calls, c.OpensNot place) :
    (j.serve calls).workspace.get? place = some (logged codec lines) := by
  have hclosed : (Journal.mk j.workspace j.log.close).log.codec? = some codec := hcodec
  rw [workspace_serve_closed hhead, get?_serve_of_elsewhere hclosed hcalls]
  · exact h.content
  · rintro log ⟨⟩

/-- **The lines of a file**: those that are written between the last call that opens it and the next
one that is no line. -/
def LastLines (calls : List LogCall) (place : Location) (lines : List String) : Prop :=
  ∃ (before : List LogCall) (name : String) (rest : List LogCall),
    calls = before ++ .openAt name (.ok place) :: (lines.map .write ++ rest) ∧
    (∀ line, rest.head? ≠ some (.write line)) ∧ ∀ c ∈ rest, c.OpensNot place

/-- **A file holds its last lines.** -/
theorem LastLines.get? (h : LastLines calls place lines) (encoding : String) (codec : Text.Codec)
    (w : Workspace) :
    ((Journal.mk w { encoding, codec? := some codec }).serve calls).workspace.get? place
      = some (logged codec lines) := by
  obtain ⟨before, name, rest, rfl, hhead, hrest⟩ := h
  rw [Journal.serve_append]
  have hcodec := codec?_serve (j := ⟨w, { encoding, codec? := some codec }⟩) rfl before
  generalize (Journal.mk w { encoding, codec? := some codec }).serve before = j at hcodec ⊢
  have hempty : Records ((LogCall.openAt name (.ok place)).apply j) place codec [] := by
    rw [LogCall.apply_openAt hcodec]
    exact records_opened _ _ _ _
  have hopened := (LogCall.openAt name (.ok place)).codec?_apply hcodec
  rw [Journal.serve_cons, Journal.serve_append]
  exact (hempty.serve_lines lines).get?_serve (codec?_serve hopened _) hhead hrest

/-- The lines in front of a history. -/
lemma exists_lines (calls : List LogCall) : ∃ (lines : List String) (rest : List LogCall),
    calls = lines.map .write ++ rest ∧ ∀ line, rest.head? ≠ some (.write line) := by
  induction calls with
  | nil => exact ⟨[], [], rfl, by simp⟩
  | cons c rest ih =>
    cases c with
    | write line =>
      obtain ⟨lines, rest', rfl, hhead⟩ := ih
      exact ⟨line :: lines, rest', rfl, hhead⟩
    | openAt name created => exact ⟨[], _, rfl, by simp⟩
    | close => exact ⟨[], _, rfl, by simp⟩

/-- **A file that is opened has last lines**, by induction on the history. -/
theorem exists_lastLines {name : String} (hmem : .openAt name (.ok place) ∈ calls) :
    ∃ lines, LastLines calls place lines := by
  induction calls generalizing name with
  | nil => cases hmem
  | cons c rest ih =>
    by_cases hagain : ∀ d ∈ rest, d.OpensNot place
    · -- the file is not opened in the rest, so the first call is the one that opens it
      rcases List.mem_cons.1 hmem with rfl | hrest
      · obtain ⟨lines, tail, rfl, hhead⟩ := exists_lines rest
        exact ⟨lines, [], name, tail, rfl, hhead, fun d hd =>
          hagain d (List.mem_append_right _ hd)⟩
      · exact absurd rfl (hagain _ hrest name)
    · simp only [LogCall.OpensNot, not_forall, not_not] at hagain
      obtain ⟨d, hd, other, rfl⟩ := hagain
      obtain ⟨lines, before, first, tail, rfl, hlast⟩ := ih hd
      exact ⟨lines, c :: before, first, tail, rfl, hlast⟩

/-! ## The result -/

/-- **What a history leaves**, of a sink with a codec that nobody else writes beside, whatever it is
asked for and in whatever order, and whatever comes of creating the files.

A log is open just when the sink has a path, and just when the last call that opens or closes is an
open that succeeds; its name is then the path.  An open that fails closes the log and changes no
file, and one that succeeds empties its file, which may be the one of the log that was open.

Every file that was opened holds its last lines: those that were written between the last call that
opened it and the next call that opened a log, failed to, or closed one, or the end, but for lines
that the encoding cannot express.  If the codec is seamless, the file is the text of these lines; so
it is in UTF-8, Latin-1 and ASCII, where the file has the bytes of each line and a newline behind
them.  All other files hold what they held.

In a workspace what comes of creating a file depends on the place that the name means, in whatever
spelling; and where that place is free stays decided by the folders. -/
theorem history_of_sink (encoding : String) (codec : Text.Codec) (w : Workspace)
    (calls : List LogCall) :
    let j := (Journal.mk w { encoding, codec? := some codec }).serve calls
    j.log.active = j.log.path?.isSome ∧
    (j.log.active = true ↔ ∃ name place, EndsOpen calls name place) ∧
    (∀ path, j.log.path? = some path ↔
      ∃ name place, EndsOpen calls name place ∧ path = Path.ofString name) ∧
    (∀ name created, (j.log.openAs j.workspace name created).2.2 = none ↔
      ∃ place, created = .ok place) ∧
    (∀ name e, (LogCall.openAt name (.error e)).apply j = ⟨j.workspace, j.log.close⟩) ∧
    (∀ name place, ((LogCall.openAt name (.ok place)).apply j).workspace.get? place = some []) ∧
    (∀ place lines, LastLines calls place lines →
      j.workspace.get? place = some (logged codec lines)) ∧
    (codec.IsSeamless → ∀ lines, codec.IsText (logged codec lines)
      (codec.expressed (lines.map LogSink.pieceOf)).flatten) ∧
    (∀ code, codec = .ofEncoding code → codec.IsSeamless ∧ ∀ lines, logged codec lines
      = lines.flatMap fun line => ((code.encode line.toList).map (· ++ [10])).getD []) ∧
    (∀ name place, .openAt name (.ok place) ∈ calls → ∃ lines, LastLines calls place lines) ∧
    (∀ place, (∀ name, .openAt name (.ok place) ∉ calls) →
      j.workspace.get? place = w.get? place) ∧
    (j.workspace.home = w.home ∧ j.workspace.folders = w.folders) ∧
    (∀ name, j.log.openAt j.workspace name
        = j.log.openAs j.workspace name (j.workspace.createLog name) ∧
      j.workspace.logFile? name = w.logFile? name) ∧
    (∀ name other, Location.ofText w.home name = Location.ofText w.home other →
      j.workspace.createLog name = j.workspace.createLog other) ∧
    ∀ name place, w.home.IsProper → j.workspace.createLog name = .ok place →
      place = Location.ofText w.home name := by
  intro j
  have hbegins : (Journal.mk w { encoding, codec? := some codec }).log.codec? = some codec := rfl
  have hcodec : j.log.codec? = some codec := codec?_serve hbegins calls
  have halike := alike_serve hbegins calls
  have hhome : j.workspace.home = w.home := halike.home
  have hpath := path?_serve encoding codec w calls
  have hactive : j.log.active = j.log.path?.isSome := by
    rw [LogSink.active, LogSink.path?, Option.isSome_map]
  refine ⟨hactive, ?_, hpath, openAs_failure_eq_none_iff hcodec, fun name e => rfl,
    fun name place => ?_, fun place lines hlines => hlines.get? encoding codec w,
    fun hseamless lines => hseamless _, ?_, fun name place => exists_lastLines,
    fun place hplace => ?_,
    ⟨hhome, halike.folders⟩, fun name => ⟨rfl, halike.logFile?_eq name⟩, ?_, ?_⟩
  · rw [hactive, Option.isSome_iff_exists]
    constructor
    · rintro ⟨path, hsome⟩
      obtain ⟨name, place, hends, -⟩ := (hpath path).1 hsome
      exact ⟨name, place, hends⟩
    · rintro ⟨name, place, hends⟩
      exact ⟨_, (hpath _).2 ⟨name, place, hends, rfl⟩⟩
  · rw [LogCall.apply_openAt hcodec]
    exact (records_opened _ _ place codec).content
  · rintro code rfl
    exact ⟨Text.Codec.isSeamless_ofEncoding code, logged_ofEncoding code⟩
  · refine get?_serve_of_elsewhere hbegins (fun c hc name hname => ?_) ?_
    · exact hplace name (hname ▸ hc)
    · rintro log ⟨⟩
  · exact fun name other h => Workspace.createLog_congr (hhome ▸ h)
  · intro name place hproper hcreated
    rw [← hhome] at hproper ⊢
    exact Workspace.place_of_createLog hproper hcreated

/-- A log that is switched.  Its file cannot be opened again at first, and then it can, in another
spelling. -/
theorem history_of_sink_switched :
    let w : Workspace := { home := ["work"], files := [(["work", "notes"], [1])] }
    let a : Except FileError Location := .ok ["work", "a"]
    let b : Except FileError Location := .ok ["work", "b"]
    let first : List LogCall := [.openAt "a" a, .write "one"]
    let last : List LogCall := [.openAt "a" (.error .missing), .write "lost", .openAt "./a" a,
      .write "\u00e9", .write "\u2026"]
    let j := (Journal.mk w { encoding := "latin-1", codec? := some (.ofEncoding .latin1) }).serve
      (first ++ .openAt "b" b :: (["two"].map .write ++ last))
    Text.Codec.ofName? "latin-1" = some (.ofEncoding .latin1) ∧
      w.createLog "./a" = a ∧ w.createLog "b" = b ∧
      j.log.path? = some (Path.ofString "./a") ∧
      j.workspace.get? ["work", "a"] = some [0xe9, 10] ∧
      j.workspace.get? ["work", "b"] = some [0x74, 0x77, 0x6f, 10] ∧
      j.workspace.get? ["work", "notes"] = some [1] := by
  intro w a b first last j
  obtain ⟨-, -, hpath, -, -, -, hlines, -, -, -, hother, -⟩ := history_of_sink "latin-1"
    (.ofEncoding .latin1) w (first ++ .openAt "b" b :: (["two"].map .write ++ last))
  refine ⟨rfl, by decide +kernel, by decide +kernel, ?_, ?_, ?_, ?_⟩
  · refine (hpath _).2 ⟨"./a", ["work", "a"], ⟨first ++ .openAt "b" b ::
      (["two"].map .write ++ last.take 2), ["\u00e9", "\u2026"], ?_⟩, rfl⟩
    rfl
  · refine hlines ["work", "a"] ["\u00e9", "\u2026"] ⟨first ++ .openAt "b" b ::
      (["two"].map .write ++ last.take 2), "./a", [], ?_, by simp, by simp⟩
    rfl
  · refine hlines ["work", "b"] ["two"] ⟨first, "b", last, rfl, by simp [last], ?_⟩
    rintro c hc name rfl
    simp [last, a] at hc
  · refine hother ["work", "notes"] fun name hname => ?_
    simp [first, last, a, b] at hname

/-- **A file that is not the text of its lines.**  Each line is one piece to the codec, and Punycode
puts a hyphen behind every piece; a reader finds the one between the lines. -/
theorem exists_history_with_seams :
    let w : Workspace := { home := ["w"] }
    let calls : List LogCall := [.openAt "f" (.ok ["w", "f"]), .write "abc", .write "def", .close]
    let j := (Journal.mk w { encoding := "punycode", codec? := some .punycode }).serve calls
    let bytes := fun text : String => text.toList.map fun c => UInt8.ofNat c.toNat
    Text.Codec.ofName? "punycode" = some .punycode ∧ ¬ Text.Codec.punycode.IsSeamless ∧
      w.createLog "f" = .ok ["w", "f"] ∧ LastLines calls ["w", "f"] ["abc", "def"] ∧
      j.workspace.get? ["w", "f"] = some (bytes "abc\n-def\n-") ∧
      Text.Codec.punycode.encodeAfter [] "abc\ndef\n".toList = some (bytes "abc\ndef\n-") ∧
      Text.Codec.punycode.decode (bytes "abc\n-def\n-") = .ok "abc\n-def\n".toList := by
  intro w calls j bytes
  refine ⟨rfl, Text.Codec.not_isSeamless_punycode, by decide +kernel,
    ⟨[], "f", [.close], rfl, by simp, by simp [LogCall.OpensNot]⟩, ?_, ?_, ?_⟩ <;>
  decide +kernel

end

end Session

end AutomatonShell
