import AutomatonShell.Proofs.Codecs

/-!
# Lines handed to a log

An open log hands its lines to the codec one after the other, and puts what they add behind what it
has written before.  So handing over some lines and then some more is handing over all of them
(`putInto_append`), and where nobody else writes the file, the file of the log is what the codec
makes of its lines.

* `OpenLog.added`, `OpenLog.handed`, `OpenLog.putInto` — what lines add to the file, and the log and
  the files with the lines handed over.
* `LogSink.write_of_current` — one line is handed over.
* `logged` — **the content of a log** of some lines.
-/

namespace AutomatonShell

namespace OpenLog

variable {log : OpenLog} {w : Workspace} {place : Location}

/-- What some lines add to the file of an open log. -/
def added (log : OpenLog) (lines : List String) : List UInt8 :=
  log.codec.writtenAfter log.given (lines.map LogSink.pieceOf)

/-- An open log with some lines handed over. -/
def handed (log : OpenLog) (lines : List String) : OpenLog :=
  { log with
    given := log.given ++ lines.map LogSink.pieceOf
    position := log.position + (log.added lines).length }

/-- The files with some lines handed over. -/
def putInto (log : OpenLog) (w : Workspace) (lines : List String) : Workspace :=
  if (log.added lines).isEmpty then w
  else
    w.put log.place
      (LogSink.overwrite ((w.get? log.place).getD []) log.position (log.added lines))

lemma added_append (log : OpenLog) (first second : List String) :
    log.added (first ++ second) = log.added first ++ (log.handed first).added second := by
  rw [added, List.map_append, Text.Codec.writtenAfter_append]
  rfl

lemma handed_append (log : OpenLog) (first second : List String) :
    (log.handed first).handed second = log.handed (first ++ second) := by
  rw [handed, handed, handed, added_append]
  simp [handed, Nat.add_assoc]

lemma putInto_of_isEmpty (h : log.added lines = []) : log.putInto w lines = w := by
  rw [putInto, h]
  rfl

lemma putInto_of_ne_nil (h : log.added lines ≠ []) :
    log.putInto w lines = w.put log.place
      (LogSink.overwrite ((w.get? log.place).getD []) log.position (log.added lines)) :=
  if_neg (by simpa using h)

lemma home_putInto (log : OpenLog) (w : Workspace) (lines : List String) :
    (log.putInto w lines).home = w.home := by
  rw [putInto]
  split_ifs <;> rfl

lemma folders_putInto (log : OpenLog) (w : Workspace) (lines : List String) :
    (log.putInto w lines).folders = w.folders := by
  rw [putInto]
  split_ifs <;> rfl

lemma get?_putInto_of_ne (h : place ≠ log.place) (lines : List String) :
    (log.putInto w lines).get? place = w.get? place := by
  rw [putInto]
  split_ifs
  · rfl
  · exact Workspace.get?_put_of_ne w _ h

/-- What becomes of the file of the log depends on nothing but its content. -/
lemma get?_putInto_congr {w' : Workspace} (h : w.get? log.place = w'.get? log.place)
    (lines : List String) :
    (log.putInto w lines).get? log.place = (log.putInto w' lines).get? log.place := by
  rw [putInto, putInto, h]
  split_ifs
  · exact h
  · rw [Workspace.get?_put_self, Workspace.get?_put_self]

lemma replaceIn_replaceIn (place : Location) (old new : List UInt8)
    (files : List (Location × List UInt8)) :
    Workspace.replaceIn place new (Workspace.replaceIn place old files)
      = Workspace.replaceIn place new files := by
  induction files with
  | nil => simp [Workspace.replaceIn]
  | cons file rest ih => by_cases h : file.1 = place <;> simp [Workspace.replaceIn, h, ih]

/-- Bytes written behind bytes that were written are written together with them. -/
lemma overwrite_overwrite (content : List UInt8) (position : Nat) (first second : List UInt8) :
    LogSink.overwrite (LogSink.overwrite content position first) (position + first.length) second
      = LogSink.overwrite content position (first ++ second) := by
  have hfront : (content.take position ++ List.replicate (position - content.length) 0).length
      = position := by
    simp only [List.length_append, List.length_take, List.length_replicate]
    omega
  simp only [LogSink.overwrite]
  generalize content.take position ++ List.replicate (position - content.length) 0 = front
    at hfront ⊢
  subst hfront
  simp [List.take_append, List.drop_append, Nat.add_assoc, List.take_of_length_le,
    List.drop_eq_nil_of_le]

/-- **Some lines and then some more.** -/
lemma putInto_append (log : OpenLog) (w : Workspace) (first second : List String) :
    (log.handed first).putInto (log.putInto w first) second = log.putInto w (first ++ second) := by
  have hall := log.added_append first second
  by_cases hfirst : log.added first = []
  · have hposition : (log.handed first).position = log.position := by simp [handed, hfirst]
    rw [hfirst, List.nil_append] at hall
    rw [putInto_of_isEmpty hfirst, putInto, putInto, hall, hposition]
    rfl
  by_cases hsecond : (log.handed first).added second = []
  · rw [putInto_of_isEmpty hsecond, putInto, putInto, hall, hsecond, List.append_nil]
  · have hput : ∀ old new : List UInt8, (w.put log.place old).put log.place new
        = w.put log.place new := fun old new => by
      simp only [Workspace.put, replaceIn_replaceIn]
    rw [putInto_of_ne_nil hsecond, putInto_of_ne_nil hfirst,
      putInto_of_ne_nil (by simp [hall, hfirst])]
    simp only [handed, Workspace.get?_put_self, Option.getD_some, overwrite_overwrite, hput, hall]

end OpenLog

namespace LogSink

variable {sink : LogSink}

lemma write_of_closed (h : sink.current = none) (w : Workspace) (line : String) :
    sink.write w line = (w, sink) := by
  rw [write, h]

/-- **A line is handed over** to an open log. -/
lemma write_of_current {log : OpenLog} (h : sink.current = some log) (w : Workspace)
    (line : String) :
    sink.write w line
      = (log.putInto w [line], { sink with current := some (log.handed [line]) }) := by
  have hadded : log.added [line]
      = (log.codec.encodeAfter log.given (pieceOf line)).getD [] :=
    Text.Codec.writtenAfter_singleton _ _ _
  rw [write, h]
  simp only [OpenLog.putInto, OpenLog.handed, hadded]
  rfl

end LogSink

/-- **The content of a log**: what a codec makes of the lines, each with a newline behind it.  A
line that cannot be expressed is missing. -/
def logged (codec : Text.Codec) (lines : List String) : List UInt8 :=
  codec.written (lines.map LogSink.pieceOf)

/-- In a codec that writes character by character, a log holds the bytes of each line and a newline
behind them. -/
lemma logged_ofEncoding (code : Text.Encoding) (lines : List String) :
    logged (.ofEncoding code) lines
      = lines.flatMap fun line => ((code.encode line.toList).map (· ++ [10])).getD [] := by
  have hline : ∀ line : String, code.encode (LogSink.pieceOf line)
      = (code.encode line.toList).map (· ++ [10]) := by
    intro line
    cases code with
    | utf8 => simp only [LogSink.pieceOf, Text.Encoding.encode, List.flatMap_append]; rfl
    | latin1 | ascii =>
      simp only [LogSink.pieceOf, Text.Encoding.encode, List.mapM_append]
      cases line.toList.mapM (Text.Encoding.encodeBelow _) <;> rfl
  rw [logged, Text.Codec.written, Text.Codec.writtenAfter_ofEncoding, List.flatMap_map]
  simp only [hline]

end AutomatonShell
