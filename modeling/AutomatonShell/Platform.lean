import AutomatonShell.Pattern.Parser
import AutomatonShell.Snapshot
import AutomatonShell.Text.Codec

/-!
# Platforms

A session relies on three things that do not belong to it: codecs for text files, patterns for the
names of files, and a library for files of arrays.  A platform is any choice of them.

* `Platform` — codecs and patterns by their names, and a library.
* `Platform.standard` — what is built in.
-/

namespace AutomatonShell

/-- What a session relies on. -/
structure Platform where
  /-- The codec that a name stands for. -/
  codec? : String → Option Text.Codec := Text.Codec.ofName?
  /-- The names that a pattern accepts, unless the pattern is wrong. -/
  pattern : String → Except PatternError (String → Bool) :=
    fun text => (Pattern.parse text).map Pattern.accepts
  /-- What arrays are written and read with. -/
  library : Snapshot.Library := .standard

/-- What is built in. -/
def Platform.standard : Platform := {}

/-- Patterns that are built in accept what they match. -/
theorem Platform.pattern_standard (text : String) :
    Platform.standard.pattern text = (Pattern.parse text).map Pattern.accepts := rfl

end AutomatonShell
