import AutomatonShell.Path
import AutomatonShell.Platform
import AutomatonShell.Text.Case
import AutomatonShell.Text.Quoted

/-!
# Configurations

A session is configured by a few settings.  Not every combination makes sense; the ones that do are
configurations.

* `Settings` — what can be chosen, with its defaults.
* `ConfigError` — why settings make no configuration, with its wording.
* `Config` and `Settings.validate` — settings that passed the checks on a platform, with what that
  makes of the pattern.
* `Config.resolve`, `isBinary`, `isCompileTarget` — what a configuration says of a file name.
* `Config.codec?` — what the platform makes of the name of the encoding.
-/

namespace AutomatonShell

/-- What can be chosen about a session. -/
structure Settings where
  /-- What is shown before a command is read. -/
  prompt : String := "? "
  /-- The endings of the names of compiled automata. -/
  binarySuffixes : List String := [".bin", ".fsm"]
  /-- The pattern of the names an automaton may be compiled to. -/
  compilePattern : String := "^[A-Za-z0-9._-]+\\.(fsm|bin)$"
  /-- What begins a comment. -/
  commentPrefix : String := "#"
  /-- The name of the encoding of text files. -/
  encoding : String := "utf-8"
  /-- The folder that relative file names are taken relative to. -/
  workDir : Option Path := none
  deriving Repr, DecidableEq

/-- Why settings make no configuration. -/
inductive ConfigError where
  | noSuffixes
  | badSuffix (suffix : String)
  | badPattern (error : PatternError)
  | emptyCommentPrefix
  | separatorInCommentPrefix
  deriving Repr, DecidableEq

/-- The wording of a configuration error. -/
def ConfigError.message : ConfigError → String
  | .noSuffixes => "binary_suffixes must not be empty"
  | .badSuffix suffix =>
    "binary suffix must be lowercase and start with '.': " ++ Text.quoted suffix
  | .badPattern e => "compile_pattern is not a valid regex: " ++ e.message
  | .emptyCommentPrefix => "comment_prefix must not be empty"
  | .separatorInCommentPrefix => "comment_prefix must not contain the statement separator"

/-- Settings that passed the checks. -/
structure Config extends Settings where
  /-- What the session relies on. -/
  platform : Platform := .standard
  /-- The names that the compile pattern accepts. -/
  accepts : String → Bool

/-- Whether a text can end the names of compiled automata: it starts with a dot and is in lower
case. -/
def isSuffix (suffix : String) : Bool :=
  suffix.toList.head? == some '.' && Text.lower suffix == suffix

/-- **The checks on settings**, in the order in which their errors are reported. -/
def Settings.validate (s : Settings) (platform : Platform := .standard) :
    Except ConfigError Config :=
  if s.binarySuffixes.isEmpty then .error .noSuffixes
  else
    match s.binarySuffixes.find? fun suffix => !isSuffix suffix with
    | some suffix => .error (.badSuffix suffix)
    | none =>
      match platform.pattern s.compilePattern with
      | .error e => .error (.badPattern e)
      | .ok accepts =>
        if s.commentPrefix = "" then .error .emptyCommentPrefix
        else if s.commentPrefix.toList.contains ';' then .error .separatorInCommentPrefix
        else .ok { s with platform, accepts }

namespace Config

/-- The configuration of the default settings. -/
def standard : Config := { accepts := Pattern.archiveNames.accepts }

/-- The path a file name stands for. -/
def resolve (c : Config) (name : String) : Path :=
  match c.workDir with
  | none => .ofString name
  | some folder => folder.join (.ofString name)

/-- Whether a file name is that of a compiled automaton, in any letter case. -/
def isBinary (c : Config) (name : String) : Bool :=
  let lowered := (Text.lower name).toList
  c.binarySuffixes.any fun suffix => suffix.toList.isSuffixOf lowered

/-- Whether an automaton may be compiled to a file name. -/
def isCompileTarget (c : Config) (name : String) : Bool := c.accepts name

/-- The codec of text files, if the platform knows the encoding. -/
def codec? (c : Config) : Option Text.Codec := c.platform.codec? c.encoding

/-- What arrays are written and read with. -/
def library (c : Config) : Snapshot.Library := c.platform.library

end Config

/-- The default pattern is the one of archive names. -/
theorem parse_default :
    (Pattern.parse ({} : Settings).compilePattern).toOption = some .archiveNames := by
  decide +kernel

/-- What the default pattern accepts. -/
theorem pattern_default :
    Platform.standard.pattern ({} : Settings).compilePattern
      = .ok Pattern.archiveNames.accepts := by
  rw [Platform.pattern_standard]
  have hparse := parse_default
  generalize Pattern.parse ({} : Settings).compilePattern = parsed at hparse ⊢
  cases parsed with
  | error e => cases hparse
  | ok pattern => cases hparse; rfl

/-- Settings with the default endings pass the checks if the pattern is right and the marker of
comments has a character and no separator. -/
theorem validate_eq_ok {s : Settings} {platform : Platform} {accepts : String → Bool}
    (hsuffixes : s.binarySuffixes = [".bin", ".fsm"])
    (hpattern : platform.pattern s.compilePattern = .ok accepts)
    (hmarker : s.commentPrefix ≠ "" ∧ s.commentPrefix.toList.contains ';' = false) :
    s.validate platform = .ok { s with platform, accepts } := by
  have hfind : s.binarySuffixes.find? (!isSuffix ·) = none := by
    rw [hsuffixes]
    decide +kernel
  rw [Settings.validate, if_neg (by simp [hsuffixes]), hfind, hpattern]
  dsimp only
  rw [if_neg hmarker.1, hmarker.2]
  rfl

/-- The default settings pass the checks with any encoding, and their pattern is the one of archive
names. -/
theorem validate_encoding (encoding : String) :
    ({ encoding } : Settings).validate = .ok { Config.standard with encoding } :=
  validate_eq_ok rfl pattern_default
    ⟨show "#" ≠ "" by decide, show "#".toList.contains ';' = false by decide⟩

theorem validate_standard : ({} : Settings).validate = .ok Config.standard :=
  validate_encoding "utf-8"

end AutomatonShell
