import AutomatonShell.Path
import AutomatonShell.Text.Digit
import AutomatonShell.Text.Lines

/-!
# Command-line arguments

The command line names files to load, commands to run, a log, a working directory and a few flags.

* Options may stand before, between and behind the files, but the files must stand together.
* A long option may be shortened as long as it is clear which one is meant, and takes its value
  behind an equals sign or as the next argument.
* Short options take their value in the same argument or as the next one, and flags may share one
  argument.
* A value in the same argument that is `--` counts as no value.
* Behind `--` everything is a file.
* A negative number, and anything with a space in it, is no option.

* `Switch` — the options; `Invocation` — what a command line asks for.
* `Invocation.parse` — the reading of a command line: what it asks for, or that the program ends
  with the version, the help or a usage error.
-/

namespace AutomatonShell

/-- What can be asked for on the command line besides files. -/
inductive Switch where
  | help
  | execute
  | log
  | workDir
  | verbose
  | version
  deriving Repr, DecidableEq

namespace Switch

/-- The spellings of the options, short ones with one hyphen and long ones with two. -/
def spellings : List (String × Switch) :=
  [("-h", help), ("--help", help), ("-e", execute), ("--execute", execute), ("--log", log),
    ("--work-dir", workDir), ("-v", verbose), ("--verbose", verbose), ("--version", version)]

/-- The option of a spelling. -/
def ofSpelling? (text : String) : Option Switch := spellings.lookup text

/-- Whether an option has a value. -/
def takesValue : Switch → Bool
  | execute | log | workDir => true
  | help | verbose | version => false

end Switch

/-- What a command line asks for. -/
structure Invocation where
  /-- The files to load, in order. -/
  files : List String := []
  /-- The commands to run, in order. -/
  commands : List String := []
  /-- Whether a further command was asked for and none was given. -/
  commandMissing : Bool := false
  /-- The log to open first. -/
  log : Option String := none
  /-- The folder that relative file names are taken relative to. -/
  workDir : Option Path := none
  /-- Whether a folder was asked for and none was given. -/
  folderMissing : Bool := false
  /-- Whether progress is to be reported in detail. -/
  verbose : Bool := false
  deriving Repr, DecidableEq

/-- Why a program ends before it has begun. -/
inductive Ending where
  /-- The version was asked for. -/
  | version
  /-- Help was asked for. -/
  | help
  /-- The command line is wrong. -/
  | usage
  deriving Repr, DecidableEq

namespace Invocation

/-! ## What an argument is -/

/-- What an argument holds behind the name of its option. -/
inductive Tail where
  | nothing
  /-- Text behind a short name, less an equals sign in front: a value or further options. -/
  | letters (text : List Char)
  /-- Text behind a long name and an equals sign. -/
  | value (text : List Char)
  deriving Repr, DecidableEq

/-- What an argument looks like. -/
inductive Argument where
  /-- A file, or the value of an option. -/
  | plain (text : String)
  /-- The mark behind which everything is a file. -/
  | divider
  /-- An option, and what the same argument holds behind its name. -/
  | switch (option : Switch) (tail : Tail)
  /-- Something that looks like an option and is none. -/
  | unknown
  deriving Repr, DecidableEq

/-- Whether a text is a negative number, whole or with a point.  A newline behind it does not
count. -/
def isNegativeNumber (text : String) : Bool :=
  match Text.withoutFinalNewline text.toList with
  | '-' :: number =>
    match number.dropWhile Text.isDecimalDigit with
    | [] => !number.isEmpty
    | '.' :: places => !places.isEmpty && places.all Text.isDecimalDigit
    | _ => false
  | _ => false

/-- What stands behind the name of an option that is spelled out. -/
def Tail.ofSpelledOut (isLong : Bool) : List Char → Tail
  | [] => .nothing
  | _ :: text => if isLong then .value text else .letters text

/-- The options that an argument may mean, with what stands behind their names.  The name of a long
option ends at an equals sign and may be shortened; that of a short one is two characters long. -/
def candidates (text : List Char) : List (Switch × Tail) :=
  if "--".toList.isPrefixOf text then
    let name := text.takeWhile (· != '=')
    (Switch.spellings.filter fun s => name.isPrefixOf s.1.toList).map fun s =>
      (s.2, .ofSpelledOut true (text.dropWhile (· != '=')))
  else
    (Switch.spellings.filter fun s => s.1.toList == text.take 2).map fun s =>
      (s.2, .letters (text.drop 2))

/-- What an argument in front of the divider looks like; a usage error if it may mean several
options. -/
def classify (text : String) : Except Ending Argument :=
  let chars := text.toList
  if chars.head? ≠ some '-' || chars.length = 1 then .ok (.plain text)
  else
    match Switch.ofSpelling? (String.ofList (chars.takeWhile (· != '='))) with
    | some option =>
      let isLong := "--".toList.isPrefixOf chars
      .ok (.switch option (.ofSpelledOut isLong (chars.dropWhile (· != '='))))
    | none =>
      match candidates chars with
      | [(option, tail)] => .ok (.switch option tail)
      | _ :: _ :: _ => .error .usage
      | [] => .ok (if isNegativeNumber text || chars.contains ' ' then .plain text else .unknown)

/-- What each argument of a command line looks like. -/
def classifyAll : List String → Except Ending (List Argument)
  | [] => .ok []
  | text :: rest =>
    if text = "--" then .ok (.divider :: rest.map .plain)
    else do return (← classify text) :: (← classifyAll rest)

/-! ## What the arguments ask for -/

/-- The reading of a command line so far. -/
structure Progress where
  /-- What was asked for. -/
  invocation : Invocation := {}
  /-- Whether the files have been read. -/
  filesRead : Bool := false
  /-- Whether there was something that nothing can be done with. -/
  leftOver : Bool := false

/-- An option carried out; the version and the help end the program at once.  No command is run
behind one that is missing. -/
def Progress.apply (p : Progress) (option : Switch) (value : Option String) :
    Except Ending Progress :=
  let i := p.invocation
  match option, value with
  | .help, _ => .error .help
  | .version, _ => .error .version
  | .verbose, _ => .ok { p with invocation := { i with verbose := true } }
  | .execute, none => .ok { p with invocation := { i with commandMissing := true } }
  | .execute, some command =>
    if i.commandMissing then .ok p
    else .ok { p with invocation := { i with commands := i.commands ++ [command] } }
  | .log, log => .ok { p with invocation := { i with log } }
  | .workDir, folder =>
    .ok { p with
      invocation := { i with workDir := folder.map .ofString, folderMissing := folder.isNone } }

/-- Files that stand together.  A second group of them is left over. -/
def Progress.takeFiles (p : Progress) (files : List String) : Progress :=
  if p.filesRead then { p with leftOver := true }
  else { p with invocation := { p.invocation with files }, filesRead := true }

/-- Options carried out one after the other. -/
def Progress.applyAll (p : Progress) : List (Switch × Option String) → Except Ending Progress
  | [] => .ok p
  | (option, value) :: rest => do (← p.apply option value).applyAll rest

/-- A value that stands in the same argument as its option. -/
def attachedValue (text : List Char) : Option String :=
  if text = ['-', '-'] then none else some (String.ofList text)

/-- What one argument asks for: options that are complete, and an option that waits for its value
in the next argument. -/
abbrev Request := List (Switch × Option String) × Option Switch

/-- An option with nothing behind its name. -/
def bareOption (option : Switch) : Request :=
  if option.takesValue then ([], some option) else ([(option, none)], none)

/-- A short option with text behind its name: its value, or if it has none, the letters of further
short options. -/
def shortOptions (option : Switch) (text : List Char) : Except Ending Request :=
  if option.takesValue then .ok ([(option, attachedValue text)], none)
  else
    match text with
    | [] => .error .usage
    | c :: rest =>
      match Switch.ofSpelling? (String.ofList ['-', c]) with
      | none => .error .usage
      | some next => do
        let (options, waiting) ←
          if rest.isEmpty then .ok (bareOption next) else shortOptions next rest
        return ((option, none) :: options, waiting)

/-- What an argument with an option asks for.  A flag has no value. -/
def requestOf (option : Switch) : Tail → Except Ending Request
  | .nothing => .ok (bareOption option)
  | .letters text => shortOptions option text
  | .value text =>
    if option.takesValue then .ok ([(option, attachedValue text)], none) else .error .usage

/-- A request completed with the next argument if an option waits for its value.  Returns the
options and the arguments that are left. -/
def supply : Request → List Argument →
    Except Ending (List (Switch × Option String) × List Argument)
  | (options, none), rest => .ok (options, rest)
  | (options, some waiting), .plain value :: rest => .ok (options ++ [(waiting, some value)], rest)
  | (_, some _), _ => .error .usage

/-- The plain arguments that stand together at the front, without dividers, and those behind. -/
def leadingPlain : List Argument → List String × List Argument
  | .plain text :: rest => let (files, rest) := leadingPlain rest; (text :: files, rest)
  | .divider :: rest => let (files, rest) := leadingPlain rest; (files, rest)
  | rest => ([], rest)

/-- The arguments taken in from left to right; `limit` bounds their number. -/
def Progress.takeAll (p : Progress) : (limit : Nat) → List Argument → Except Ending Progress
  | 0, _ => .ok p
  | limit + 1, arguments =>
    match arguments with
    | [] => .ok p
    | .unknown :: rest => takeAll { p with leftOver := true } limit rest
    | .switch option tail :: rest => do
      let (options, rest) ← supply (← requestOf option tail) rest
      let p ← p.applyAll options
      takeAll p limit rest
    | arguments =>
      let (files, rest) := leadingPlain arguments
      (p.takeFiles files).takeAll limit rest

/-- How the program is called. -/
def usage : String :=
  "usage: pydfa [-h] [-e COMMAND] [--log FILE] [--work-dir DIR] [-v] [--version] [FILE ...]"

/-- **What a command line asks for**, or why the program ends at once. -/
def parse (arguments : List String) : Except Ending Invocation := do
  let arguments ← classifyAll arguments
  let p ← ({} : Progress).takeAll (arguments.length + 1) arguments
  if p.leftOver then .error .usage else .ok p.invocation

end Invocation

end AutomatonShell
