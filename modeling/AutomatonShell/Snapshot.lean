import AutomatonShell.Archive.Directory
import AutomatonShell.Automaton.Basic
import AutomatonShell.Workspace

/-!
# Snapshots

A snapshot stores an automaton as an archive of seven named arrays: a magic text, the version of the
format, the symbols, the states, at most one initial state, the final states, and the transitions as
rows of symbol, source and target.

* `Snapshot.arrays` — the arrays of an automaton.
* `Snapshot.toAutomaton` — the automaton of some arrays, or the first rule they break.  It declares
  everything anew, so what it returns is as well formed as if it had been typed.
* `Snapshot.Library` — what writes arrays to a file and reads them back; the one that is built in is
  `Library.standard`.
* `Snapshot.encode`, `Snapshot.decode` — the file of an automaton, and back.
* `Workspace.saveSnapshot`, `Workspace.loadSnapshot` — the same through a file.
-/

namespace AutomatonShell

open Archive

/-- Why a file is no snapshot. -/
inductive SnapshotError where
  /-- The file is no archive. -/
  | notSnapshot (path : String)
  /-- Arrays are missing from the archive. -/
  | missingEntries (names : List String)
  /-- An array cannot be read. -/
  | corrupt (path : String)
  /-- The magic text is another one. -/
  | magicMismatch
  /-- The version is not one integer. -/
  | versionNotInteger
  /-- The version is a span of time that is no number, but a value of another kind. -/
  | notNumber (kind : String)
  /-- The version is another one. -/
  | unsupportedVersion (version : Int)
  /-- An array that lists names has another shape. -/
  | notOneDimensional (name : String)
  /-- The transitions do not come in rows of three. -/
  | transitionsShape
  /-- There is more than one initial state. -/
  | manyInitialStates
  /-- A state is listed twice. -/
  | duplicateStates
  /-- What is listed as a symbol is none, or is not in upper case. -/
  | invalidSymbol (label : Label)
  /-- The initial or a final state is not listed. -/
  | unknownState (state : Label)
  /-- A declaration is refused. -/
  | refused (error : ModelError)
  /-- What is listed as a state is not even a text. -/
  | garbledState (label : Label)
  /-- What a transition gives as its symbol is not even a text. -/
  | garbledSymbol (label : Label)
  /-- State names are not in upper case. -/
  | notCanonical
  /-- A member of the archive is no array. -/
  | notArray
  /-- The reading of the archive broke off. -/
  | unreadable (fault : ReadFault)
  deriving Repr, DecidableEq

/-- The wording of a snapshot error. -/
def SnapshotError.message : SnapshotError → String
  | .notSnapshot path => "not a snapshot file: " ++ path
  | .missingEntries names => "snapshot missing entries: " ++ Text.quotedList names
  | .corrupt path => "corrupt snapshot file: " ++ path
  | .magicMismatch => "snapshot magic mismatch"
  | .versionNotInteger => "snapshot version must be a single integer"
  | .notNumber kind =>
    "int() argument must be a string, a bytes-like object or a real number, not '" ++ kind ++ "'"
  | .unsupportedVersion version => "unsupported snapshot version: " ++ toString version
  | .notOneDimensional name => name ++ " must be one-dimensional"
  | .transitionsShape => "transitions must have shape (n, 3)"
  | .manyInitialStates => "snapshot holds more than one initial state"
  | .duplicateStates => "snapshot holds duplicate states"
  | .invalidSymbol label => "invalid symbol in snapshot: " ++ label.quoted
  | .unknownState state => "snapshot references unknown state: " ++ state.readable
  | .refused e => e.message
  | .garbledState label => "state name must be alphanumeric, got " ++ label.quoted
  | .garbledSymbol label => "symbol must be a single alphanumeric character, got " ++ label.quoted
  | .notCanonical => "snapshot state names are not canonical"
  | .notArray => "'bytes' object has no attribute 'ndim'"
  | .unreadable f => f.message

namespace Snapshot

/-- The text every snapshot holds. -/
def magicText : String := "pydfa-snapshot"

/-- The version of the format. -/
def formatVersion : Int := 1

/-- The arrays of a snapshot, by their names in the archive. -/
def entryNames : List String :=
  ["magic", "format_version", "symbols", "states", "initial_state", "final_states", "transitions"]

/-- What a member of an archive holds: an array, or bytes that are none. -/
inductive Entry where
  | array (a : NdArray)
  | raw
  deriving Repr, DecidableEq

/-! ## From an automaton to arrays and back -/

/-- **The arrays of an automaton**, with their names.  Symbols, states and transitions keep their
order; final states are sorted. -/
def arrays (a : Automaton) : List (String × NdArray) :=
  [("magic", NdArray.texts [] [magicText]),
    ("format_version", ⟨.int64, [], [.int formatVersion]⟩),
    ("symbols", .row a.symbols),
    ("states", .row a.states),
    ("initial_state", .row a.initial.toList),
    ("final_states", .row (Automaton.sorted a.finals)),
    ("transitions", .texts [a.transitions.length, 3]
      (a.transitions.flatMap fun t => [t.symbol, t.source, t.target]))]

/-- The array of a name among the members of an archive.  Of several the last one counts. -/
def arrayOf (entries : List (String × Entry)) (name : String) : Except SnapshotError NdArray :=
  match entries.reverse.lookup name with
  | some (.array a) => .ok a
  | some .raw => .error .notArray
  | none => .error (.missingEntries [name])

/-- The array of a name, if it has one dimension. -/
def rowOf (entries : List (String × Entry)) (name : String) : Except SnapshotError NdArray := do
  let a ← arrayOf entries name
  if a.shape.length ≠ 1 then .error (.notOneDimensional name) else .ok a

/-- The array of transitions, if it comes in rows of three. -/
def tableOf (entries : List (String × Entry)) : Except SnapshotError NdArray := do
  let a ← arrayOf entries "transitions"
  match a.shape with
  | [_, 3] => .ok a
  | _ => .error .transitionsShape

/-- The labels of an array, unless there is one that cannot be taken over. -/
def labelsOf (a : NdArray) : Except SnapshotError (List Label) :=
  if a.labels.any Label.isBeyond then .error (.unreadable .codeOutOfRange) else .ok a.labels

/-- Labels taken three at a time. -/
def rows : List Label → List (Label × Label × Label)
  | symbol :: source :: target :: rest => (symbol, source, target) :: rows rest
  | _ => []

/-- Whether elements of a kind pass for integers.  Spans of time do. -/
def isInteger : ElementKind → Bool
  | .signed | .unsigned | .span => true
  | _ => false

/-- The number that a version is.  A span of time need not be one: it may be none, or have a
unit. -/
def versionOf (a : NdArray) : Except SnapshotError Int :=
  match a.values with
  | [.int n] => .ok n
  | [.none] => .error (.notNumber "NoneType")
  | _ => .error (.notNumber "datetime.timedelta")

/-- Whether the magic text and the version are the right ones. -/
def checkFormat (entries : List (String × Entry)) : Except SnapshotError Unit := do
  let magic ← arrayOf entries "magic"
  if magic.shape ≠ [] then .error .magicMismatch
  else if (← labelsOf magic) ≠ [.text magicText] then .error .magicMismatch
  let version ← arrayOf entries "format_version"
  if version.shape ≠ [] ∨ !isInteger version.type.kind then .error .versionNotInteger
  else
    let n ← versionOf version
    if n = formatVersion then .ok () else .error (.unsupportedVersion n)

/-- A declaration that must not be refused. -/
def declared (result : Automaton × Option ModelError) : Except SnapshotError Automaton :=
  match result with
  | (a, none) => .ok a
  | (_, some e) => .error (.refused e)

/-- States declared in order, up to the first label that is no text. -/
def declareStates (a : Automaton) (states : List Label) : Except SnapshotError Automaton := do
  let a ← declared (a.addStates ((states.takeWhile (·.text?.isSome)).filterMap Label.text?))
  match states.dropWhile (·.text?.isSome) with
  | [] => .ok a
  | label :: _ => .error (.garbledState label)

/-- The texts of a row, or what is wrong with the first of its labels that is no text or no name. -/
def rowTexts (symbol source target : Label) : Except SnapshotError (String × String × String) := do
  let refusing (result : Except ModelError String) : Except SnapshotError Unit :=
    match result with
    | .ok _ => .ok ()
    | .error e => .error (.refused e)
  match symbol, source, target with
  | .text symbol, .text source, .text target => .ok (symbol, source, target)
  | .garbled _, _, _ => .error (.garbledSymbol symbol)
  | .text text, .garbled _, _ =>
    refusing (canonicalSymbol text)
    .error (.garbledState source)
  | .text text, .text name, .garbled _ =>
    refusing (canonicalSymbol text)
    refusing (canonicalName name)
    .error (.garbledState target)

/-- Transitions declared row by row. -/
def declareRows (a : Automaton) : List (Label × Label × Label) → Except SnapshotError Automaton
  | [] => .ok a
  | (symbol, source, target) :: rest => do
    let a ← declared (a.addRows [← rowTexts symbol source target])
    declareRows a rest

/-- The automaton that lists of names describe, declared from nothing. -/
def build (symbols states initial finals : List Label) (table : NdArray) :
    Except SnapshotError Automaton := do
  let a := ({} : Automaton).addSymbols (symbols.filterMap Label.text?)
  let a ← declareStates a states
  let a ← match initial.filterMap Label.text? with
    | [] => .ok a
    | state :: _ => declared (a.setInitialState state)
  let a ← declared (a.addFinalStates (finals.filterMap Label.text?))
  declareRows a (rows (← labelsOf table))

/-- Whether a label is a symbol in upper case. -/
def isUpperSymbol : Label → Bool
  | .text s => isSymbol s && Text.upper s == s
  | .garbled _ => false

/-- **The automaton of a snapshot**, or the first rule that its arrays break. -/
def toAutomaton (entries : List (String × Entry)) : Except SnapshotError Automaton := do
  checkFormat entries
  let symbols ← rowOf entries "symbols"
  let states ← rowOf entries "states"
  let initial ← rowOf entries "initial_state"
  let finals ← rowOf entries "final_states"
  let table ← tableOf entries
  let symbols ← labelsOf symbols
  let states ← labelsOf states
  let initial ← labelsOf initial
  let finals ← labelsOf finals
  if 1 < initial.length then .error .manyInitialStates
  else if ¬states.Nodup then .error .duplicateStates
  else
    match symbols.find? fun s => !isUpperSymbol s with
    | some s => .error (.invalidSymbol s)
    | none =>
      match (initial ++ finals).find? fun q => !states.contains q with
      | some q => .error (.unknownState q)
      | none =>
        let a ← build symbols states initial finals table
        if a.states.map Label.text = states then .ok a else .error .notCanonical

/-! ## Files -/

/-- What stands behind the name of a member that is an array file. -/
def memberSuffix : List Char := ['.', 'n', 'p', 'y']

/-- The name of an array from the name of its member. -/
def entryName (member : String) : String :=
  let name := member.toList
  if memberSuffix.isSuffixOf name then
    String.ofList (name.take (name.length - memberSuffix.length))
  else member

/-- The archive of some named arrays, each with the order its elements are stored in; nothing if it
does not fit the format. -/
def encodeArrays (arrays : List (String × NdArray × Bool)) : Option (List UInt8) := do
  let members ← arrays.mapM fun (name, a, firstIndexFastest) => do
    return ⟨name ++ String.ofList memberSuffix, ← a.encode firstIndexFastest⟩
  writeMembers members

/-- The content of a member: an array if it begins as an array file does.  Bytes that are none are
read to their end, which brings a wrong checksum to light. -/
def entryOf (c : Contents) : Reading Entry := do
  if c.exposedBy [arraySignature.length] then .damaged
  else if isArrayFile c.bytes then return .array (← NdArray.read c)
  else if c.intact then .ok .raw
  else .damaged

/-- Whether bytes begin as an archive does, with a member or, if there is none, with the end
record. -/
def isArchive (bytes : List UInt8) : Bool :=
  localSignature.isPrefixOf bytes || endSignature.isPrefixOf bytes

/-- The member that the array of a name is read from: one that is called exactly so, else the array
file of that name; of several the last one. -/
def memberOf? (members : List (String × Reading Contents)) (name : String) :
    Option (Reading Contents) :=
  match members.reverse.lookup name with
  | some content => some content
  | none => members.reverse.lookup (name ++ String.ofList memberSuffix)

/-- What a file of arrays turns out to be. -/
inductive Opened where
  /-- The file of a single array. -/
  | single
  /-- An archive, with what reading the array of a name leads to if there is one. -/
  | archive (find? : String → Option (Reading Entry))

/-- **What arrays are written and read with.**  A file is opened as a whole; the arrays in it are
read when they are asked for. -/
structure Library where
  /-- The file of some named arrays; nothing if it does not fit the format. -/
  write : List (String × NdArray) → Option (List UInt8)
  /-- What a file turns out to be. -/
  openFile : List UInt8 → Reading Opened

/-- What a file turns out to be, as far as the ways of storing that are built in go. -/
def openBuiltIn (bytes : List UInt8) : Reading Opened := do
  if !isArchive bytes then
    let _ ← NdArray.read (.plain bytes)
    return .single
  else
    let members ← readMembers bytes
    return .archive fun name => (memberOf? members name).map (·.bind entryOf)

/-- The library that is built in.  Members are stored as they are, or deflated. -/
def Library.standard : Library where
  write arrays := encodeArrays (arrays.map fun (name, array) => (name, array, false))
  openFile := openBuiltIn

/-- **The file of an automaton**; nothing if it does not fit the format. -/
def encode (a : Automaton) (library : Library := .standard) : Option (List UInt8) :=
  library.write (arrays a)

/-- What was read, where damage has an error of its own. -/
def orElseError (damage : SnapshotError) : Reading α → Except SnapshotError α
  | .ok x => .ok x
  | .error .damaged => .error damage
  | .error (.fault f) => .error (.unreadable f)

/-- The arrays of a file by their names, in the order in which they are looked up.  `path` only
appears in the errors. -/
def entriesOf (path : String) (bytes : List UInt8) (library : Library := .standard) :
    Except SnapshotError (List (String × Entry)) := do
  match ← orElseError (.notSnapshot path) (library.openFile bytes) with
  | .single => .error (.notSnapshot path)
  | .archive find? =>
    let missing := entryNames.filter fun name => (find? name).isNone
    if !missing.isEmpty then .error (.missingEntries missing)
    else
      entryNames.mapM fun name => do
        let entry ← orElseError (.corrupt path) ((find? name).getD .damaged)
        return (name, entry)

/-- **The automaton of a file.**  `path` only appears in the errors. -/
def decode (path : String) (bytes : List UInt8) (library : Library := .standard) :
    Except SnapshotError Automaton := do
  toAutomaton (← entriesOf path bytes library)

/-- Every array of an archive, in the order of its directory; nothing if one cannot be read. -/
def contents? (bytes : List UInt8) : Option (List (String × NdArray)) := do
  if !isArchive bytes then none
  else
    let members ← (readMembers bytes).toOption
    members.mapM fun (name, contents) => do
      return (entryName name, ← (contents.bind NdArray.read).toOption)

end Snapshot

/-- Why a snapshot could not be loaded from a path. -/
inductive LoadError where
  /-- The path leads nowhere. -/
  | notFound (path : String)
  /-- The file could not be read. -/
  | file (error : FileError)
  /-- The file is no snapshot. -/
  | snapshot (error : SnapshotError)
  deriving Repr, DecidableEq

/-- The wording of a failure to load. -/
def LoadError.message : LoadError → String
  | .notFound path => "Snapshot file not found: " ++ path
  | .file e => e.message
  | .snapshot e => e.message

/-- Why a snapshot could not be saved. -/
inductive SaveError where
  /-- The file could not be created. -/
  | file (error : FileError)
  /-- The automaton does not fit the format. -/
  | tooLarge
  deriving Repr, DecidableEq

/-- The wording of a failure to save. -/
def SaveError.message : SaveError → String
  | .file e => e.message
  | .tooLarge => "File too large"

namespace Workspace

/-- **An automaton saved as a snapshot** in the file that a path leads to. -/
def saveSnapshot (w : Workspace) (a : Automaton) (path : String)
    (library : Snapshot.Library := .standard) : Workspace × Option SaveError :=
  match w.create path with
  | .error e => (w, some (.file e))
  | .ok (place, w) =>
    match Snapshot.encode a library with
    | none => (w, some .tooLarge)
    | some bytes => (w.put place bytes, none)

/-- **The automaton of the snapshot** that a path leads to. -/
def loadSnapshot (w : Workspace) (path : String) (library : Snapshot.Library := .standard) :
    Except LoadError Automaton :=
  match w.pathExists (Path.ofString path).toString with
  | .error e => .error (.file e)
  | .ok false => .error (.notFound path)
  | .ok true =>
    match w.read path with
    | .error e => .error (.file e)
    | .ok bytes =>
      match Snapshot.decode path bytes library with
      | .error e => .error (.snapshot e)
      | .ok a => .ok a

end Workspace

end AutomatonShell
