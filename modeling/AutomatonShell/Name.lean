import AutomatonShell.Text.Blank
import AutomatonShell.Text.Case
import AutomatonShell.Text.Lines
import AutomatonShell.Text.Quoted

/-!
# Names: symbols and states

A symbol is one ASCII letter or digit and a state name is a non-empty run of them.  Names are kept
in their canonical form, which is upper case, so two names that differ only in letter case are one
name.  One newline at the very end of a name is let through and stays part of it.

* `ModelError` — why the model refuses a name or a request, with its wording.
* `isSymbol`, `isStateName` — the two rules.
* `canonicalSymbol`, `canonicalName` — the canonical form of a name, or the refusal of it.
* `stripPunctuation` — a word of a command without the separators a writer may leave behind it.
-/

namespace AutomatonShell

/-- Why the model refuses a name or a request. -/
inductive ModelError where
  /-- A text that is no symbol is used as one. -/
  | malformedSymbol (text : String)
  /-- A text that is no state name is used as one. -/
  | malformedState (text : String)
  /-- A transition reads a symbol that is not declared. -/
  | unknownSymbol (symbol : String)
  /-- A transition leaves a state that is not declared. -/
  | unknownSource (state : String)
  /-- A transition leads to a state that is not declared. -/
  | unknownTarget (state : String)
  /-- There is nowhere to start. -/
  | noInitialState
  /-- A name has no place in the list it is looked up in. -/
  | unlisted (name : String)
  deriving Repr, DecidableEq

/-- The wording of a refusal. -/
def ModelError.message : ModelError → String
  | .malformedSymbol text =>
    "symbol must be a single alphanumeric character, got " ++ Text.quoted text
  | .malformedState text => "state name must be alphanumeric, got " ++ Text.quoted text
  | .unknownSymbol symbol => "transition references unknown symbol: " ++ symbol
  | .unknownSource state => "transition references unknown state: " ++ state
  | .unknownTarget state => "transition has unknown target: " ++ state
  | .noInitialState => "automaton has no initial state"
  | .unlisted name => Text.quoted name

/-- Whether a text is one ASCII letter or digit, possibly with a newline behind it. -/
def isSymbol (text : String) : Bool :=
  match Text.withoutFinalNewline text.toList with
  | [c] => c.isAlphanum
  | _ => false

/-- Whether a text is a non-empty run of ASCII letters and digits, possibly with a newline behind
it. -/
def isStateName (text : String) : Bool :=
  let name := Text.withoutFinalNewline text.toList
  !name.isEmpty && name.all Char.isAlphanum

/-- The canonical form of a symbol. -/
def canonicalSymbol (text : String) : Except ModelError String :=
  if isSymbol text then .ok (Text.upper text) else .error (.malformedSymbol text)

/-- The canonical form of a state name. -/
def canonicalName (text : String) : Except ModelError String :=
  if isStateName text then .ok (Text.upper text) else .error (.malformedState text)

/-- A word without the commas and semicolons at its end. -/
def stripPunctuation (word : String) : String :=
  String.ofList (Text.dropEndWhile (fun c => c == ';' || c == ',') word.toList)

/-- A symbol is also a state name. -/
theorem isStateName_of_isSymbol {text : String} (h : isSymbol text = true) :
    isStateName text = true := by
  unfold isSymbol at h
  unfold isStateName
  split at h
  · next c hc => simp [hc, h]
  · simp at h

end AutomatonShell
