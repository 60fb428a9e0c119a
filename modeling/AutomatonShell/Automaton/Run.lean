import AutomatonShell.Automaton.Basic

/-!
# Runs

Running an automaton on a text starts in the initial state and reads one character after the other.
It either reads the whole text, and then the visited states and the verdict are known, or it stops
at the first character that is no declared symbol or has no transition.

* `Run` — how a run ends, and `Run.text`, its one-line form.
* `Automaton.next` — the state reached by one character.
* `Automaton.walk` — **the meaning of a run**, by recursion on the text.  The library executes
  automata through their dense table (`Matrix`), whose result has to agree with this one.
-/

namespace AutomatonShell

/-- Why a run stops before the end of the text. -/
inductive RunError where
  /-- The character is no declared symbol. -/
  | invalidSymbol (c : Char)
  /-- No transition reads the character in the state. -/
  | noTransition (c : Char) (state : String)
  deriving Repr, DecidableEq

/-- The wording of an early stop. -/
def RunError.message : RunError → String
  | .invalidSymbol c => "invalid symbol " ++ String.singleton c
  | .noTransition c state => "no transition for " ++ String.singleton c ++ " in state " ++ state

/-- How a run ends. -/
inductive Run where
  /-- The whole text was read: the visited states, the initial one first, and the verdict. -/
  | completed (trace : List String) (accepted : Bool)
  /-- The text was not read to its end. -/
  | stopped (error : RunError)
  deriving Repr, DecidableEq

namespace Run

/-- The visited states of a run that read the whole text. -/
def trace : Run → List String
  | completed trace _ => trace
  | stopped _ => []

/-- Whether the whole text was read and the last state is final. -/
def accepted : Run → Bool
  | completed _ accepted => accepted
  | stopped _ => false

/-- Why the run stopped early, if it did. -/
def error? : Run → Option RunError
  | completed _ _ => none
  | stopped error => some error

/-- A run on one line: the visited states and the verdict, or why it stopped. -/
def text : Run → String
  | completed trace accepted =>
    String.intercalate " " (trace ++ [if accepted then "YES" else "NO"])
  | stopped error => "Error: " ++ error.message

end Run

namespace Automaton

/-- The state reached from a state by one character. -/
def next (a : Automaton) (state : String) (c : Char) : Except RunError String :=
  let symbol := String.singleton c
  if !a.hasSymbol symbol then .error (.invalidSymbol c)
  else
    match a.transitionFor symbol state with
    | none => .error (.noTransition c state)
    | some t => .ok t.target

/-- The states visited from a state on, itself first. -/
def visits (a : Automaton) (state : String) : List Char → Except RunError (List String)
  | [] => .ok [state]
  | c :: rest =>
    match a.next state c with
    | .error e => .error e
    | .ok reached => (a.visits reached rest).map (state :: ·)

/-- A run from a given state. -/
def walkFrom (a : Automaton) (state : String) (text : List Char) : Run :=
  match a.visits state text with
  | .error e => .stopped e
  | .ok trace => .completed trace (trace.getLast?.any a.finals.contains)

/-- **A run on a text**, transition by transition; there is none without an initial state. -/
def walk (a : Automaton) (text : String) : Except ModelError Run :=
  match a.initial with
  | none => .error .noInitialState
  | some state => .ok (a.walkFrom state text.toList)

/-- A run that reads the whole text visits one state more than the text has characters. -/
theorem length_visits {a : Automaton} {state : String} {text : List Char} {trace : List String}
    (h : a.visits state text = .ok trace) : trace.length = text.length + 1 := by
  induction text generalizing state trace with
  | nil =>
    simp only [visits, Except.ok.injEq] at h
    simp [← h]
  | cons c rest ih =>
    unfold visits at h
    split at h
    · simp at h
    · next reached _ =>
      cases hr : a.visits reached rest with
      | error e => simp [hr, Except.map] at h
      | ok tail =>
        simp only [hr, Except.map, Except.ok.injEq] at h
        simp [← h, ih hr]

end Automaton

end AutomatonShell
