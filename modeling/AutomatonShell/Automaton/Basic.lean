import AutomatonShell.Transition

/-!
# Deterministic finite automata

An automaton is what has been declared so far: symbols and states in the order of their declaration,
perhaps an initial state, final states, and transitions in the order of their last insertion.

* `Automaton` — the five collections.
* `Automaton.hasSymbol`, `hasState`, `isFinal`, `transitionFor` — look-ups, in any letter case.
* `Automaton.addSymbols`, `addStates`, `setInitialState`, `addFinalStates`, `addTransitions` — the
  declarations.  One that is refused part-way keeps what it had already added.
* `Automaton.describe` — a one-line summary.

The declarations keep an automaton *well formed* (`Automaton.WellFormed`): names are canonical and
listed once, everything that is referred to is declared, and a key has at most one transition.
-/

namespace AutomatonShell

/-- What has been declared of a deterministic finite automaton. -/
structure Automaton where
  /-- The symbols, in the order of their declaration. -/
  symbols : List String := []
  /-- The states, in the order of their declaration. -/
  states : List String := []
  /-- The state a run starts in. -/
  initial : Option String := none
  /-- The states a run may end in, in the order of their declaration. -/
  finals : List String := []
  /-- The transitions, in the order of their last insertion. -/
  transitions : List Transition := []
  deriving Repr, DecidableEq

namespace Automaton

/-- Whether nothing is declared. -/
def isEmpty (a : Automaton) : Bool :=
  a.symbols.isEmpty && a.states.isEmpty && a.initial.isNone && a.finals.isEmpty
    && a.transitions.isEmpty

/-! ## Looking things up -/

/-- Whether a symbol is declared, in any letter case. -/
def hasSymbol (a : Automaton) (symbol : String) : Bool := a.symbols.contains (Text.upper symbol)

/-- Whether a state is declared, in any letter case. -/
def hasState (a : Automaton) (name : String) : Bool := a.states.contains (Text.upper name)

/-- Whether a state is declared as final, in any letter case. -/
def isFinal (a : Automaton) (name : String) : Bool := a.finals.contains (Text.upper name)

/-- The transition on a symbol from a state, in any letter case. -/
def transitionFor (a : Automaton) (symbol source : String) : Option Transition :=
  a.transitions.find? fun t => t.key == (Text.upper symbol, Text.upper source)

/-! ## Declarations -/

/-- One character added to the symbols, in upper case, unless it is there already.  What is no
ASCII letter or digit is left out. -/
def addSymbolChar (a : Automaton) (c : Char) : Automaton :=
  if c.isAlphanum then
    let symbol := String.singleton c.toUpper
    if a.symbols.contains symbol then a else { a with symbols := a.symbols ++ [symbol] }
  else a

/-- Every character of every text added to the symbols. -/
def addSymbols (a : Automaton) (texts : List String) : Automaton :=
  (texts.flatMap String.toList).foldl addSymbolChar a

/-- A canonical name added to the states, unless it is there already.  The first state of all
becomes the initial state unless there is one. -/
def ensureState (a : Automaton) (state : String) : Automaton :=
  if a.states.contains state then a
  else { a with states := a.states ++ [state], initial := a.initial <|> some state }

/-- Every name added to the states, up to the first that is no state name. -/
def addStates (a : Automaton) : List String → Automaton × Option ModelError
  | [] => (a, none)
  | name :: rest =>
    match canonicalName name with
    | .error e => (a, some e)
    | .ok state => (a.ensureState state).addStates rest

/-- The initial state set, and declared if it was not. -/
def setInitialState (a : Automaton) (name : String) : Automaton × Option ModelError :=
  match canonicalName name with
  | .error e => (a, some e)
  | .ok state => ({ a.ensureState state with initial := some state }, none)

/-- A canonical name added to the final states, unless it is there already, and declared if it was
not. -/
def ensureFinal (a : Automaton) (state : String) : Automaton :=
  let a := a.ensureState state
  if a.finals.contains state then a else { a with finals := a.finals ++ [state] }

/-- Every name added to the final states, up to the first that is no state name. -/
def addFinalStates (a : Automaton) : List String → Automaton × Option ModelError
  | [] => (a, none)
  | name :: rest =>
    match canonicalName name with
    | .error e => (a, some e)
    | .ok state => (a.ensureFinal state).addFinalStates rest

/-- What a transition refers to that is not declared, the symbol first and the target last. -/
def undeclared? (a : Automaton) (t : Transition) : Option ModelError :=
  if !a.symbols.contains t.symbol then some (.unknownSymbol t.symbol)
  else if !a.states.contains t.source then some (.unknownSource t.source)
  else if !a.states.contains t.target then some (.unknownTarget t.target)
  else none

/-- A transition put behind the others, in place of one with the same key. -/
def insertTransition (a : Automaton) (t : Transition) : Automaton :=
  { a with transitions := a.transitions.filter (·.key != t.key) ++ [t] }

/-- Every transition inserted, up to the first that refers to something undeclared. -/
def addTransitions (a : Automaton) : List Transition → Automaton × Option ModelError
  | [] => (a, none)
  | t :: rest =>
    match a.undeclared? t with
    | some e => (a, some e)
    | none => (a.insertTransition t).addTransitions rest

/-- Every row of symbol, source and target inserted as a transition, up to the first that does not
describe one or refers to something undeclared. -/
def addRows (a : Automaton) : List (String × String × String) → Automaton × Option ModelError
  | [] => (a, none)
  | (symbol, source, target) :: rest =>
    match Transition.of? symbol source target with
    | .error e => (a, some e)
    | .ok t =>
      match a.addTransitions [t] with
      | (a, some e) => (a, some e)
      | (a, none) => a.addRows rest

/-! ## Comparing and showing -/

/-- Whether two automata are the same.  Symbols and states count in their order, final states and
transitions do not. -/
def same (a b : Automaton) : Bool :=
  a.symbols == b.symbols && a.states == b.states && a.initial == b.initial
    && a.finals.all b.finals.contains && b.finals.all a.finals.contains
    && a.transitions.all b.transitions.contains && b.transitions.all a.transitions.contains

/-- Texts in ascending order of their code points. -/
def sorted (names : List String) : List String := names.mergeSort fun x y => decide (x ≤ y)

/-- A one-line summary: the collections, and the number of transitions. -/
def describe (a : Automaton) : String :=
  let initial :=
    match a.initial with
    | some state => Text.quoted state
    | none => "None"
  "Automaton(symbols=" ++ Text.quotedList a.symbols ++ ", states=" ++ Text.quotedList a.states
    ++ ", initial_state=" ++ initial ++ ", final_states=" ++ Text.quotedList (sorted a.finals)
    ++ ", transitions=" ++ toString a.transitions.length ++ ")"

/-! ## Well-formed automata -/

/-- **The invariant of a declared automaton.**  Names are canonical and listed once, everything that
is referred to is declared, a key has at most one transition, and there is an initial state exactly
when there are states. -/
structure WellFormed (a : Automaton) : Prop where
  /-- Symbols are listed once. -/
  symbols_nodup : a.symbols.Nodup
  /-- A symbol is one capital letter or digit. -/
  symbols_plain : ∀ s ∈ a.symbols, ∃ c : Char, (c.isUpper ∨ c.isDigit) ∧ s = String.singleton c
  /-- States are listed once. -/
  states_nodup : a.states.Nodup
  /-- A state has a state name, in upper case. -/
  states_canonical : ∀ q ∈ a.states, isStateName q ∧ Text.upper q = q
  /-- There is an initial state exactly when there are states. -/
  initial_isSome : a.initial.isSome ↔ a.states ≠ []
  /-- The initial state is declared. -/
  initial_mem : ∀ q ∈ a.initial, q ∈ a.states
  /-- Final states are listed once. -/
  finals_nodup : a.finals.Nodup
  /-- Final states are declared. -/
  finals_subset : ∀ q ∈ a.finals, q ∈ a.states
  /-- A key has at most one transition. -/
  keys_nodup : (a.transitions.map Transition.key).Nodup
  /-- Transitions refer to what is declared. -/
  transitions_declared : ∀ t ∈ a.transitions,
    t.symbol ∈ a.symbols ∧ t.source ∈ a.states ∧ t.target ∈ a.states

/-- Nothing declared is well formed. -/
theorem wellFormed_empty : WellFormed {} := by
  constructor <;> simp

end Automaton

end AutomatonShell
