import AutomatonShell.Outcome
import AutomatonShell.Session.Diagnostic

/-!
# Declaration commands

The commands that build an automaton up.  Each takes in its words from left to right, adds what is
valid and says what is not; a word that is refused does not keep the others from being added.

* `Declaration` — the automaton a command leaves, and what it says.
* `Automaton.declareSymbols`, `declareStates`, `declareInitial`, `declareFinals` — the commands that
  take words.
* `Automaton.declareTransitions` — the command that takes groups of three words between commas.
  Valid groups are collected in a batch first and inserted together at the end.

A word is checked before the model sees it, so the model has no reason left to refuse it; a refusal
would end the command early (`Outcome.failure`).
-/

namespace AutomatonShell

/-- What a declaration command leaves, says, and may be ended by. -/
abbrev Declaration := Outcome Automaton Diagnostic ModelError

namespace Automaton

/-- An automaton left with something said. -/
def say (a : Automaton) (d : Diagnostic) : Declaration := { state := a, output := [d] }

/-- The outcome of a call to the model, which says nothing itself. -/
def settle (result : Automaton × Option ModelError) : Declaration :=
  { state := result.1, failure := result.2 }

/-- Whether a word is a symbol, up to the punctuation behind it. -/
def isSymbolWord (word : String) : Bool := isSymbol (stripPunctuation word)

/-- One word of a SYMBOLS command; a word that is no symbol is passed over. -/
def declareSymbol (a : Automaton) (word : String) : Declaration :=
  let symbol := stripPunctuation word
  if !isSymbolWord word then .done a
  else if a.hasSymbol symbol then a.say (.symbolDeclared (Text.upper symbol))
  else .done (a.addSymbols [symbol])

/-- **SYMBOLS**: the valid words are declared; the invalid ones are named together at the end. -/
def declareSymbols (a : Automaton) (words : List String) : Declaration :=
  (Outcome.forEach declareSymbol a words).andThen fun a =>
    let invalid := words.filter fun word => !isSymbolWord word
    if invalid.isEmpty then .done a else a.say (.invalidSymbols invalid)

/-- One word of a STATES command. -/
def declareState (a : Automaton) (word : String) : Declaration :=
  let name := stripPunctuation word
  if !isStateName name then a.say (.invalidStateName word)
  else if a.hasState name then a.say (.stateDeclared (Text.upper name))
  else settle (a.addStates [name])

/-- **STATES**: every word declares a state. -/
def declareStates (a : Automaton) (words : List String) : Declaration :=
  Outcome.forEach declareState a words

/-- **INITIAL-STATE**: the word becomes the initial state, and is declared if it was not. -/
def declareInitial (a : Automaton) (word : String) : Declaration :=
  let name := stripPunctuation word
  if !isStateName name then a.say (.invalidStateName word)
  else
    (if a.hasState name then .done a else a.say (.stateImplied (Text.upper name))).andThen
      fun a => settle (a.setInitialState name)

/-- One word of a FINAL-STATES command. -/
def declareFinal (a : Automaton) (word : String) : Declaration :=
  let name := stripPunctuation word
  if !isStateName name then a.say (.invalidStateName word)
  else if !a.hasState name then
    (a.say (.stateImplied (Text.upper name))).andThen fun a => settle (a.addFinalStates [name])
  else if a.isFinal name then a.say (.alreadyFinal (Text.upper name))
  else settle (a.addFinalStates [name])

/-- **FINAL-STATES**: every word becomes a final state, and is declared if it was not. -/
def declareFinals (a : Automaton) (words : List String) : Declaration :=
  Outcome.forEach declareFinal a words

/-! ## Transitions -/

/-- The transition of a key in a batch, or else in the automaton. -/
def existing? (a : Automaton) (batch : List Transition) (t : Transition) : Option Transition :=
  (batch.find? fun u => u.key == t.key) <|> a.transitionFor t.symbol t.source

/-- What there is to say when a transition takes the place of another one. -/
def replacement (t old : Transition) : Diagnostic :=
  if old.target = t.target then .sameTransition t else .overridden t old.target

/-- One transition put behind the others of a batch, in place of one with the same key. -/
def stage (a : Automaton) (batch : List Transition) (t : Transition) :
    Outcome (List Transition) Diagnostic ModelError :=
  { state := batch.filter (·.key != t.key) ++ [t]
    output := ((a.existing? batch t).map (replacement t)).toList }

/-- Which of two state words of a group are no declared states, in their order. -/
def undeclaredStates (a : Automaton) (source target : String) : List String :=
  [source, target].filter fun name => !isStateName name || !a.hasState name

/-- One group of a TRANSITIONS command.  A group without words is passed over. -/
def stageGroup (a : Automaton) (batch : List Transition) (group : List Char) :
    Outcome (List Transition) Diagnostic ModelError :=
  match (Text.words group).map fun word => stripPunctuation (String.ofList word) with
  | [] => .done batch
  | [symbol, source, target] =>
    if !isSymbol symbol || !a.hasSymbol symbol then
      { state := batch, output := [.undeclaredSymbol symbol] }
    else
      match a.undeclaredStates source target with
      | [] =>
        match Transition.of? symbol source target with
        | .error e => .stop batch e
        | .ok t => a.stage batch t
      | names => { state := batch, output := names.map .undeclaredState }
  | _ =>
    { state := batch
      output := [.malformedTransition (String.ofList (Text.strip group))] }

/-- **TRANSITIONS**: the groups between commas are staged in a batch, and the batch is inserted at
the end. -/
def declareTransitions (a : Automaton) (body : List Char) : Declaration :=
  let staged := Outcome.forEach a.stageGroup [] (body.splitOn ',')
  match staged.failure with
  | some e => { state := a, output := staged.output, failure := some e }
  | none =>
    let result := a.addTransitions staged.state
    { state := result.1, output := staged.output, failure := result.2 }

end Automaton

end AutomatonShell
