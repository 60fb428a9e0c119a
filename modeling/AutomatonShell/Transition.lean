import AutomatonShell.Name

/-!
# Transitions

A transition says where an automaton goes from a state on a symbol.  Its three names are canonical,
so transitions written in different letter case are the same.

* `Transition` — the three names.
* `Transition.of?` — the transition three texts describe, or the first refusal among them.
* `Transition.key` — the symbol and the source, for which an automaton has at most one transition.
-/

namespace AutomatonShell

/-- An edge from a source to a target that reads a symbol. -/
structure Transition where
  /-- The symbol that is read. -/
  symbol : String
  /-- The state that is left. -/
  source : String
  /-- The state that is reached. -/
  target : String
  deriving Repr, DecidableEq

namespace Transition

/-- The transition three texts describe.  They are checked in the order symbol, source, target. -/
def of? (symbol source target : String) : Except ModelError Transition := do
  let symbol ← canonicalSymbol symbol
  let source ← canonicalName source
  let target ← canonicalName target
  return ⟨symbol, source, target⟩

/-- What decides where a transition leads: its symbol and its source. -/
def key (t : Transition) : String × String := (t.symbol, t.source)

/-- A transition in writing: symbol, source and target. -/
def text (t : Transition) : String := t.symbol ++ " " ++ t.source ++ " " ++ t.target

end Transition

end AutomatonShell
