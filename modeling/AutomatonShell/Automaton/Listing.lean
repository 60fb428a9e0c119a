import AutomatonShell.Automaton.Basic

/-!
# Listings

A listing writes an automaton as the commands that declare it.  Every section is sorted, so it does
not show the order in which things were declared, and a section with nothing in it is left out.

* `Automaton.listing` — the lines.
* `Automaton.listingText` — the lines as they are written to a file.
-/

namespace AutomatonShell.Automaton

/-- One clause of a listing: a keyword and its entries, if there are any. -/
def clause (keyword separator : String) (entries : List String) : List String :=
  if entries.isEmpty then []
  else [keyword ++ " " ++ String.intercalate separator entries ++ ";"]

/-- The transitions in ascending order of source and symbol. -/
def sortedTransitions (a : Automaton) : List Transition :=
  a.transitions.mergeSort fun x y =>
    decide (x.source < y.source ∨ (x.source = y.source ∧ x.symbol ≤ y.symbol))

/-- **The lines of a listing**: symbols, states, initial state, final states and transitions. -/
def listing (a : Automaton) : List String :=
  clause "SYMBOLS" " " (sorted a.symbols)
    ++ clause "STATES" " " (sorted a.states)
    ++ clause "INITIAL-STATE" " " a.initial.toList
    ++ clause "FINAL-STATES" " " (sorted a.finals)
    ++ clause "TRANSITIONS" ", " (a.sortedTransitions.map Transition.text)

/-- The lines of a listing, each with a newline behind it. -/
def listingText (a : Automaton) : List String := a.listing.map (· ++ "\n")

end AutomatonShell.Automaton
