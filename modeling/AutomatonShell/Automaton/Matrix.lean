import AutomatonShell.Automaton.Run

/-!
# The dense transition table

To execute an automaton its transitions are laid out as a table with one row for every symbol and
one column for every state, in the order of their declaration.  A cell holds the index of the state
that is reached, or `-1` where there is no transition.

* `Matrix` — the table, the index of the initial state and the final states as a mask.
* `Matrix.ofAutomaton` — the table of an automaton.
* `Matrix.run` — a run by table look-ups alone.  Look-ups are partial: the result is absent when one
  falls outside the table, which cannot happen to the table of a well-formed automaton.
* `Automaton.run` — execution: lay the table out, then run on it.
-/

namespace AutomatonShell

/-- A transition table with its index of names. -/
structure Matrix where
  /-- The names of the columns. -/
  states : List String
  /-- The names of the rows. -/
  symbols : List String
  /-- The column a run starts in. -/
  initialIndex : Nat
  /-- For every symbol and state the index of the state reached, or `noTransition`. -/
  table : List (List Int)
  /-- Whether the state of a column is final. -/
  finalMask : List Bool
  deriving Repr, DecidableEq

namespace Matrix

/-- What a cell holds where there is no transition. -/
def noTransition : Int := -1

/-- The place of a name in a list of names. -/
def indexIn (names : List String) (name : String) : Except ModelError Nat :=
  match names.idxOf? name with
  | some i => .ok i
  | none => .error (.unlisted name)

/-- A table with one cell overwritten. -/
def setCell (table : List (List Int)) (row column : Nat) (value : Int) : List (List Int) :=
  table.modify row fun cells => cells.set column value

/-- The transitions written into a table, one after the other. -/
def fill (symbols states : List String) (table : List (List Int)) :
    List Transition → Except ModelError (List (List Int))
  | [] => .ok table
  | t :: rest => do
    let row ← indexIn symbols t.symbol
    let column ← indexIn states t.source
    let target ← indexIn states t.target
    fill symbols states (setCell table row column target) rest

/-- The final states marked in a mask, one after the other. -/
def markFinals (states : List String) (mask : List Bool) :
    List String → Except ModelError (List Bool)
  | [] => .ok mask
  | state :: rest => do
    let column ← indexIn states state
    markFinals states (mask.set column true) rest

/-- **The table of an automaton.**  There is none without an initial state. -/
def ofAutomaton (a : Automaton) : Except ModelError Matrix := do
  match a.initial with
  | none => .error .noInitialState
  | some initial =>
    let initialIndex ← indexIn a.states initial
    let blank := List.replicate a.symbols.length (List.replicate a.states.length noTransition)
    let table ← fill a.symbols a.states blank a.transitions
    let finalMask ← markFinals a.states (List.replicate a.states.length false) a.finals
    return ⟨a.states, a.symbols, initialIndex, table, finalMask⟩

/-- The content of a cell, if there is such a cell. -/
def cell? (m : Matrix) (row column : Nat) : Option Int :=
  (m.table[row]?).bind fun cells => cells[column]?

/-- The columns visited from a column on, itself first.  Absent when a look-up falls outside the
table or finds a negative target. -/
def visits (m : Matrix) (current : Nat) : List Char → Option (Except RunError (List Nat))
  | [] => some (.ok [current])
  | c :: rest =>
    match m.symbols.idxOf? (Text.upper (String.singleton c)) with
    | none => some (.error (.invalidSymbol c))
    | some row => do
      let target ← m.cell? row current
      if target = noTransition then
        let state ← m.states[current]?
        some (.error (.noTransition c state))
      else
        let column ← target.toNat?
        let visited ← m.visits column rest
        some (visited.map (current :: ·))

/-- **A run by table look-ups.**  Absent when one of them falls outside the table. -/
def run (m : Matrix) (text : String) : Option Run := do
  match ← m.visits m.initialIndex text.toList with
  | .error e => some (.stopped e)
  | .ok visited =>
    let trace ← visited.mapM (m.states[·]?)
    let last ← visited.getLast?
    let accepted ← m.finalMask[last]?
    some (.completed trace accepted)

end Matrix

/-- What executing an automaton can fail with. -/
inductive ExecutionError where
  /-- The automaton has no table. -/
  | model (error : ModelError)
  /-- A look-up fell outside the table. -/
  | outOfRange
  deriving Repr, DecidableEq

/-- The wording of a failed execution. -/
def ExecutionError.message : ExecutionError → String
  | .model error => error.message
  | .outOfRange => "index is out of bounds"

/-- **Executing an automaton on a text**: its table is laid out and run. -/
def Automaton.run (a : Automaton) (text : String) : Except ExecutionError Run :=
  match Matrix.ofAutomaton a with
  | .error e => .error (.model e)
  | .ok m =>
    match m.run text with
    | none => .error .outOfRange
    | some run => .ok run

end AutomatonShell
