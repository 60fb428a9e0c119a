import AutomatonShell.Text.Blank
import AutomatonShell.Text.Case

/-!
# Commands

A command is a keyword and what follows it.  The keyword may be written in any letter case.  What
follows is kept twice: cut into words, and as one text.

* `Keyword` — the twelve keywords, with their names.
* `Arity` — the ways in which a command can have too few or too many words.
* `Command.ofText?` — the first word of a command text and what follows it.
* `trimCommand` — a command text without the blanks around it and without one final semicolon.
-/

namespace AutomatonShell

/-- What a command asks for. -/
inductive Keyword where
  | symbols
  | states
  | initialState
  | finalStates
  | transitions
  | print
  | execute
  | compile
  | load
  | clear
  | log
  | exit
  deriving Repr, DecidableEq

namespace Keyword

/-- The name of a keyword, as messages show it. -/
def name : Keyword → String
  | symbols => "SYMBOLS"
  | states => "STATES"
  | initialState => "INITIAL-STATE"
  | finalStates => "FINAL-STATES"
  | transitions => "TRANSITIONS"
  | print => "PRINT"
  | execute => "EXECUTE"
  | compile => "COMPILE"
  | load => "LOAD"
  | clear => "CLEAR"
  | log => "LOG"
  | exit => "EXIT"

/-- Every keyword. -/
def all : List Keyword :=
  [symbols, states, initialState, finalStates, transitions, print, execute, compile, load, clear,
    log, exit]

/-- The keyword of a name, in any letter case. -/
def ofName? (text : String) : Option Keyword :=
  all.find? fun keyword => keyword.name == Text.upper text

/-- The name of a keyword stands for it. -/
theorem ofName?_name (keyword : Keyword) : ofName? keyword.name = some keyword := by
  cases keyword <;> decide +kernel

end Keyword

/-- How a command can have the wrong number of words. -/
inductive Arity where
  | needsStateName
  | oneStateName
  | someStateNames
  | atMostOneFile
  | needsInput
  | oneInput
  | needsFile
  | oneFile
  | noArguments
  deriving Repr, DecidableEq

/-- The wording of the rule that was broken, as it stands behind the keyword. -/
def Arity.message : Arity → String
  | .needsStateName => "requires a state name"
  | .oneStateName => "takes exactly one state name"
  | .someStateNames => "requires at least one state name"
  | .atMostOneFile => "takes at most one file name"
  | .needsInput => "requires an input string"
  | .oneInput => "takes exactly one input string"
  | .needsFile => "requires a file name"
  | .oneFile => "takes exactly one file name"
  | .noArguments => "does not take any arguments"

/-- A command text, taken apart. -/
structure Command where
  /-- The first word. -/
  first : String
  /-- The other words. -/
  words : List String
  /-- All that follows the first word, without the blanks around it. -/
  body : List Char
  deriving Repr, DecidableEq

/-- A command text without the blanks around it and without one semicolon at its end. -/
def trimCommand (text : List Char) : List Char :=
  let text := Text.strip text
  if text.getLast? = some ';' then Text.stripEnd text.dropLast else text

/-- The first word of a text and what follows it; nothing if there is no word. -/
def Command.ofText? (text : List Char) : Option Command :=
  match Text.words text with
  | [] => none
  | first :: rest =>
    some ⟨String.ofList first, rest.map String.ofList,
      Text.strip ((text.dropWhile Text.isBlank).drop first.length)⟩

end AutomatonShell
