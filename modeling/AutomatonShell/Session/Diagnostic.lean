import AutomatonShell.Automaton.Run
import AutomatonShell.Message
import AutomatonShell.Session.Command
import AutomatonShell.Snapshot

/-!
# Diagnostics: what commands have to say

Commands speak in diagnostics, which say what happened; their wording and severity are decided here
and nowhere else.

* `Diagnostic` — everything a command can have to say.
* `Diagnostic.severity`, `Diagnostic.text` — how serious it is and how it is worded.
* `Diagnostic.message` — the message about a command on a given line.
-/

namespace AutomatonShell

/-- What a command has to say. -/
inductive Diagnostic where
  /-- The first word is no keyword. -/
  | unknownCommand (word : String)
  /-- A command has too few or too many words. -/
  | arity (keyword : Keyword) (rule : Arity)
  /-- The declared symbols or states, asked for by the bare keyword. -/
  | declared (keyword : Keyword) (names : List String)
  /-- A symbol is declared again. -/
  | symbolDeclared (symbol : String)
  /-- Words that are no symbols, as they were written. -/
  | invalidSymbols (words : List String)
  /-- A word that is no state name, as it was written. -/
  | invalidStateName (word : String)
  /-- A state is declared again. -/
  | stateDeclared (state : String)
  /-- A state is declared by its first use. -/
  | stateImplied (state : String)
  /-- A final state is declared as final again. -/
  | alreadyFinal (state : String)
  /-- A transition does not have three parts. -/
  | malformedTransition (group : String)
  /-- A transition reads a symbol that is not declared. -/
  | undeclaredSymbol (symbol : String)
  /-- A transition refers to a state that is not declared. -/
  | undeclaredState (state : String)
  /-- A transition is declared again. -/
  | sameTransition (t : Transition)
  /-- A transition takes the place of one that led elsewhere. -/
  | overridden (t : Transition) (oldTarget : String)
  /-- There is nothing to list. -/
  | nothingDeclared
  /-- A line of a listing. -/
  | listed (line : String)
  /-- The listing was written to a file. -/
  | written (file : String)
  /-- The listing could not be written to a file. -/
  | cannotWrite (file : String)
  /-- There is no state to start a run in. -/
  | nowhereToStart
  /-- How a run ended that read its whole text. -/
  | ran (run : Run)
  /-- Why a run stopped early. -/
  | runStopped (error : RunError)
  /-- An automaton cannot be compiled to a file of that name. -/
  | invalidTarget (file : String)
  /-- The automaton was compiled to a file. -/
  | compiled (file : String)
  /-- The automaton could not be compiled to a file. -/
  | cannotCreate (file : String)
  /-- A file cannot be opened. -/
  | cannotOpen (file : String)
  /-- A file is no snapshot. -/
  | cannotLoad (file : String) (error : SnapshotError)
  /-- A file cannot be read. -/
  | cannotRead (file : String)
  /-- A snapshot was loaded. -/
  | loaded (file : String)
  /-- A script is loaded while it is being replayed. -/
  | recursiveLoad (file : String)
  /-- A script ends in the middle of a command. -/
  | unterminated (file pending : String)
  /-- A log could not be created. -/
  | cannotLog (file : String)
  /-- The log was closed. -/
  | logStopped
  /-- There was no log to close. -/
  | logNotEnabled
  /-- The session was ended. -/
  | terminated
  deriving Repr, DecidableEq

namespace Diagnostic

/-- How serious a diagnostic is. -/
def severity : Diagnostic → Severity
  | declared .. | nothingDeclared | listed .. | written .. | ran .. | compiled .. | loaded ..
  | logStopped | logNotEnabled | terminated => .info
  | symbolDeclared .. | invalidSymbols .. | stateDeclared .. | stateImplied .. | alreadyFinal ..
  | sameTransition .. | overridden .. | unterminated .. => .warning
  | unknownCommand .. | arity .. | invalidStateName .. | malformedTransition ..
  | undeclaredSymbol .. | undeclaredState .. | cannotWrite .. | nowhereToStart | runStopped ..
  | invalidTarget .. | cannotCreate .. | cannotOpen .. | cannotLoad .. | cannotRead ..
  | recursiveLoad .. | cannotLog .. => .error

/-- The wording of a diagnostic. -/
def text : Diagnostic → String
  | unknownCommand word => "invalid command \"" ++ word ++ "\""
  | arity keyword rule => keyword.name ++ " " ++ rule.message
  | declared keyword names => String.intercalate " " (keyword.name :: names)
  | symbolDeclared symbol => "symbol " ++ symbol ++ " was already declared"
  | invalidSymbols words => "invalid symbols: " ++ String.intercalate ", " words
  | invalidStateName word => "invalid state name " ++ word
  | stateDeclared state => "state " ++ state ++ " was already declared"
  | stateImplied state => "state " ++ state ++ " was not previously declared"
  | alreadyFinal state => "state " ++ state ++ " was already declared as a final state"
  | malformedTransition group =>
    "invalid transition \"" ++ group ++ "\": expected symbol, source and target"
  | undeclaredSymbol symbol => "symbol " ++ symbol ++ " is not declared"
  | undeclaredState state => "state " ++ state ++ " is not declared"
  | sameTransition t => "transition " ++ t.text ++ " already exists with same target"
  | overridden t oldTarget =>
    "transition " ++ t.symbol ++ " " ++ t.source ++ " overridden: " ++ oldTarget ++ " -> "
      ++ t.target
  | nothingDeclared => "automaton is empty"
  | listed line => line
  | written file => "configuration written to file " ++ file
  | cannotWrite file => "cannot write file " ++ file
  | nowhereToStart => "no initial state defined"
  | ran run => run.text
  | runStopped error => error.message
  | invalidTarget file => "invalid file name " ++ file ++ ": expected a .fsm or .bin name"
  | compiled file => "compiled to file " ++ file
  | cannotCreate file => "cannot create file " ++ file
  | cannotOpen file => "cannot open file " ++ file
  | cannotLoad file error => "cannot load " ++ file ++ ": " ++ error.message
  | cannotRead file => "cannot read file " ++ file
  | loaded file => "loaded " ++ file
  | recursiveLoad file => "recursive load of " ++ file
  | unterminated file pending =>
    "unterminated command at end of " ++ file ++ ": \"" ++ pending ++ "\""
  | cannotLog file => "cannot create log file " ++ file
  | logStopped => "STOPPED LOGGING"
  | logNotEnabled => "LOGGING was not enabled"
  | terminated => "TERMINATED BY USER"

/-- **The message of a diagnostic** about a command on a line.  Plain information names no line. -/
def message (d : Diagnostic) (line : Option Int) : Message :=
  ⟨d.severity, d.text, if d.severity = .info then none else line⟩

end Diagnostic

end AutomatonShell
