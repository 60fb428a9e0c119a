/-!
# Messages

Everything a session says is a message: plain information, a warning or an error, each one line of
output.  Warnings and errors name the line of the command they are about, if it is known.

* `Message` — severity, text and line.
* `Message.render` — the line of output.
-/

namespace AutomatonShell

/-- How serious a message is. -/
inductive Severity where
  | info
  | warning
  | error
  deriving Repr, DecidableEq

/-- One line of output. -/
structure Message where
  /-- How serious it is. -/
  severity : Severity
  /-- What it says. -/
  text : String
  /-- The line of the command it is about. -/
  line : Option Int := none
  deriving Repr, DecidableEq

namespace Message

/-- Plain information. -/
def info (text : String) : Message := ⟨.info, text, none⟩

/-- A warning about the command on a line. -/
def warning (text : String) (line : Option Int) : Message := ⟨.warning, text, line⟩

/-- An error in the command on a line. -/
def error (text : String) (line : Option Int) : Message := ⟨.error, text, line⟩

/-- Whether a message is an error. -/
def isError (m : Message) : Bool := m.severity == .error

/-- Whether a message is a warning. -/
def isWarning (m : Message) : Bool := m.severity == .warning

/-- The name of a severity in front of a line of output. -/
def label : Severity → String
  | .info => "Info"
  | .warning => "Warning"
  | .error => "Error"

/-- **The line of output.**  Information stands alone; a warning or an error is introduced by its
severity and by the line, if that is known. -/
def render (m : Message) : String :=
  match m.severity, m.line with
  | .info, _ => m.text
  | severity, none => label severity ++ ": " ++ m.text
  | severity, some line => label severity ++ " (line " ++ toString line ++ "): " ++ m.text

end Message

end AutomatonShell
