import ConfLex.Source.Span

/-!
# Diagnostics

A diagnostic is a message of a severity level about a position in a named stream. It is written
`stream:line:column: level: message`. Terminals show the level's name in a colour of its own,
which `Level.ansiColor` gives as an escape sequence; whether colour is used at all is a
`ColorChoice` together with whether the output is a terminal.
-/

namespace ConfLex

/-- How severe a diagnostic is. -/
inductive Level where
  /-- A fault that makes the input unusable. -/
  | error
  /-- A remark that leaves the input usable. -/
  | warning
  deriving DecidableEq, Repr, Inhabited

namespace Level

/-- Whether the level is `error`. -/
def isError : Level → Bool
  | .error => true
  | .warning => false

/-- The level's name as it is written. -/
def name : Level → String
  | .error => "error"
  | .warning => "warning"

/-- The terminal escape sequence that colours the level: bold red or bold yellow. -/
def ansiColor : Level → String
  | .error => "\x1b[1;31m"
  | .warning => "\x1b[1;33m"

/-- The level of a name, if it names one. -/
def ofName? : String → Option Level
  | "error" => some .error
  | "warning" => some .warning
  | _ => none

end Level

/-- A message of some severity about a position in a named stream. -/
structure Diagnostic where
  /-- How severe it is. -/
  level : Level
  /-- What it says. -/
  message : String
  /-- The name of the stream it is about. -/
  stream : String
  /-- Where in the stream. -/
  position : Position
  deriving DecidableEq, Repr, Inhabited

/-- The diagnostic written `stream:line:column: level: message`. -/
def Diagnostic.display (d : Diagnostic) : String :=
  d.stream ++ ":" ++ d.position.display ++ ": " ++ d.level.name ++ ": " ++ d.message

/-- When output is coloured. -/
inductive ColorChoice where
  /-- Exactly when the output is a terminal. -/
  | auto
  /-- Always. -/
  | always
  /-- Never. -/
  | never
  deriving DecidableEq, Repr, Inhabited

/-- Whether output that is, or is not, a terminal gets colour. -/
def ColorChoice.useColor (choice : ColorChoice) (isTty : Bool) : Bool :=
  match choice with
  | .auto => isTty
  | .always => true
  | .never => false

end ConfLex
