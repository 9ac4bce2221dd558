import ConfLex.Lex.Cursor
import ConfLex.Lex.Token

/-!
# Signals and listeners

The lexer pushes what it reads to a listener, one signal at a time: each unit with its token, each
line feed as an end of line, and at the end of the input one more end of line and then the end of
input. With every signal the listener sees the cursor as it stands after the unit, and answers
whether the lexer should go on; it may also report messages, which the cursor records at its own
line and column. A listener keeps whatever state it likes.
-/

namespace ConfLex

/-- What the lexer hands its listener. -/
inductive Signal where
  /-- A unit that has text: an identifier, number, string, operator or comment. -/
  | unit (kind : TokenKind) (token : Token)
  /-- A line feed, or the end of line issued at the end of the input. -/
  | eol
  /-- The end of the input. -/
  | eof
  deriving DecidableEq, Repr, Inhabited

/-- The signal for a unit of `kind` read as `token`; a line feed is an end of line. -/
def Signal.ofUnit (kind : TokenKind) (token : Token) : Signal :=
  match kind with
  | .eol => .eol
  | .eof => .eof
  | kind => .unit kind token

/-- The kind of unit a signal stands for. -/
def Signal.kind : Signal → TokenKind
  | .unit kind _ => kind
  | .eol => .eol
  | .eof => .eof

/-- A listener's answer to a signal. -/
structure Reply (σ : Type) where
  /-- Whether the lexer should go on. -/
  go : Bool
  /-- The listener's next state. -/
  state : σ
  /-- Messages to report, in order, each with its level. -/
  notes : List (Level × String) := []

/-- A consumer of signals with state `σ`. -/
structure Listener (σ : Type) where
  /-- The answer to a signal, given the cursor after the unit and the current state. -/
  hear : Cursor → Signal → σ → Reply σ

/-- The same listener, except that it lets comments pass: a comment changes nothing, reports
nothing and lets the lexer go on. -/
def Listener.passComments {σ : Type} (l : Listener σ) : Listener σ where
  hear c sig s :=
    match sig with
    | .unit .comment _ => { go := true, state := s }
    | sig => l.hear c sig s

end ConfLex
