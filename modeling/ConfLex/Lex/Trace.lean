import ConfLex.Lex.Lexer

/-!
# Traces

A trace is a listener that replays a script of answers and records every signal it hears, with
the cursor's position, line and column at that moment. The `i`-th signal (counting from 0, ends of
line and of input included) is answered with the `i`-th scripted answer, or with a fallback once
the script runs out; at chosen signals the trace first reports a warning `event i`.

Traces show how the lexer reacts to a listener that stops it, and where it stands at each signal.
-/

namespace ConfLex

/-- A signal heard by a trace, with the answer given and where the cursor stood. -/
structure TraceEvent where
  /-- The signal. -/
  signal : Signal
  /-- The answer the trace gave. -/
  answer : Bool
  /-- The cursor's position. -/
  position : Nat
  /-- The cursor's line. -/
  line : Nat
  /-- The cursor's column. -/
  column : Nat
  deriving Repr, Inhabited

/-- A scripted listener state. -/
structure Trace where
  /-- The answers to the signals, in order. -/
  answers : List Bool := []
  /-- The answer once the script runs out. -/
  fallback : Bool := true
  /-- The numbers of the signals at which a warning is reported first. -/
  warnAt : List Nat := []
  /-- The signals heard so far. -/
  events : Array TraceEvent := #[]
  deriving Inhabited

namespace Trace

/-- The trace as a listener. -/
def listener : Listener Trace where
  hear c sig t :=
    let i := t.events.size
    let answer := t.answers.getD i t.fallback
    { go := answer
      state := { t with events := t.events.push ⟨sig, answer, c.pos, c.line, c.column⟩ }
      notes := if t.warnAt.contains i then [(.warning, "event " ++ toString i)] else [] }

end Trace

end ConfLex
