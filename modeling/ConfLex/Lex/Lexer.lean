import ConfLex.Lex.Scan
import ConfLex.Lex.Listener

/-!
# The lexer

`Lexer.run` scans the input from a cursor to its end, one unit at a time, and hands each unit to
a listener. Blanks are skipped without a signal. When the listener answers that the lexer should
stop, the run ends at once, successfully. When the input runs out, the listener hears one more
end of line and then the end of input, whatever it answers. The first lexical error ends the run
with that error, after its message has been reported at the place of the error.

Every unit takes at least one byte (`Scan.pos_of_next_eq_unit`), so the run ends: it recurses on
the number of bytes left.
-/

namespace ConfLex

/-- Where a run of the lexer ended: the cursor, the listener's state, and the error that stopped
it, if any. -/
structure Run (σ : Type) where
  /-- The cursor where the run ended. -/
  cursor : Cursor
  /-- The listener's state at the end. -/
  state : σ
  /-- The error that stopped the run, if any. -/
  result : Except LexError Unit

namespace Lexer

variable {σ : Type}

/-- Hands a signal to the listener, recording the messages it reports. -/
def tell (l : Listener σ) (c : Cursor) (sig : Signal) (s : σ) : Bool × Cursor × σ :=
  let r := l.hear c sig s
  (r.go, c.reportAll r.notes, r.state)

/-- The end of a run that read all of its input: an end of line, then the end of input. -/
def finish (l : Listener σ) (c : Cursor) (s : σ) : Run σ :=
  let r1 := tell l c .eol s
  let r2 := tell l r1.2.1 .eof r1.2.2
  ⟨r2.2.1, r2.2.2, .ok ()⟩

/-- Scans the input from `c` on, handing every unit to `l`, whose state starts as `s`. -/
def run (l : Listener σ) (c : Cursor) (s : σ) : Run σ :=
  match h : c.rest with
  | [] => finish l c s
  | b :: t =>
    match hs : Scan.next b t with
    | .blank => run l c.advance s
    | .unit kind n =>
      let c1 := c.advanceBy n
      let r := l.hear c1 (Signal.ofUnit kind ⟨(b :: t).take n, ⟨c.pos, c.pos + n⟩⟩) s
      let c2 := c1.reportAll r.notes
      if r.go then run l c2 r.state else ⟨c2, r.state, .ok ()⟩
    | .fault kind n =>
      let failed := (c.advanceBy n).fail kind
      ⟨failed.1, s, .error failed.2⟩
termination_by c.rest.length
decreasing_by
  · simp [h]
  · have := Scan.pos_of_next_eq_unit hs
    simp only [Cursor.rest_reportAll, Cursor.rest_advanceBy, h, List.length_drop,
      List.length_cons]
    omega

/-- A lexer over a cursor in structured form. -/
def debug (c : Cursor) : String := "Lexer \x7b stream: " ++ c.debug ++ " \x7d"

end Lexer

end ConfLex
