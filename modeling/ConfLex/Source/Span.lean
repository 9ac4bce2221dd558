import ConfLex.Text.Utf8

/-!
# Spans and positions

A span is a range `start..stop` of byte offsets into a source text, the start included and the
stop excluded. A position is a line, counted from 1, and a column, the number of bytes from the
start of that line. Offsets are machine words: an offset never exceeds `Span.maxOffset`.

The length of a span is defined only when its ends are in order; `len?` is `none` for a reversed
span, where asking for a length is an error.
-/

namespace ConfLex

/-- The largest byte offset, that of a 64-bit machine word. -/
def Span.maxOffset : Nat := Nat.pow 2 64 - 1

/-- A range of byte offsets, `start` included and `stop` excluded. -/
structure Span where
  /-- The first offset in the span. -/
  start : Nat
  /-- The offset just past the span. -/
  stop : Nat
  deriving DecidableEq, Repr, Inhabited

namespace Span

/-- The span `0..0`, carried by text that comes from no source. -/
def dummy : Span := ⟨0, 0⟩

/-- Whether the span covers no byte. -/
def isEmpty (s : Span) : Bool := s.start == s.stop

/-- The number of bytes in the span, if its ends are in order. -/
def len? (s : Span) : Option Nat := if s.start ≤ s.stop then some (s.stop - s.start) else none

/-- Whether an offset lies in the span. -/
def contains (s : Span) (offset : Nat) : Bool := s.start ≤ offset && offset < s.stop

/-- Whether another span lies within this one. -/
def containsSpan (s other : Span) : Bool := s.start ≤ other.start && other.stop ≤ s.stop

/-- The smallest span covering both. -/
def merge (s other : Span) : Span := ⟨min s.start other.start, max s.stop other.stop⟩

/-- The two spans as one, when the second starts where the first stops. -/
def join? (s other : Span) : Option Span :=
  if s.stop = other.start then some ⟨s.start, other.stop⟩ else none

/-- The bytes of `source` in the span, if the span is ordered, within the source and on
character boundaries. -/
def slice? (s : Span) (source : List UInt8) : Option (List UInt8) :=
  Utf8.slice? source s.start s.stop

/-- The span written `start..stop`. -/
def display (s : Span) : String := toString s.start ++ ".." ++ toString s.stop

@[simp] theorem len?_of_le {s : Span} (h : s.start ≤ s.stop) : s.len? = some (s.stop - s.start) :=
  by simp [len?, h]

@[simp] theorem len?_of_lt {s : Span} (h : s.stop < s.start) : s.len? = none := by
  simp [len?]; omega

end Span

/-- A place in a source text: a line counted from 1 and a byte column counted from 0. -/
structure Position where
  /-- The line, counted from 1. -/
  line : Nat
  /-- The number of bytes between the start of the line and the place. -/
  column : Nat
  deriving DecidableEq, Repr, Inhabited

/-- The position written `line:column`. -/
def Position.display (p : Position) : String := toString p.line ++ ":" ++ toString p.column

end ConfLex
