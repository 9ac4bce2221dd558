import ConfLex.Lex.Lexer

/-!
# Collecting lexemes

A collector is the listener that records every unit as a lexeme: its kind, its text, its span and
the line it starts on. It can skip comments, and it can stop the lexer once it has recorded a
given number of content units, that is of units other than ends of line and of input.

An end of line right after a line feed is recorded with that line feed as its text and span,
unless the last unit recorded or skipped already ended there. Every other end of line, and the
end of input, is recorded as empty text at the cursor's position: so the end of line issued when
the input runs out is empty.
-/

namespace ConfLex

/-- A recorded unit: its kind, text, span and the line on which it starts. -/
structure Lexeme where
  /-- The kind of unit. -/
  kind : TokenKind
  /-- The text's UTF-8 bytes. -/
  bytes : List UInt8
  /-- Where the text lies. -/
  span : Span
  /-- The line on which the span starts. -/
  line : Nat
  deriving DecidableEq, Repr, Inhabited

/-- The lexeme's text. -/
def Lexeme.text (x : Lexeme) : String := Utf8.decode x.bytes

/-- A listener state that records lexemes. -/
structure Collector where
  /-- The lexemes recorded so far, in order. -/
  lexemes : Array Lexeme := #[]
  /-- The number of content units after which to stop, if any. -/
  limit : Option Nat := none
  /-- Whether comments are left out. -/
  skipComments : Bool := false
  /-- The number of content units recorded. -/
  count : Nat := 0
  /-- Where the last recorded or skipped unit ended. -/
  lastEnd : Option Nat := none
  /-- Whether the collector stopped the lexer at its limit. -/
  stopped : Bool := false
  deriving Inhabited

namespace Collector

/-- Whether the limit has been reached. -/
def limitReached (col : Collector) : Bool :=
  match col.limit with
  | some k => k ≤ col.count
  | none => false

/-- The line on which an offset lies, by the line starts the cursor has passed: the number of
leading starts at or before it. -/
def lineOf (c : Cursor) (offset : Nat) : Nat := (c.lineStarts.toList.takeWhile (· ≤ offset)).length

/-- Records a lexeme. -/
def record (c : Cursor) (kind : TokenKind) (bytes : List UInt8) (span : Span) (col : Collector) :
    Collector :=
  { col with
    lexemes := col.lexemes.push ⟨kind, bytes, span, lineOf c span.start⟩
    lastEnd := some span.stop }

/-- Records a content unit unless the limit is reached, and stops the lexer once it is. -/
def content (c : Cursor) (kind : TokenKind) (token : Token) (col : Collector) : Reply Collector :=
  let col := if col.limitReached then col
    else { col.record c kind token.bytes token.span with count := col.count + 1 }
  if col.limitReached then { go := false, state := { col with stopped := true } }
  else { go := true, state := col }

/-- Records an end of line or of input at the cursor. -/
def event (c : Cursor) (kind : TokenKind) (col : Collector) : Collector :=
  let pos := c.pos
  let afterNewline := 0 < pos && c.source[pos - 1]? = some 10
  if kind = .eol && afterNewline && col.lastEnd ≠ some pos then
    col.record c kind [10] ⟨pos - 1, pos⟩
  else col.record c kind [] ⟨pos, pos⟩

/-- The collector as a listener. -/
def listener : Listener Collector where
  hear c sig col :=
    match sig with
    | .unit .comment token =>
      if col.skipComments then { go := true, state := { col with lastEnd := some token.span.stop } }
      else content c .comment token col
    | .unit kind token => content c kind token col
    | .eol => { go := true, state := event c .eol col }
    | .eof => { go := true, state := event c .eof col }

end Collector

/-- Lexes a whole text with a collector that records everything. -/
def tokenize (source : List UInt8) (name : String) : Run Collector :=
  Lexer.run Collector.listener (Cursor.new source name) {}

end ConfLex
