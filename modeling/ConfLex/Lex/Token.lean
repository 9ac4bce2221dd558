import ConfLex.Source.Span
import ConfLex.Lex.Operator

/-!
# Tokens and their kinds

A token is a piece of source text, kept as its UTF-8 bytes, together with the span it came from.
A token made up by the program rather than read from a source, such as an operator's spelling,
carries the dummy span `0..0`; it is called synthesized when it is not empty.

The kind of a token names the unit of the language it is: identifier, integer, float, string,
operator, comment, end of line or end of input.
-/

namespace ConfLex

/-- A piece of text and the span of bytes it occupies. -/
structure Token where
  /-- The text's UTF-8 bytes. -/
  bytes : List UInt8
  /-- Where the text lies. -/
  span : Span
  deriving DecidableEq, Repr, Inhabited

namespace Token

/-- The token of `text` starting at offset `start`, if its end is still a machine word. -/
def new? (text : String) (start : Nat) : Option Token :=
  let bytes := Utf8.encode text
  if start + bytes.length ≤ Span.maxOffset then some ⟨bytes, ⟨start, start + bytes.length⟩⟩
  else none

/-- The token of a text that comes from no source. -/
def synthesized (text : String) : Token := ⟨Utf8.encode text, Span.dummy⟩

/-- The token's text. -/
def text (t : Token) : String := Utf8.decode t.bytes

/-- The number of bytes of the text. -/
def len (t : Token) : Nat := t.bytes.length

/-- Whether the text is empty. -/
def isEmpty (t : Token) : Bool := t.bytes.isEmpty

/-- Whether the token was made up rather than read: a non-empty text with the dummy span. -/
def isSynthesized (t : Token) : Bool := t.span = Span.dummy && !t.bytes.isEmpty

end Token

/-- The token of an operator's spelling, made up rather than read. -/
def Operator.token (op : Operator) : Token := Token.synthesized op.spelling

/-- The unit of the language that a token is. -/
inductive TokenKind where
  | identifier
  | integer
  | float
  | string
  | operator (op : Operator)
  | comment
  | eol
  | eof
  deriving DecidableEq, Repr, Inhabited

/-- The kind's name, as token dumps show it. -/
def TokenKind.name : TokenKind → String
  | .identifier => "identifier"
  | .integer => "integer"
  | .float => "float"
  | .string => "string"
  | .operator _ => "operator"
  | .comment => "comment"
  | .eol => "eol"
  | .eof => "eof"

end ConfLex
