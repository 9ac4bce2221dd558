import ConfLex.Text.Quoted

/-!
# Lexical errors

A lexical error has a kind and the line and column at which it was found. The message of an
error depends on its kind only; the kinds that report a character found in the wrong place say
`invalid input character: 'c'`, or `invalid input character: end of file` when there was none.

`debug` writes an error in the structured form that error reports show, such as
`LexError { kind: InvalidCharacter('#'), line: 1, column: 2 }`.
-/

namespace ConfLex

/-- What went wrong while lexing. -/
inductive LexErrorKind where
  /-- A character that starts no unit of the language. -/
  | invalidCharacter (c : Char)
  /-- The input ended where a unit needs more bytes. -/
  | unexpectedEof
  /-- A line feed inside a string literal. -/
  | lineBreakInString
  /-- The input ended inside a string literal. -/
  | eofInString
  /-- `0x` not followed by a hexadecimal digit; the character found there, if any. -/
  | malformedHexLiteral (found : Option Char)
  /-- An exponent without a digit; the character found there, if any. -/
  | malformedExponent (found : Option Char)
  deriving DecidableEq, Repr, Inhabited

namespace LexErrorKind

/-- A found character between single quotes, or `end of file` when there was none. -/
def describe : Option Char → String
  | some c => "\x27" ++ c.toString ++ "\x27"
  | none => "end of file"

/-- The message of an error of this kind. -/
def message : LexErrorKind → String
  | invalidCharacter c => "invalid input character: " ++ describe (some c)
  | unexpectedEof => "unexpected end of file"
  | lineBreakInString => "line break in string literal"
  | eofInString => "end of file in string literal"
  | malformedHexLiteral found => "invalid input character: " ++ describe found
  | malformedExponent found => "invalid input character: " ++ describe found

/-- The name of the kind. -/
def name : LexErrorKind → String
  | invalidCharacter _ => "InvalidCharacter"
  | unexpectedEof => "UnexpectedEof"
  | lineBreakInString => "LineBreakInString"
  | eofInString => "EofInString"
  | malformedHexLiteral _ => "MalformedHexLiteral"
  | malformedExponent _ => "MalformedExponent"

/-- The character that the kind carries, if any. -/
def found? : LexErrorKind → Option Char
  | invalidCharacter c => some c
  | malformedHexLiteral found => found
  | malformedExponent found => found
  | _ => none

/-- A found character in structured form: `Some('c')` or `None`. -/
def debugFound : Option Char → String
  | some c => "Some(" ++ Quoted.char c ++ ")"
  | none => "None"

/-- The kind in structured form, such as `InvalidCharacter('#')` or `MalformedExponent(None)`. -/
def debug : LexErrorKind → String
  | invalidCharacter c => "InvalidCharacter(" ++ Quoted.char c ++ ")"
  | malformedHexLiteral found => "MalformedHexLiteral(" ++ debugFound found ++ ")"
  | malformedExponent found => "MalformedExponent(" ++ debugFound found ++ ")"
  | k => k.name

end LexErrorKind

/-- A lexical error and where it was found. -/
structure LexError where
  /-- What went wrong. -/
  kind : LexErrorKind
  /-- The line, counted from 1. -/
  line : Nat
  /-- The byte column, counted from 0. -/
  column : Nat
  deriving DecidableEq, Repr, Inhabited

/-- The error's message, that of its kind. -/
def LexError.message (e : LexError) : String := e.kind.message

/-- The error in structured form. -/
def LexError.debug (e : LexError) : String :=
  "LexError \x7b kind: " ++ e.kind.debug ++ ", line: " ++ toString e.line ++ ", column: " ++
    toString e.column ++ " \x7d"

end ConfLex
