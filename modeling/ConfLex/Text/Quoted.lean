import ConfLex.Text.Unprintable
import ConfLex.Text.GraphemeExtend

/-!
# Quoted text

The quoted form of a text shows it between double quotes, with every character that could be
misread written as an escape. A backslash goes before the quote mark, the backslash itself and the
controls written `\0`, `\t`, `\r` and `\n`; a character with no visible form, or one that extends
a grapheme cluster, is written `\u{…}` with its code point in lowercase hexadecimal. A single
character is quoted between single quotes in the same way, where the single quote is escaped and
the double quote is not.

Tokens are dumped, and paths and messages are shown in error reports, in this form.
-/

namespace ConfLex.Quoted

/-- The mark that delimits a quoted form; only that mark is escaped inside it. -/
inductive Mark where
  /-- Double quotes, around a text. -/
  | double
  /-- Single quotes, around one character. -/
  | single
  deriving DecidableEq

/-- Whether a character is written by its code point: it has no visible form, or it extends a
grapheme cluster. -/
def byCodePoint (c : Char) : Bool := GraphemeExtend.contains c || Unprintable.contains c

/-- The code point escape `\u{…}` of a character, in lowercase hexadecimal without leading
zeros. -/
def codePoint (c : Char) : String := "\\u\x7b" ++ String.ofList (Nat.toDigits 16 c.toNat) ++ "\x7d"

/-- How a character is written inside a form delimited by `mark`. -/
def escape (mark : Mark) (c : Char) : String :=
  if c = '\x00' then "\\0"
  else if c = '\t' then "\\t"
  else if c = '\r' then "\\r"
  else if c = '\n' then "\\n"
  else if c = '\\' then "\\\\"
  else if c = '\x22' then (if mark = .double then "\\\"" else "\"")
  else if c = '\x27' then (if mark = .single then "\\\x27" else "\x27")
  else if byCodePoint c then codePoint c
  else c.toString

/-- The quoted form of a text. -/
def text (s : String) : String :=
  "\"" ++ String.join (s.toList.map (escape .double)) ++ "\""

/-- The quoted form of one character. -/
def char (c : Char) : String := "\x27" ++ escape .single c ++ "\x27"

example : text "a\"b\\c\n" = "\"a\\\"b\\\\c\\n\"" := by decide +kernel
example : char '\x27' = "\x27\\\x27\x27" := by decide +kernel

end ConfLex.Quoted
