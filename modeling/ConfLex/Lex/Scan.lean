import ConfLex.Lex.ByteClass
import ConfLex.Lex.Token
import ConfLex.Lex.Error

/-!
# Scanning one unit

`Scan.next b t` reads the unit of the language that starts with byte `b`, followed by the bytes
`t`, and says how it ends: as a blank to skip, as a unit of some kind spanning the first `length`
bytes, or as a lexical error found `offset` bytes ahead. The scanner is a function of the bytes
alone; a cursor then moves over the bytes it says were read.

Every unit takes the longest text that its rule allows:

* `//` runs to the end of the line, without the line feed; `/*` runs to the first `*/` after it;
* `.` followed by a digit starts a float, `%` followed by a word byte an identifier;
* `0x` or `0X` needs hexadecimal digits; other numbers are decimal digits, optionally followed by
  `.`, more digits and an exponent `e` or `E`, optional sign and digits;
* a string runs from `"` to the next `"` not escaped by a backslash, and may not hold a line
  feed, escaped or not;
* an identifier starts with a letter or one of `$ _ @` and runs over word bytes;
* an operator is one byte, or two when the pair spells one.

An error says which byte broke the rule. Where a character is reported, it is the character that
starts at that byte; a byte inside a multi-byte character is reported as the character whose code
point is the byte's value.
-/

namespace ConfLex

open ByteClass

/-- How the unit at the front of the remaining input ends. -/
inductive Scan where
  /-- A space, tab or carriage return, skipped without a signal. -/
  | blank
  /-- A unit of `kind` whose text is the first `length` bytes. -/
  | unit (kind : TokenKind) (length : Nat)
  /-- An error of `kind`, found after reading the first `offset` bytes. -/
  | fault (kind : LexErrorKind) (offset : Nat)
  deriving DecidableEq, Repr

namespace Scan

/-- The same ending, `k` bytes further into the input. -/
def shift (k : Nat) : Scan → Scan
  | blank => blank
  | unit kind n => unit kind (k + n)
  | fault e n => fault e (k + n)

/-- The rest of a float after its fraction digits: nothing, or an exponent. An `e` or `E` must
be followed by a byte, then an optional sign, then at least one digit. -/
def exponent : List UInt8 → Scan
  | [] => unit .float 0
  | e :: rest =>
    if e = 101 || e = 69 then
      match rest with
      | [] => fault .unexpectedEof 1
      | s :: signed =>
        let (signLength, digits) := if s = 43 || s = 45 then (1, signed) else (0, rest)
        if digits.head?.map isDecDigit = some true then
          unit .float (1 + signLength + (digits.takeWhile isDecDigit).length)
        else fault (.malformedExponent (Utf8.leadingChar? digits)) (1 + signLength)
    else unit .float 0

/-- A float from its fraction digits on: the digits, then an exponent. -/
def fraction (bytes : List UInt8) : Scan :=
  (exponent (bytes.dropWhile isDecDigit)).shift (bytes.takeWhile isDecDigit).length

/-- A decimal number from its digits on: an integer, or a float when a `.` follows the
digits. -/
def number (bytes : List UInt8) : Scan :=
  let digits := (bytes.takeWhile isDecDigit).length
  match bytes.dropWhile isDecDigit with
  | 46 :: tail => (fraction tail).shift (digits + 1)
  | _ => unit .integer digits

/-- The body of a string literal after its opening quote, up to and including the closing
quote. `escaped` says that the byte before was an escaping backslash. -/
def stringBody (escaped : Bool) : List UInt8 → Scan
  | [] => fault .eofInString 0
  | b :: rest =>
    if b = 10 then fault .lineBreakInString 0
    else if b = 34 && !escaped then unit .string 1
    else if b = 92 && !escaped then
      match rest with
      | [] => fault .unexpectedEof 1
      | _ :: _ => (stringBody true rest).shift 1
    else (stringBody false rest).shift 1

/-- The body of a block comment after `/*`, up to and including the first `*/`. Each byte read
must be followed by another one. -/
def blockBody : List UInt8 → Scan
  | [] => fault .unexpectedEof 0
  | b :: rest =>
    match rest with
    | [] => fault .unexpectedEof 1
    | d :: _ => if b = 42 && d = 47 then unit .comment 2 else (blockBody rest).shift 1

/-- An operator starting with byte `b`: two bytes when `b` and the next byte spell one, else
one; an error for a byte that starts no operator. -/
def operator (b : UInt8) (t : List UInt8) : Scan :=
  match Operator.ofByte? b with
  | some op =>
    match t.head?.bind op.extend? with
    | some longer => unit (.operator longer) 2
    | none => unit (.operator op) 1
  | none => fault (.invalidCharacter ((Utf8.leadingChar? (b :: t)).getD (Char.ofNat b.toNat))) 0

/-- The unit that starts with byte `b`, followed by the bytes `t`. -/
def next (b : UInt8) (t : List UInt8) : Scan :=
  if b = 47 then
    match t with
    | 47 :: _ => unit .comment (1 + (t.takeWhile (· ≠ 10)).length)
    | 42 :: body =>
      match body with
      | [] => fault .unexpectedEof 2
      | _ :: _ => (blockBody body).shift 2
    | _ => unit (.operator .slash) 1
  else if b = 46 then
    if t.head?.map isDecDigit = some true then (fraction t).shift 1 else unit (.operator .dot) 1
  else if b = 37 then
    if t.head?.map isAlnum = some true then unit .identifier (1 + (t.takeWhile isAlnum).length)
    else unit (.operator .percent) 1
  else if b = 48 then
    match t with
    | x :: digits =>
      if x = 120 || x = 88 then
        if digits.head?.map isHexDigit = some true then
          unit .integer (2 + (digits.takeWhile isHexDigit).length)
        else fault (.malformedHexLiteral (Utf8.leadingChar? digits)) 2
      else (number t).shift 1
    | [] => unit .integer 1
  else if b = 34 then (stringBody false t).shift 1
  else if b = 10 then unit .eol 1
  else if isBlank b then blank
  else if isDecDigit b then (number t).shift 1
  else if isIdentStart b then unit .identifier (1 + (t.takeWhile isAlnum).length)
  else operator b t

theorem le_of_shift_eq_unit {k : Nat} {s : Scan} {kind : TokenKind} {n : Nat}
    (h : s.shift k = unit kind n) : k ≤ n := by
  cases s <;> simp [shift] at h
  omega

theorem pos_of_operator_eq_unit {b : UInt8} {t : List UInt8} {kind : TokenKind} {n : Nat}
    (h : operator b t = unit kind n) : 0 < n := by
  unfold operator at h
  repeat' split at h
  all_goals first
    | (cases h; omega)
    | cases h

/-- A unit takes at least one byte, so the lexer always moves on. -/
theorem pos_of_next_eq_unit {b : UInt8} {t : List UInt8} {kind : TokenKind} {n : Nat}
    (h : next b t = unit kind n) : 0 < n := by
  unfold next at h
  repeat' split at h
  all_goals first
    | exact Nat.lt_of_lt_of_le (by omega) (le_of_shift_eq_unit h)
    | exact pos_of_operator_eq_unit h
    | (cases h; omega)
    | cases h

end Scan

end ConfLex
