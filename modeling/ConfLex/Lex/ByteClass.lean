/-!
# Byte classes

The language is written in ASCII. Every class here is a predicate on one byte, so no byte of a
multi-byte UTF-8 character belongs to any of them.

An identifier starts with a letter or one of `$ _ . @` and goes on with those and the decimal
digits; numbers use the decimal, octal, hexadecimal and binary digit classes.
-/

namespace ConfLex.ByteClass

/-- An ASCII letter, `A`–`Z` or `a`–`z`. -/
def isLetter (b : UInt8) : Bool := (65 ≤ b && b ≤ 90) || (97 ≤ b && b ≤ 122)

/-- A decimal digit, `0`–`9`. -/
def isDecDigit (b : UInt8) : Bool := 48 ≤ b && b ≤ 57

/-- An octal digit, `0`–`7`. -/
def isOctDigit (b : UInt8) : Bool := 48 ≤ b && b ≤ 55

/-- A hexadecimal digit, `0`–`9`, `A`–`F` or `a`–`f`. -/
def isHexDigit (b : UInt8) : Bool := isDecDigit b || (65 ≤ b && b ≤ 70) || (97 ≤ b && b ≤ 102)

/-- A binary digit, `0` or `1`. -/
def isBinDigit (b : UInt8) : Bool := b = 48 || b = 49

/-- A byte that can start an identifier: a letter or one of `$ _ . @`. -/
def isIdentStart (b : UInt8) : Bool := isLetter b || b = 36 || b = 95 || b = 46 || b = 64

/-- A byte that can continue an identifier: an identifier start or a decimal digit. -/
def isIdentContinue (b : UInt8) : Bool := isIdentStart b || isDecDigit b

/-- A byte of a word: the same class as `isIdentContinue`. -/
def isAlnum (b : UInt8) : Bool := isIdentContinue b

/-- A blank that separates units without a signal: space, tab or carriage return. -/
def isBlank (b : UInt8) : Bool := b = 32 || b = 9 || b = 13

end ConfLex.ByteClass
