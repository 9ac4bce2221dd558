/-!
# Operators

The language has 33 operators, each spelled with one or two ASCII bytes. The lexer reads the
longest spelling at the front of the input: a one-byte operator, extended by a second byte when
the pair spells an operator (`->`, `<=`, `<<`, `>=`, `>>`, `&&`, `||`, `==`, `!=`).

`/`, `.` and `%` are operators too, but they start comments, numbers and identifiers as well, so
the lexer recognises them before it looks for an operator.
-/

namespace ConfLex

/-- An operator of the language. -/
inductive Operator where
  | plus | minus | asterisk | slash | circumflex | tilde
  | lParen | rParen | lBracket | rBracket | lBrace | rBrace
  | quest | dot | colon | comma | semicolon
  | eq | eqEq | notEq | lt | ltEq | shl | gt | gtEq | shr
  | and | andAnd | or | orOr | bang | percent | arrow
  deriving DecidableEq, Repr, Inhabited

namespace Operator

/-- Every operator, in the order of the declaration. -/
def all : List Operator :=
  [plus, minus, asterisk, slash, circumflex, tilde, lParen, rParen, lBracket, rBracket, lBrace,
    rBrace, quest, dot, colon, comma, semicolon, eq, eqEq, notEq, lt, ltEq, shl, gt, gtEq, shr,
    and, andAnd, or, orOr, bang, percent, arrow]

/-- How the operator is written in source text. -/
def spelling : Operator → String
  | plus => "+" | minus => "-" | asterisk => "*" | slash => "/" | circumflex => "^"
  | tilde => "~" | lParen => "(" | rParen => ")" | lBracket => "[" | rBracket => "]"
  | lBrace => "\x7b" | rBrace => "\x7d" | quest => "?" | dot => "." | colon => ":"
  | comma => "," | semicolon => ";" | eq => "=" | eqEq => "==" | notEq => "!="
  | lt => "<" | ltEq => "<=" | shl => "<<" | gt => ">" | gtEq => ">=" | shr => ">>"
  | and => "&" | andAnd => "&&" | or => "|" | orOr => "||" | bang => "!" | percent => "%"
  | arrow => "->"

/-- The operator's name, as token dumps show it. -/
def name : Operator → String
  | plus => "Plus" | minus => "Minus" | asterisk => "Asterisk" | slash => "Slash"
  | circumflex => "Circumflex" | tilde => "Tilde" | lParen => "LParen" | rParen => "RParen"
  | lBracket => "LBracket" | rBracket => "RBracket" | lBrace => "LBrace" | rBrace => "RBrace"
  | quest => "Quest" | dot => "Dot" | colon => "Colon" | comma => "Comma"
  | semicolon => "Semicolon" | eq => "Eq" | eqEq => "EqEq" | notEq => "NotEq" | lt => "Lt"
  | ltEq => "LtEq" | shl => "Shl" | gt => "Gt" | gtEq => "GtEq" | shr => "Shr" | and => "And"
  | andAnd => "AndAnd" | or => "Or" | orOr => "OrOr" | bang => "Bang" | percent => "Percent"
  | arrow => "Arrow"

/-- The number of bytes of the spelling. -/
def len (op : Operator) : Nat := op.spelling.utf8ByteSize

/-- The operator spelled exactly `s`, if there is one. -/
def ofSpelling? (s : String) : Option Operator := all.find? (·.spelling = s)

/-- The operator named `s`, if there is one. -/
def ofName? (s : String) : Option Operator := all.find? (·.name = s)

/-- The message for a text that spells no operator. -/
def unknownMessage (s : String) : String := "unknown operator: \x27" ++ s ++ "\x27"

/-- The operator that a byte spells on its own, among those the lexer reads as operators
(`/`, `.` and `%` are read before). -/
def ofByte? (b : UInt8) : Option Operator :=
  match b with
  | 43 => some plus | 45 => some minus | 42 => some asterisk | 94 => some circumflex
  | 126 => some tilde | 40 => some lParen | 41 => some rParen | 123 => some lBrace
  | 125 => some rBrace | 91 => some lBracket | 93 => some rBracket | 63 => some quest
  | 58 => some colon | 44 => some comma | 59 => some semicolon | 60 => some lt
  | 62 => some gt | 38 => some and | 124 => some or | 61 => some eq | 33 => some bang
  | _ => none

/-- The two-byte operator that `op` followed by byte `b` spells, if any. -/
def extend? (op : Operator) (b : UInt8) : Option Operator :=
  match op, b with
  | minus, 62 => some arrow
  | lt, 61 => some ltEq
  | lt, 60 => some shl
  | gt, 61 => some gtEq
  | gt, 62 => some shr
  | and, 38 => some andAnd
  | or, 124 => some orOr
  | eq, 61 => some eqEq
  | bang, 61 => some notEq
  | _, _ => none

theorem ofSpelling?_spelling (op : Operator) : ofSpelling? op.spelling = some op := by
  cases op <;> decide

end Operator

end ConfLex
