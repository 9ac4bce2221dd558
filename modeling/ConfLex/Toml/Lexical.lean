import ConfLex.Toml.Reader

/-!
# TOML: lexical rules

The pieces of a TOML 1.0 text that hold no other values: blanks, comments and line ends, keys,
the four forms of strings, integers, floats, booleans and date-times.

Strings follow the rules of the format: basic strings take the escapes `\b \t \n \f \r \" \\`,
`\uXXXX` and `\UXXXXXXXX` (of Unicode scalar values), literal strings take none, and no string
holds a control character other than tab. Integers are decimal without leading zeros, or
hexadecimal, octal or binary after `0x`, `0o` or `0b`, with single underscores between digits,
and fit in 64 signed bits. Floats need a fraction or an exponent, or are `inf` or `nan`; a
written float whose value is too large for a binary64 float, so that it would round to positive
infinity, is refused (a negative one rounds to negative infinity and is kept). Date-times are
full dates, local times, or both joined by `T`, `t` or a space, with an optional offset.

Every reader here reads forward. The strings and the parts of a key are read by loops
(`Reader.loop`) whose rounds read a character each time they ask for another.

Nesting is bounded: a key has fewer than `maxDepth` parts, and a value lies inside fewer than
`maxDepth` arrays and inline tables.
-/

namespace ConfLex.Toml

open Reader

/-! ## Blanks, comments and line ends -/

/-- A space or a tab. -/
def isBlankChar (c : Char) : Bool := c = ' ' || c = '\t'

/-- Skips spaces and tabs. -/
def skipBlanks : Reader Unit := discard (readWhile isBlankChar)

/-- A character allowed in a comment: tab, or any character but a control one. -/
def isCommentChar (c : Char) : Bool := c = '\t' || (0x20 ≤ c.toNat && c.toNat ≠ 0x7F)

/-- Skips the body of a comment after its `#`, up to the end of the line. -/
def commentBody : Reader Unit := do
  let body ← readWhile fun c => c ≠ '\n' && c ≠ '\r'
  unless body.all isCommentChar do fail "invalid character in comment"

/-- Skips a comment, if one comes next. -/
def skipComment : Reader Unit := do
  if ← eat '#' then commentBody

/-- Reads a line end, `\n` or `\r\n`, or the end of the text. -/
def lineEnd : Reader Unit := do
  match ← peek with
  | none => pure ()
  | some '\n' => bump
  | some '\r' => bump; expect '\n'
  | some _ => fail "expected newline"

theorem Reader.Forward.skipBlanks : Forward skipBlanks := fun cs _ _ h => by
  cases h
  exact List.dropWhile_suffix _

theorem Reader.Forward.commentBody : Forward commentBody := by
  refine (readWhile _).bind fun body => ?_
  split
  · exact pure _
  · exact fail _

theorem Reader.Forward.skipComment : Forward skipComment := by
  refine (eat '#').bind fun b => ?_
  split
  · exact commentBody
  · exact pure _

theorem Reader.Forward.lineEnd : Forward lineEnd := by
  refine peek.bind fun o => ?_
  split
  · exact pure _
  · exact bump
  · exact bump.bind fun _ => expect _
  · exact fail _

/-! ## Escapes -/

/-- A character of a bare key: an ASCII letter or digit, `_` or `-`. -/
def isBareKeyChar (c : Char) : Bool :=
  (c.isAlpha && c.toNat < 128) || (c.isDigit && c.toNat < 128) || c = '_' || c = '-'

/-- The value of a hexadecimal digit. -/
def hexDigit? (c : Char) : Option Nat :=
  if '0' ≤ c && c ≤ '9' then some (c.toNat - 48)
  else if 'a' ≤ c && c ≤ 'f' then some (c.toNat - 87)
  else if 'A' ≤ c && c ≤ 'F' then some (c.toNat - 55)
  else none

/-- The number that `n` hexadecimal digits spell, skipping them. -/
def readHex (n : Nat) : Reader Nat := do
  let digits ← fun (s : List Char) => Except.ok (s.take n, s.drop n)
  if digits.length < n then fail "incomplete escape" else
  digits.foldlM (fun acc c =>
    match hexDigit? c with
    | some d => pure (acc * 16 + d)
    | none => fail "invalid escape") 0

/-- The character of an escape in a basic string, after its backslash. -/
def readEscape : Reader Char := do
  let c ← peek
  bump
  match c with
  | some 'b' => pure '\x08'
  | some 't' => pure '\t'
  | some 'n' => pure '\n'
  | some 'f' => pure '\x0c'
  | some 'r' => pure '\r'
  | some '"' => pure '"'
  | some '\\' => pure '\\'
  | some 'u' => scalar (← readHex 4)
  | some 'U' => scalar (← readHex 8)
  | _ => fail "invalid escape"
where
  /-- The character of a code point, which must be a Unicode scalar value. -/
  scalar (n : Nat) : Reader Char :=
    if n < 0xD800 || (0xE000 ≤ n && n < 0x110000) then pure (Char.ofNat n)
    else fail "invalid unicode escape"

/-- Skips a line end right after the opening delimiter of a multi-line string. -/
def skipFirstNewline : Reader Unit := do
  if ← lookingAt "\n" then skip 1
  else if ← lookingAt "\r\n" then skip 2

theorem Reader.Forward.readHex (n : Nat) : Forward (Toml.readHex n) := by
  refine Forward.bind (fun cs _ _ h => by cases h; exact List.drop_suffix n cs) fun digits => ?_
  split
  · exact fail _
  · refine foldlM (fun acc c => ?_) digits 0
    split
    · exact pure _
    · exact fail _

theorem Reader.Forward.readEscape : Forward Toml.readEscape := by
  have hscalar : ∀ n, Forward (Toml.readEscape.scalar n) := fun n => by
    unfold Toml.readEscape.scalar
    split
    · exact pure _
    · exact fail _
  refine peek.bind fun c => bump.bind fun _ => ?_
  split <;> first
    | exact pure _
    | exact (readHex _).bind hscalar
    | exact fail _

theorem Reader.Forward.skipFirstNewline : Forward Toml.skipFirstNewline := by
  refine (lookingAt _).bind fun b => ?_
  split
  · exact skip 1
  · refine (lookingAt _).bind fun b' => ?_
    split
    · exact skip 2
    · exact pure _

/-! ## Strings -/

/-- A character that a string may hold as itself: tab, or any character but a control one. -/
def isStringChar (c : Char) : Bool := c = '\t' || (0x20 ≤ c.toNat && c.toNat ≠ 0x7F)

/-- A round of a one-line basic string, with the characters read so far in reverse. -/
def basicRound (acc : List Char) : Reader (Round (List Char) String) := do
  let c ← take "unterminated string"
  if c = '"' then return .done (String.ofList acc.reverse)
  else if c = '\\' then return .next ((← readEscape) :: acc)
  else if isStringChar c then return .next (c :: acc)
  else fail "invalid character in string"

theorem Reader.Strict.basicRound (acc : List Char) : Strict (basicRound acc) := by
  refine (take _).bind fun c => ?_
  split
  · exact Forward.pure _
  · split
    · exact Forward.readEscape.bind fun _ => Forward.pure _
    · split
      · exact Forward.pure _
      · exact Forward.fail _

/-- The rest of a one-line basic string after its opening quote. -/
def basicString : Reader String := loop basicRound (fun acc => (Strict.basicRound acc).advances) []

/-- A round of a one-line literal string, with the characters read so far in reverse. -/
def literalRound (acc : List Char) : Reader (Round (List Char) String) := do
  let c ← take "unterminated string"
  if c = '\x27' then return .done (String.ofList acc.reverse)
  else if isStringChar c then return .next (c :: acc)
  else fail "invalid character in string"

theorem Reader.Strict.literalRound (acc : List Char) : Strict (literalRound acc) := by
  refine (take _).bind fun c => ?_
  split
  · exact Forward.pure _
  · split
    · exact Forward.pure _
    · exact Forward.fail _

/-- The rest of a one-line literal string after its opening quote. -/
def literalString : Reader String :=
  loop literalRound (fun acc => (Strict.literalRound acc).advances) []

/-- Skips the blanks and line ends that follow a line-ending backslash. -/
def skipLineContinuation : Reader Unit
  | ' ' :: rest | '\t' :: rest | '\n' :: rest => skipLineContinuation rest
  | '\r' :: '\n' :: rest => skipLineContinuation rest
  | '\r' :: _ => .error "expected \n"
  | cs => .ok ((), cs)

theorem Reader.Forward.skipLineContinuation : Forward skipLineContinuation := by
  intro cs
  fun_induction Toml.skipLineContinuation cs with
  | case1 rest ih | case2 rest ih | case3 rest ih =>
    intro a r h
    rw [StateT.run, Toml.skipLineContinuation] at h
    exact (ih a r h).trans (List.suffix_cons _ _)
  | case4 rest ih =>
    intro a r h
    rw [StateT.run, Toml.skipLineContinuation] at h
    exact (ih a r h).trans (List.suffix_append [_, _] rest)
  | case5 rest hr =>
    intro a r h
    rw [StateT.run, Toml.skipLineContinuation] at h
    · cases h
    · exact hr
  | case6 cs h1 h2 h3 h4 h5 =>
    intro a r h
    rw [StateT.run, Toml.skipLineContinuation] at h
    · cases h
      exact List.suffix_refl cs
    all_goals assumption

/-- A character that may follow the backslash of a line-ending backslash: a blank or a line
end. -/
def isContinuationChar (c : Char) : Bool := c = ' ' || c = '\t' || c = '\n' || c = '\r'

/-- A round of a multi-line string whose delimiter is made of `quote`, `"` (with escapes) or `'`
(without), with the characters read so far in reverse. Up to two quotes may stand right before
the closing delimiter. -/
def multiLineRound (quote : Char) (acc : List Char) : Reader (Round (List Char) String) := do
  let c ← take "unterminated string"
  if c = quote then
    let run ← readWhile (· = quote)
    if run.length < 2 then return .next (c :: run ++ acc)
    else if run.length > 4 then fail "too many quotes"
    else return .done (String.ofList (List.replicate (run.length - 2) quote ++ acc).reverse)
  else if c = '\\' && quote = '"' then
    if (← peek).any isContinuationChar then
      skipBlanks
      if (← peek).any (fun d => d = '\n' || d = '\r') then
        skipLineContinuation
        return .next acc
      else fail "invalid escape"
    else return .next ((← readEscape) :: acc)
  else if c = '\n' then return .next ('\n' :: acc)
  else if c = '\r' then
    expect '\n'
    return .next ('\n' :: acc)
  else if isStringChar c then return .next (c :: acc)
  else fail "invalid character in string"

theorem Reader.Strict.multiLineRound (quote : Char) (acc : List Char) :
    Strict (multiLineRound quote acc) := by
  refine (take _).bind fun c => ?_
  split
  · refine (Forward.readWhile _).bind fun run => ?_
    split
    · exact Forward.pure _
    · split
      · exact Forward.fail _
      · exact Forward.pure _
  · split
    · refine Forward.peek.bind fun o => ?_
      split
      · refine Forward.skipBlanks.bind fun _ => Forward.peek.bind fun o' => ?_
        split
        · exact Forward.skipLineContinuation.bind fun _ => Forward.pure _
        · exact Forward.fail _
      · exact Forward.readEscape.bind fun _ => Forward.pure _
    · split
      · exact Forward.pure _
      · split
        · exact (Forward.expect _).bind fun _ => Forward.pure _
        · split
          · exact Forward.pure _
          · exact Forward.fail _

/-- The rest of a multi-line string after its opening delimiter, three times `quote`. -/
def multiLineString (quote : Char) : Reader String :=
  loop (multiLineRound quote) (fun acc => (Strict.multiLineRound quote acc).advances) []

/-- A string in any of the four forms; the next character is a quote. -/
def readString : Reader String := do
  if ← lookingAt "\"\"\"" then skip 3; skipFirstNewline; multiLineString '"'
  else if ← lookingAt "\x27\x27\x27" then skip 3; skipFirstNewline; multiLineString '\x27'
  else if ← eat '"' then basicString
  else bump; literalString

theorem Reader.Forward.readString : Forward readString := by
  refine (lookingAt _).bind fun b => ?_
  split
  · exact (skip 3).bind fun _ => skipFirstNewline.bind fun _ => loop []
  · refine (lookingAt _).bind fun b' => ?_
    split
    · exact (skip 3).bind fun _ => skipFirstNewline.bind fun _ => loop []
    · refine (eat _).bind fun b'' => ?_
      split
      · exact loop []
      · exact bump.bind fun _ => loop []

/-! ## Keys -/

/-- One part of a key: a bare key or a one-line string. -/
def readSimpleKey : Reader String := do
  match ← peek with
  | some '"' => bump; basicString
  | some '\x27' => bump; literalString
  | _ =>
    let name ← readWhile isBareKeyChar
    if name.isEmpty then fail "expected a key" else pure (String.ofList name)

theorem Reader.Forward.readSimpleKey : Forward readSimpleKey := by
  refine peek.bind fun o => ?_
  split
  · exact bump.bind fun _ => loop []
  · exact bump.bind fun _ => loop []
  · refine (readWhile _).bind fun name => ?_
    split
    · exact fail _
    · exact pure _

/-- The bound on nesting: the parts of a key, and the arrays and inline tables around a value,
are fewer than this. -/
def maxDepth : Nat := 80

/-- A round of the parts of a key, with the parts read so far in reverse: a simple key and the
blanks after it, and another round if a dot follows them. -/
def keyRound (parts : List String) : Reader (Round (List String) (List String)) := do
  let part ← readSimpleKey
  skipBlanks
  if ← eat '.' then
    skipBlanks
    return .next (part :: parts)
  else return .done (part :: parts).reverse

theorem Reader.Advances.keyRound (parts : List String) : Advances (keyRound parts) :=
  Advances.bind Forward.readSimpleKey fun _ => Advances.bind Forward.skipBlanks fun _ =>
    Advances.ite_eat '.' (Forward.skipBlanks.bind fun _ => Forward.pure _) (Advances.done _)

/-- The parts of a key, simple keys joined by dots, and the blanks after it. -/
def readKeyParts : Reader (List String) := loop keyRound Advances.keyRound []

/-- A key of fewer than `maxDepth` parts, and the blanks after it. -/
def readKey : Reader (List String) := do
  let parts ← readKeyParts
  if maxDepth ≤ parts.length then fail "key too deep" else pure parts

theorem Reader.Forward.readKey : Forward readKey := by
  refine (loop []).bind fun parts => ?_
  split
  · exact fail _
  · exact pure _

/-! ## Numbers and date-times -/

/-- Digits of a base with single underscores between them, as a number; `none` if the text
breaks that rule. -/
def digitsValue (base : Nat) (cs : List Char) : Option Nat :=
  let digit (c : Char) : Option Nat := (hexDigit? c).bind fun d => if d < base then some d else none
  let rec go (acc : Nat) (lastUnderscore : Bool) : List Char → Option Nat
    | [] => if lastUnderscore then none else some acc
    | '_' :: rest => if lastUnderscore then none else go acc true rest
    | c :: rest => (digit c).bind fun d => go (acc * base + d) false rest
  match cs with
  | [] => none
  | '_' :: _ => none
  | _ => go 0 false cs

/-- A decimal integer text with an optional sign: no leading zero unless it is `0`. -/
def decimalValue (cs : List Char) : Option Int :=
  let (negative, digits) := match cs with
    | '+' :: rest => (false, rest)
    | '-' :: rest => (true, rest)
    | _ => (false, cs)
  match digits with
  | '0' :: _ :: _ => none
  | _ => (digitsValue 10 digits).map fun n => if negative then -(n : Int) else n

/-- The integer that a text spells, if it is one that fits in 64 signed bits. -/
def integerValue (cs : List Char) : Option Int :=
  let value : Option Int := match cs with
    | '0' :: 'x' :: rest => (digitsValue 16 rest).map Int.ofNat
    | '0' :: 'o' :: rest => (digitsValue 8 rest).map Int.ofNat
    | '0' :: 'b' :: rest => (digitsValue 2 rest).map Int.ofNat
    | _ => decimalValue cs
  value.bind fun v => if -Int.pow 2 63 ≤ v && v < Int.pow 2 63 then some v else none

/-- The number that decimal digits spell. -/
def digitsNat (cs : List Char) : Nat := cs.foldl (fun n c => 10 * n + (c.toNat - '0'.toNat)) 0

/-- The least value that rounds to infinity as a binary64 float: halfway between the largest
finite float, `(2 ^ 53 - 1) · 2 ^ 971`, and `2 ^ 1024`. -/
def overflowLimit : Nat := Nat.pow 2 1024 - Nat.pow 2 970

/-- Whether `m · 10 ^ e` is at least `overflowLimit`. The limit lies between `10 ^ 308` and
`10 ^ 309`, so only values whose first digit has that order are compared exactly. -/
def overflows (m : Nat) (e : Int) : Bool :=
  if m = 0 then false
  else
    let d : Int := (toString m).length
    if 309 ≤ d - 1 + e then true
    else if d + e ≤ 308 then false
    else if 0 ≤ e then overflowLimit ≤ m * Nat.pow 10 e.toNat
    else overflowLimit * Nat.pow 10 (-e).toNat ≤ m

/-- Whether a float text that is neither `inf` nor `nan` is positive and too large for a binary64
float. -/
def floatOverflows (text : List Char) : Bool :=
  let cs := text.filter (· ≠ '_')
  let (negative, body) := match cs with
    | '+' :: rest => (false, rest)
    | '-' :: rest => (true, rest)
    | _ => (false, cs)
  let intPart := body.takeWhile Char.isDigit
  let afterInt := body.drop intPart.length
  let (fraction, afterFraction) := match afterInt with
    | '.' :: rest => (rest.takeWhile Char.isDigit, rest.dropWhile Char.isDigit)
    | _ => ([], afterInt)
  let exponent : Int := match afterFraction with
    | _ :: '-' :: ds => -(digitsNat ds : Int)
    | _ :: '+' :: ds => digitsNat ds
    | _ :: ds => digitsNat ds
    | [] => 0
  !negative && overflows (digitsNat (intPart ++ fraction)) (exponent - fraction.length)

/-- Whether a text spells a float: `inf` or `nan` with an optional sign, or a decimal integer
part followed by a fraction, an exponent, or both. -/
def isFloat (cs : List Char) : Bool :=
  let unsigned := match cs with
    | '+' :: rest => rest
    | '-' :: rest => rest
    | _ => cs
  if unsigned = "inf".toList || unsigned = "nan".toList then true
  else
    let intPart := cs.takeWhile fun c => c ≠ '.' && c ≠ 'e' && c ≠ 'E'
    let rest := cs.drop intPart.length
    let (fraction, afterFraction) : Option (List Char) × List Char := match rest with
      | '.' :: more =>
        let f := more.takeWhile fun c => c ≠ 'e' && c ≠ 'E'
        (some f, more.drop f.length)
      | _ => (none, rest)
    let exponentOk : Option Bool := match afterFraction with
      | [] => none
      | e :: more =>
        if e = 'e' || e = 'E' then
          let digits := match more with
            | '+' :: d => d
            | '-' :: d => d
            | _ => more
          some (digitsValue 10 digits).isSome
        else some false
    (decimalValue intPart).isSome &&
      match fraction, exponentOk with
      | none, none => false
      | some f, none => (digitsValue 10 f).isSome
      | none, some ok => ok
      | some f, some ok => (digitsValue 10 f).isSome && ok

/-- The number of `n` decimal digits, if the list is exactly those. -/
def fixedDigits (n : Nat) (cs : List Char) : Option Nat :=
  if cs.length = n && cs.all Char.isDigit then
    some (cs.foldl (fun acc c => acc * 10 + (c.toNat - 48)) 0)
  else none

/-- The number of days in a month of a year of the Gregorian calendar. -/
def daysInMonth (year month : Nat) : Nat :=
  if month = 2 then
    if (year % 4 = 0 && year % 100 ≠ 0) || year % 400 = 0 then 29 else 28
  else if month = 4 || month = 6 || month = 9 || month = 11 then 30
  else 31

/-- Whether a text is a full date `YYYY-MM-DD` of the calendar. -/
def isDate (cs : List Char) : Bool :=
  match fixedDigits 4 (cs.take 4), cs[4]?, fixedDigits 2 ((cs.drop 5).take 2), cs[7]?,
      fixedDigits 2 (cs.drop 8) with
  | some y, some '-', some m, some '-', some d =>
    1 ≤ m && m ≤ 12 && 1 ≤ d && d ≤ daysInMonth y m
  | _, _, _, _, _ => false

/-- Whether a text is a time `HH:MM:SS` with optional fraction of a second. -/
def isTime (cs : List Char) : Bool :=
  match fixedDigits 2 (cs.take 2), cs[2]?, fixedDigits 2 ((cs.drop 3).take 2), cs[5]?,
      fixedDigits 2 ((cs.drop 6).take 2) with
  | some h, some ':', some m, some ':', some s =>
    h ≤ 23 && m ≤ 59 && s ≤ 60 &&
      match cs.drop 8 with
      | [] => true
      | '.' :: digits => !digits.isEmpty && digits.all Char.isDigit
      | _ => false
  | _, _, _, _, _ => false

/-- Whether a text is a time offset: `Z`, `z`, or a sign with `HH:MM`. -/
def isOffset (cs : List Char) : Bool :=
  match cs with
  | ['Z'] | ['z'] => true
  | s :: rest =>
    (s = '+' || s = '-') &&
      match fixedDigits 2 (rest.take 2), rest[2]?, fixedDigits 2 (rest.drop 3) with
      | some h, some ':', some m => h ≤ 23 && m ≤ 59
      | _, _, _ => false
  | [] => false

/-- Whether a text is a date-time: a date, a time, or a date and a time (the text between them
already joined by the delimiter) with an optional offset. -/
def isDateTime (cs : List Char) : Bool :=
  if isTime cs then true
  else if cs.length = 10 then isDate cs
  else
    isDate (cs.take 10) &&
      match cs[10]? with
      | some 'T' | some 't' | some ' ' =>
        let time := cs.drop 11
        let clock := time.takeWhile fun c => c ≠ 'Z' && c ≠ 'z' && c ≠ '+' && c ≠ '-'
        isTime clock && (clock.length = time.length || isOffset (time.drop clock.length))
      | _ => false

end ConfLex.Toml
