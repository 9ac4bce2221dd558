/-!
# JSON text

A JSON value whose objects keep their members in the order they were given, and its pretty
form: one element or member per line, indented by two spaces per level of nesting, with a member
written `"key": value` and an empty array or object written `[]` or `{}`.

Strings are written between double quotes. The quote and the backslash are escaped with a
backslash, and so are the control characters below U+0020: backspace, tab, line feed, form feed
and carriage return by their letters, the others as `\u00xx` in lowercase hexadecimal. Every
other character, U+007F and the line and paragraph separators included, is written as itself.
-/

namespace ConfLex.Json

/-- A JSON value with ordered objects and natural numbers. -/
inductive Value where
  /-- The null value. -/
  | null
  /-- A boolean. -/
  | bool (b : Bool)
  /-- A natural number, written in decimal. -/
  | num (n : Nat)
  /-- A string. -/
  | str (s : String)
  /-- An array of values. -/
  | arr (elements : List Value)
  /-- An object: its members in the order they are written. -/
  | obj (members : List (String × Value))
  deriving Repr, Inhabited

/-- How a character is written inside a JSON string. -/
def escape (c : Char) : String :=
  if c = '\x22' then "\\\""
  else if c = '\\' then "\\\\"
  else if c = '\n' then "\\n"
  else if c = '\r' then "\\r"
  else if c = '\t' then "\\t"
  else if c = '\x08' then "\\b"
  else if c = '\x0c' then "\\f"
  else if c.toNat < 32 then
    let hex := Nat.toDigits 16 c.toNat
    "\\u" ++ String.ofList (List.replicate (4 - hex.length) '0' ++ hex)
  else c.toString

/-- A string as a JSON string. -/
def quote (s : String) : String := "\"" ++ String.join (s.toList.map escape) ++ "\""

/-- `n` levels of indentation. -/
def indentation (n : Nat) : String := String.ofList (List.replicate (2 * n) ' ')

mutual

/-- The pretty form of a value that starts `level` levels deep. -/
def pretty (level : Nat) : Value → String
  | .null => "null"
  | .bool b => if b then "true" else "false"
  | .num n => toString n
  | .str s => quote s
  | .arr [] => "[]"
  | .arr (x :: xs) => "[\n" ++ prettyElements (level + 1) (x :: xs) ++ "\n" ++ indentation level ++ "]"
  | .obj [] => "\x7b\x7d"
  | .obj (m :: ms) =>
    "\x7b\n" ++ prettyMembers (level + 1) (m :: ms) ++ "\n" ++ indentation level ++ "\x7d"

/-- Elements one per line at `level`, separated by commas. -/
def prettyElements (level : Nat) : List Value → String
  | [] => ""
  | [x] => indentation level ++ pretty level x
  | x :: xs => indentation level ++ pretty level x ++ ",\n" ++ prettyElements level xs

/-- Members one per line at `level`, separated by commas. -/
def prettyMembers (level : Nat) : List (String × Value) → String
  | [] => ""
  | [(k, v)] => indentation level ++ quote k ++ ": " ++ pretty level v
  | (k, v) :: ms => indentation level ++ quote k ++ ": " ++ pretty level v ++ ",\n" ++ prettyMembers level ms

end

example : pretty 0 (.arr [.obj [("a", .num 1), ("b", .arr [])]]) =
    "[\n  \x7b\n    \"a\": 1,\n    \"b\": []\n  \x7d\n]" := by decide +kernel

end ConfLex.Json
